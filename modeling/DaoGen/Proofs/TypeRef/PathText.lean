import DaoGen.Declaration.WrittenType
import DaoGen.Proofs.Code.TypeReading
import DaoGen.Proofs.Code.WrittenTree
import Mathlib.Data.List.Forall2

/-!
# Texts of paths

The text of a path is its joined names, with the texts of its arguments in angle brackets. It is
read as a path if the names can stand where they do and the texts of the arguments are read as
arguments.

## Main definitions

* `TypeRef.IsPath`: names that can be those of a path.
* `TypeRef.joinedTree`: the tree of a path whose last name has the given arguments.

## Main results

* `TypeRef.isTextOf_path`: a path is read from its text.
* `TypeRef.ofTree_joinedTree`: what it stands for.
-/
namespace DaoGen.TypeRef

open Code Language TypeReading

/-- The names of a path, where the last one can take arguments if `hasArgs` says so. -/
structure IsPath (absolute : Bool) (front : List String) (last : String) (hasArgs : Bool) :
    Prop where
  words : ∀ name ∈ front ++ [last], IsWord name ∧ (isPathName name = true ∨ name = "try")
  start : absolute = false → ∀ name ∈ (front ++ [last]).head?, isPathName name = true
  target : hasArgs = true → isName last = true ∨ last = "Self"

/-! ## Names -/

theorem spells_colons {cs : List Char} {ps : List Piece} (h : Spells cs ps)
    (hnext : ps.head?.any Piece.isColon = false) :
    Spells (':' :: ':' :: cs) (piecesOf colonTrees ++ ps) := by
  have hlast : Spells (':' :: cs) (.token (.punct ':') :: ps) :=
    .mark (by decide) nofun h fun _ _ hcolon => by simp [hnext] at hcolon
  exact .mark (by decide) (fun _ => ⟨':', by decide, cs, rfl⟩) hlast fun _ hjoint => nomatch hjoint

/-- The characters of a joined path. -/
theorem toList_joinedPath (absolute : Bool) (front : List String) (last : String) :
    (joinedPath absolute (front ++ [last])).toList =
      (if absolute then [':', ':'] else []) ++
        (front.flatMap (fun name => name.toList ++ [':', ':']) ++ last.toList) := by
  have hnames : ("::".intercalate (front ++ [last])).toList =
      front.flatMap (fun name => name.toList ++ [':', ':']) ++ last.toList := by
    induction front with
    | nil => simp
    | cons name front ih =>
      rw [List.cons_append, String.intercalate_cons_of_ne_nil (by simp), String.toList_append, ih]
      simp
  rw [joinedPath, String.toList_append, hnames]
  cases absolute <;> rfl

/-- The text of a path begins with colons or with a word. -/
theorem head_joinedPath {absolute : Bool} {front : List String} {last : String} {hasArgs : Bool}
    (h : IsPath absolute front last hasArgs) :
    ∃ c rest, (joinedPath absolute (front ++ [last])).toList = c :: rest ∧ c ≠ '[' := by
  rw [toList_joinedPath]
  cases absolute with
  | true => exact ⟨':', _, rfl, by decide⟩
  | false =>
    have hword {name : String} (hname : IsWord name) (tail : List Char) :
        ∃ c rest, name.toList ++ tail = c :: rest ∧ c ≠ '[' := by
      obtain ⟨c, rest, heq, hc⟩ := isIdentifierStart_of_identifier hname
      exact ⟨c, rest ++ tail, by rw [heq]; rfl, ne_of_isIdentifierStart hc (by decide)⟩
    cases front with
    | nil => simpa using hword (h.words last (by simp)).1 []
    | cons name front =>
      obtain ⟨c, rest, heq, hc⟩ := hword (h.words name (by simp)).1
        ([':', ':'] ++ (front.flatMap (fun name => name.toList ++ [':', ':']) ++ last.toList))
      exact ⟨c, rest, by simpa using heq, hc⟩

theorem joinedPath_ne_slice {absolute : Bool} {front : List String} {last : String} {hasArgs : Bool}
    (h : IsPath absolute front last hasArgs) : joinedPath absolute (front ++ [last]) ≠ "[]" := by
  obtain ⟨c, rest, heq, hslice⟩ := head_joinedPath h
  intro hname
  rw [hname] at heq
  exact hslice (List.cons.inj heq).1.symm

/-! ## Arguments -/

/-- The arguments of a path are read from their texts with commas between them. -/
theorem spells_arguments {text : String} {texts : List String} {member : ParseTree Part}
    {members : Trees} (h : List.Forall₂ IsArgumentText (text :: texts) (member :: members)) :
    Spells (", ".intercalate (text :: texts)).toList
      (piecesOf (commaList (member :: members) false)) := by
  induction texts generalizing text member members with
  | nil =>
    obtain ⟨hmember, hmembers⟩ := List.forall₂_cons.mp h
    obtain rfl := List.forall₂_nil_left_iff.mp hmembers
    simpa [commaList] using hmember.spells
  | cons next texts ih =>
    obtain ⟨hmember, hmembers⟩ := List.forall₂_cons.mp h
    obtain ⟨later, members, _, _, rfl⟩ := List.forall₂_cons_left_iff.mp hmembers
    have hlater : Spells (',' :: ' ' :: (", ".intercalate (next :: texts)).toList)
        (.token (.punct ',') :: piecesOf (commaList (later :: members) false)) :=
      .mark (c := ',') (by decide) nofun (ih hmembers).blank nofun
    simpa [commaList, commaTree] using hmember.spells.append hlater rfl rfl

/-- The characters of arguments in angle brackets, if there are any. -/
def angled (texts : List String) : List Char :=
  if texts.isEmpty then [] else '<' :: ((", ".intercalate texts).toList ++ ['>'])

/-- The last name of a path is read from its text with the arguments after it. -/
theorem spells_segmentTrees {last : String} {texts : List String} {members : Trees}
    (hlast : IsWord last) (h : List.Forall₂ IsArgumentText texts members) :
    Spells (last.toList ++ angled texts) (piecesOf (segmentTrees last members)) := by
  cases h with
  | nil => simpa [segmentTrees, angled] using Spells.word hlast rfl .nil
  | cons ht hts =>
    have hclose : Spells ['>'] [.token (.punct '>')] :=
      .mark (c := '>') (by decide) nofun .nil nofun
    have hargs := (spells_arguments (.cons ht hts)).append hclose rfl rfl
    have hangled : Spells _ (.token (.punct '<') :: _) :=
      .mark (c := '<') (by decide) nofun hargs nofun
    simpa [segmentTrees, argumentsTree, angled] using Spells.word hlast rfl hangled

/-! ## Paths -/

/-- The names of a path stand before its last one, each with colons after it. -/
theorem pathTrees_eq_of_append {absolute : Bool} {first last : Trees} {later front : List Trees}
    (h : first :: later = front ++ [last]) :
    pathTrees absolute first later = optColons absolute ++
      (front.flatMap (fun names => .node .segment names :: colonTrees) ++
        [.node .segment last]) := by
  rw [pathTrees]
  congr 1
  induction front generalizing first later with
  | nil =>
    cases h
    rfl
  | cons name front ih =>
    obtain ⟨rfl, hlater⟩ := List.cons.inj h
    cases later with
    | nil => simp at hlater
    | cons next rest =>
      have hrest := ih (hlater : next :: rest = front ++ [last])
      simpa using hrest

/-- The tree of a path whose last name has the given arguments. -/
def joinedTree (absolute : Bool) (front : List String) (last : String) (members : Trees) :
    ParseTree Part :=
  .node .type [.node .pathType [.node .path (optColons absolute ++
    (front.flatMap (fun name => .node .segment (segmentTrees name []) :: colonTrees) ++
      [.node .segment (segmentTrees last members)]))]]

theorem joinedTree_eq {absolute : Bool} {front : List String} {last : String} {members : Trees}
    {first : Trees} {later : List Trees}
    (h : first :: later = front.map (segmentTrees · []) ++ [segmentTrees last members]) :
    joinedTree absolute front last members = pathTypeTree absolute first later := by
  rw [joinedTree, pathTypeTree, pathTrees_eq_of_append h, List.flatMap_map]

/-- Names without arguments are read with the colons after them. -/
theorem spells_names {front : List String} {cs : List Char} {ps : List Piece}
    (hfront : ∀ name ∈ front, IsWord name) (h : Spells cs ps)
    (hnext : ps.head?.any Piece.isColon = false) :
    let trees := front.flatMap fun name => .node .segment (segmentTrees name []) :: colonTrees
    Spells (front.flatMap (fun name => name.toList ++ [':', ':']) ++ cs) (piecesOf trees ++ ps) ∧
      (piecesOf trees ++ ps).head?.any Piece.isColon = false := by
  induction front with
  | nil => exact ⟨h, hnext⟩
  | cons name front ih =>
    obtain ⟨hname, hfront⟩ := List.forall_mem_cons.mp hfront
    obtain ⟨hlater, hcolon⟩ := ih hfront
    refine ⟨?_, rfl⟩
    simpa [segmentTrees] using Spells.word hname rfl (spells_colons hlater hcolon)

theorem exists_text_of_forall₂ {texts : List String} {members : Trees}
    (h : List.Forall₂ IsArgumentText texts members) :
    ∀ tree ∈ members, ∃ text, IsArgumentText text tree := by
  induction h with
  | nil => nofun
  | cons htext _ ih => exact List.forall_mem_cons.mpr ⟨⟨_, htext⟩, ih⟩

/-- A path is read from its names and the texts of its arguments. -/
theorem isTextOf_path {absolute : Bool} {front : List String} {last text : String}
    {texts : List String} {members : Trees}
    (hpath : IsPath absolute front last (!members.isEmpty))
    (hargs : List.Forall₂ IsArgumentText texts members)
    (htext : text.toList = (joinedPath absolute (front ++ [last])).toList ++ angled texts) :
    IsTextOf text (joinedTree absolute front last members) where
  reads plus _ := by
    have hlast := rereads_segmentTrees (hpath.words last (by simp)).1
      (hpath.words last (by simp)).2 (fun h => hpath.target (by simp [h]))
      (exists_text_of_forall₂ hargs)
    have hplain {name : String} (hname : name ∈ front) :=
      hpath.words name (List.mem_append_left _ hname)
    have hfront (name : String) (hname : name ∈ front) :
        Rereads NoArguments (AtIdent name) 0 (segment false)
          [.node .segment (segmentTrees name [])] :=
      rereads_plainSegment (hplain hname).1 (hplain hname).2
    cases front with
    | nil =>
      have htree : joinedTree absolute [] last members =
          pathTypeTree absolute (segmentTrees last members) [] := joinedTree_eq rfl
      rw [htree]
      exact rereads_pathType (fun h => hpath.start h last rfl) hlast (List.forall_mem_nil _) plus
    | cons name front =>
      rw [joinedTree_eq rfl]
      refine rereads_pathType (fun h => hpath.start h name rfl) (hfront name (by simp)) ?_ plus
      intro names hnames
      rcases List.mem_append.mp hnames with hnames | hnames
      · obtain ⟨name, hname, rfl⟩ := List.mem_map.mp hnames
        exact ⟨name, hfront name (by simp [hname])⟩
      · obtain rfl := List.mem_singleton.mp hnames
        exact ⟨last, hlast⟩
  node := rfl
  spells := by
    have hlast := spells_segmentTrees (hpath.words last (by simp)).1 hargs
    obtain ⟨hnames, hcolon⟩ := spells_names
      (fun name hname => (hpath.words name (List.mem_append_left _ hname)).1) hlast rfl
    rw [htext, toList_joinedPath]
    cases absolute with
    | true => simpa [joinedTree, optColons] using spells_colons hnames hcolon
    | false => simpa [joinedTree, optColons] using hnames

/-- The text of a path with arguments. -/
theorem render_path {absolute : Bool} {front : List String} {last : String} {hasArgs : Bool}
    (hpath : IsPath absolute front last hasArgs) (ts : List TypeRef) :
    (render
        ⟨joinedPath absolute (front ++ [last]), ts.map (.type .invariant), false, false⟩).toList =
      (joinedPath absolute (front ++ [last])).toList ++ angled (ts.map render) := by
  have hargs : renderArgs (ts.map (.type .invariant)) = ts.map render := by
    simp [renderArgs_eq_map, renderArg]
  simp only [render, joinedPath_ne_slice hpath, hargs, if_false, Bool.false_eq_true, angled,
    List.isEmpty_map]
  split
  · simp
  · simp [String.toList_append]

/-! ## What a path stands for -/

/-- Types are read as the arguments that they stand for. -/
theorem ofTree_argumentsTree {types : Trees} {syns : List TypeSyntax}
    (h : List.Forall₂ (fun type syn => ofTree type = .type syn) types syns) :
    ofTree (argumentsTree (types.map (.node .typeArgument [·]))) =
      .arguments (syns.map .type) false := by
  have hmembers : argumentsOf (commaList (types.map (.node .typeArgument [·])) false) =
        syns.map .type ∧
      ((commaList (types.map (.node .typeArgument [·])) false).map ofTree).any isLifetime =
        false := by
    induction h with
    | nil => exact ⟨rfl, rfl⟩
    | @cons type syn types syns htype htypes ih =>
      have hread : ofTree (.node .typeArgument [type]) = .argument (.type syn) := by
        simp [ofTree, ofTrees, ofPart, htype]
      cases htypes with
      | nil => simp [commaList, argumentsOf, hread, argument?, isLifetime]
      | cons hnext htypes =>
        obtain ⟨hargs, hlifetimes⟩ := ih
        have hcomma : ofTree commaTree = .nothing := rfl
        refine ⟨?_, ?_⟩
        · rw [List.map_cons, List.map_cons, commaList, argumentsOf_cons_some (argument?_type htype),
            argumentsOf_cons_none rfl, List.map_cons]
          exact congrArg _ hargs
        · simpa [commaList, hread, hcomma, isLifetime] using hlifetimes
  have harguments := ofTree_arguments false (commaList (types.map (.node .typeArgument [·])) false)
  rw [hmembers.1, hmembers.2] at harguments
  exact harguments

theorem segment?_segmentTrees {name : String} {types : Trees} {syns : List TypeSyntax}
    (h : List.Forall₂ (fun type syn => ofTree type = .type syn) types syns) :
    segment? (ofTree (.node .segment (segmentTrees name (types.map (.node .typeArgument [·]))))) =
      some (name, if syns.isEmpty then none else some (syns.map .type, false)) := by
  cases h with
  | nil => simp [segmentTrees, ofTree_plain, segment?]
  | cons htype htypes =>
    have harguments := ofTree_argumentsTree (.cons htype htypes)
    rw [List.map_cons] at harguments
    simp [segmentTrees, ofTree_generic harguments, segment?]

/-- A path stands for its names with the types that are its arguments. -/
theorem ofTree_joinedTree {absolute : Bool} {front : List String} {last : String} {types : Trees}
    {syns : List TypeSyntax}
    (h : List.Forall₂ (fun type syn => ofTree type = .type syn) types syns) :
    ofTree (joinedTree absolute front last (types.map (.node .typeArgument [·]))) =
      .type (.named absolute (front ++ [last]) (syns.map .type)) := by
  have hfront : segmentsOf (front.flatMap fun name =>
      .node .segment (segmentTrees name []) :: colonTrees) = front.map (·, none) := by
    induction front with
    | nil => rfl
    | cons name front ih =>
      rw [List.flatMap_cons, segmentsOf_append, ih]
      rfl
  have hcolon : startsWithColon (tokensOf (optColons absolute ++
      (front.flatMap (fun name => .node .segment (segmentTrees name []) :: colonTrees) ++
        [.node .segment (segmentTrees last (types.map (.node .typeArgument [·])))]))) =
          absolute := by
    cases absolute <;> cases front <;> simp [optColons, colonTrees, segmentTrees, startsWithColon]
  have hlast : segmentsOf [.node .segment
      (segmentTrees last (types.map (.node .typeArgument [·])))] =
        [(last, if syns.isEmpty then none else some (syns.map .type, false))] := by
    simp [segmentsOf, segment?_segmentTrees h]
  refine ofTree_type ((ofTree_path _).trans ?_)
  rw [hcolon, segmentsOf_append, segmentsOf_optColons, segmentsOf_append, hfront, hlast]
  cases syns <;> simp [ofPath, Function.comp_def]

end DaoGen.TypeRef
