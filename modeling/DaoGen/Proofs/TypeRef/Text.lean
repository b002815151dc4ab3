import DaoGen.Proofs.TypeRef.Canonical
import DaoGen.Proofs.TypeRef.PathText

/-!
# The text of described types

A described type consists of paths, slices and the unit type, with any marks. Its text is that of a
form of types, so it is read back: as the type itself, except that an optional type stands in place
of each mark for an absent value. The normal form of that type has the marks again.

## Main results

* `TypeRef.normalize_expanded`: marks that are written out come back in the normal form.
* `TypeRef.Described.parse_render`: the text of a described type is read back.
-/
namespace DaoGen.TypeRef

open Code Language TypeReading

/-! ## Marks that are written out -/

mutual

/-- A type with optional types in place of marks for absent values. -/
def expanded : TypeRef → TypeRef
  | ⟨name, args, nullable, reference⟩ =>
    let base : TypeRef := ⟨name, expandedArgs args, false, reference⟩
    if nullable then generic "Option" [base] else base

def expandedArgs : List (TypeArg TypeRef) → List (TypeArg TypeRef)
  | [] => []
  | arg :: rest => expandedArg arg :: expandedArgs rest

def expandedArg : TypeArg TypeRef → TypeArg TypeRef
  | .type projection ty => .type projection (expanded ty)
  | .star => .star

end

theorem expandedArgs_eq_map (args : List (TypeArg TypeRef)) :
    expandedArgs args = args.map expandedArg := by
  induction args with
  | nil => rfl
  | cons arg rest ih => simp [expandedArgs, ih]

theorem expandedArgs_type (ts : List TypeRef) :
    expandedArgs (ts.map (.type .invariant)) = (ts.map expanded).map (.type .invariant) := by
  simp [expandedArgs_eq_map, expandedArg]

/-- In the normal form of an expanded type the marks are back. -/
theorem normalize_expanded {t : TypeRef} (h : t.IsNormal) : t.expanded.normalize = t := by
  induction t using induction_args with
  | step t ih =>
    obtain ⟨name, args, nullable, reference⟩ := t
    obtain ⟨⟨hcovariant, hname, hcarrier⟩, hargs⟩ := isNormal_iff.mp h
    have hsame : normalizeArgs (expandedArgs args) = args := by
      have harg : ∀ arg ∈ args, (normalizeArg ∘ expandedArg) arg = id arg := by
        intro arg harg
        rw [Function.comp_apply]
        cases arg with
        | star => rfl
        | type projection u =>
          cases projection with
          | covariant => exact absurd harg (hcovariant u)
          | invariant | contravariant =>
            simp only [expandedArg, normalizeArg, ih _ u harg (hargs _ u harg), id]
      rw [expandedArgs_eq_map, normalizeArgs_eq_map, List.map_map, List.map_congr_left harg,
        List.map_id]
    have hbase : normalize ⟨name, expandedArgs args, false, reference⟩ =
        ⟨name, args, false, reference⟩ := by
      rw [normalize, hsame, canonicalName_eq_self_iff.mpr hname, rebuild_of_not_carrier hcarrier]
    cases nullable with
    | false => exact hbase
    | true =>
      have hoption : canonicalName "Option" = "Option" := by decide
      simp only [expanded, if_true]
      rw [normalize_option hoption, hbase]

/-! ## Described types -/

/-- A type made of paths with plain arguments, slices and the unit type, with any marks. -/
inductive Described : TypeRef → Prop where
  | path {absolute : Bool} {front : List String} {last : String} {ts : List TypeRef}
    (hpath : IsPath absolute front last (!ts.isEmpty)) (hts : ∀ t ∈ ts, Described t)
    (nullable reference : Bool) : Described
      ⟨joinedPath absolute (front ++ [last]), ts.map (.type .invariant), nullable, reference⟩
  | slice {element : TypeRef} (h : Described element) (nullable reference : Bool) :
    Described ⟨"[]", [.type .invariant element], nullable, reference⟩
  | unit (nullable reference : Bool) : Described ⟨"()", [], nullable, reference⟩

/-- A tree that is no sum is read from the text of a type and stands for the expanded type. -/
structure HasTree (t : TypeRef) (tree : ParseTree Part) : Prop where
  text : IsTextOf t.render tree
  single : isSum tree = false
  meant : ∃ syn, ofTree tree = .type syn ∧ ofSyntax syn = .ok t.expanded

theorem forall₂_isArgumentText {ts : List TypeRef} {trees : Trees}
    (h : List.Forall₂ HasTree ts trees) :
    List.Forall₂ IsArgumentText (ts.map render) (trees.map (.node .typeArgument [·])) :=
  List.forall₂_map_left_iff.mpr <| List.forall₂_map_right_iff.mpr <|
    h.imp fun _ _ ht => ht.text.argument

/-- Trees of types stand for arguments that are the expanded types. -/
theorem exists_arguments_of_hasTree {ts : List TypeRef} {trees : Trees}
    (h : List.Forall₂ HasTree ts trees) :
    ∃ syns, List.Forall₂ (fun tree syn => ofTree tree = .type syn) trees syns ∧
      ofArguments (syns.map .type) = .ok ((ts.map expanded).map (.type .invariant)) := by
  induction h with
  | nil => exact ⟨[], .nil, rfl⟩
  | cons ht _ ih =>
    obtain ⟨syn, hsyn, hmeant⟩ := ht.meant
    obtain ⟨syns, hsyns, hargs⟩ := ih
    refine ⟨syn :: syns, .cons hsyn hsyns, ?_⟩
    rw [List.map_cons, ofArguments, ofArgument, hmeant, hargs]
    rfl

/-- The tree of a path stands for the path of the expanded arguments. -/
theorem meant_joinedTree {ts : List TypeRef} {trees : Trees} (h : List.Forall₂ HasTree ts trees)
    (absolute : Bool) (front : List String) (last : String) :
    ∃ syn, ofTree
        (joinedTree absolute front last (trees.map (.node .typeArgument [·]))) = .type syn ∧
      ofSyntax syn = .ok ⟨joinedPath absolute (front ++ [last]),
        (ts.map expanded).map (.type .invariant), false, false⟩ := by
  obtain ⟨syns, hsyns, hargs⟩ := exists_arguments_of_hasTree h
  exact ⟨_, ofTree_joinedTree hsyns, by simp [ofSyntax, hargs]⟩

/-! ## Types -/

/-- What is no sum does not begin as if it had marks of a reference before it. -/
theorem HasTree.isBorrow_eq_false {t : TypeRef} {tree : ParseTree Part} (h : HasTree t tree) :
    isBorrow (.punct '&' :: tree.tokens) = false := by
  have hread := (h.text.reads true fun _ => rfl).reads (spell_tokensOf [tree]) closes_nil
  have hbegins : Begins tree tree.tokens := by simpa using hread.1
  obtain ⟨hlifetime, hwritable⟩ := hbegins.unmarked h.single
  match tree.tokens, hlifetime, hwritable with
  | .ident text line :: rest, _, hwritable =>
    unfold isBorrow
    split
    · next heq => cases heq
    · next heq =>
      cases heq
      cases hwritable
    · rfl
  | .punct _ _ :: _, _, _ | .literal _ :: _, _, _ | .group _ _ :: _, _, _ | [], _, _ => rfl

theorem HasTree.reference {name : String} {args : List (TypeArg TypeRef)} {tree : ParseTree Part}
    (h : HasTree ⟨name, args, false, false⟩ tree) :
    HasTree ⟨name, args, false, true⟩ (referenceTree tree) where
  text := by simpa [render] using h.text.reference h.single
  single := rfl
  meant := by
    obtain ⟨syn, hsyn, hmeant⟩ := h.meant
    have href := ofTree_reference (List.forall_mem_nil IsReferenceMark) hsyn
    rw [tokensOf_nil, List.nil_append, List.nil_append, h.isBorrow_eq_false] at href
    exact ⟨.shared syn, ofTree_type href, by simp [ofSyntax, hmeant, expanded, byRef]⟩

theorem isPath_option : IsPath false [] "Option" true where
  words := by decide
  start := by decide
  target := by decide

theorem HasTree.nullable {name : String} {args : List (TypeArg TypeRef)} {reference : Bool}
    {tree : ParseTree Part} (h : HasTree ⟨name, args, false, reference⟩ tree) :
    HasTree ⟨name, args, true, reference⟩
      (joinedTree false [] "Option" [.node .typeArgument [tree]]) where
  text := by
    refine isTextOf_path isPath_option (.cons h.text.argument .nil) ?_
    simp [render, joinedPath, angled]
  single := rfl
  meant := by
    have hmeant := meant_joinedTree (.cons h .nil) false [] "Option"
    simpa [expanded, joinedPath, generic] using hmeant

/-- The marks of a type are written around its text. -/
theorem exists_tree_of_base {name : String} {args : List (TypeArg TypeRef)} {tree : ParseTree Part}
    (h : HasTree ⟨name, args, false, false⟩ tree) (nullable reference : Bool) :
    ∃ tree, HasTree ⟨name, args, nullable, reference⟩ tree := by
  have hreference : ∃ tree, HasTree ⟨name, args, false, reference⟩ tree := by
    cases reference with
    | false => exact ⟨_, h⟩
    | true => exact ⟨_, h.reference⟩
  cases nullable with
  | false => exact hreference
  | true =>
    obtain ⟨tree, htree⟩ := hreference
    exact ⟨_, htree.nullable⟩

theorem exists_trees {ts : List TypeRef} (h : ∀ t ∈ ts, ∃ tree, HasTree t tree) :
    ∃ trees, List.Forall₂ HasTree ts trees := by
  induction ts with
  | nil => exact ⟨[], .nil⟩
  | cons t ts ih =>
    obtain ⟨⟨tree, ht⟩, hts⟩ := List.forall_mem_cons.mp h
    obtain ⟨trees, htrees⟩ := ih hts
    exact ⟨tree :: trees, .cons ht htrees⟩

/-- A described type has a tree. -/
theorem Described.exists_tree {t : TypeRef} (h : Described t) : ∃ tree, HasTree t tree := by
  induction h with
  | @path absolute front last ts hpath _ nullable reference ih =>
    obtain ⟨trees, htrees⟩ := exists_trees ih
    have hempty : (trees.map (ParseTree.node .typeArgument [·])).isEmpty = ts.isEmpty := by
      cases htrees <;> rfl
    refine exists_tree_of_base (?_ : HasTree _
      (joinedTree absolute front last (trees.map (.node .typeArgument [·])))) nullable reference
    refine ⟨isTextOf_path (hempty ▸ hpath) (forall₂_isArgumentText htrees) (render_path hpath ts),
      rfl, ?_⟩
    rw [expanded, expandedArgs_type]
    exact meant_joinedTree htrees absolute front last
  | @slice element _ nullable reference ih =>
    obtain ⟨tree, htree⟩ := ih
    obtain ⟨syn, hsyn, hmeant⟩ := htree.meant
    refine exists_tree_of_base (?_ : HasTree _ (sliceTree tree)) nullable reference
    refine ⟨?_, rfl, .slice syn, ofTree_type (ofTree_slice hsyn []), ?_⟩
    · simpa [render, renderArgs, renderArg] using htree.text.slice
    · simp [ofSyntax, hmeant, expanded, expandedArgs, expandedArg, TypeRef.slice, generic]
  | unit nullable reference =>
    refine exists_tree_of_base (?_ : HasTree _ unitTree) nullable reference
    refine ⟨?_, rfl, .unit, rfl, rfl⟩
    simpa [render] using isTextOf_unit

/-- The text of a described type is read back as the expanded type. -/
theorem Described.parse_render {t : TypeRef} (h : Described t) :
    ∃ tree, parseText (.type true) (lex t.render) = some [tree] ∧
      ofSyntax (.ofTree tree) = .ok t.expanded := by
  obtain ⟨tree, htree⟩ := h.exists_tree
  obtain ⟨syn, hsyn, hmeant⟩ := htree.meant
  refine ⟨tree, htree.text.parse_eq, ?_⟩
  rw [TypeSyntax.ofTree, hsyn]
  exact hmeant

end DaoGen.TypeRef
