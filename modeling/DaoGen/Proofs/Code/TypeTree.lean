import DaoGen.Code.ItemSyntax
import DaoGen.Proofs.Code.Yields

/-!
# What the tree of a type looks like

The laws of `Yields` give the shape of every tree that the grammar reads as a type, at the places
where a declaration looks at it.

## Main definitions

* `IsType`: what the grammar reads as a type.
* `IsArgument`: what it reads as an argument between angle brackets.
* `TypeCase`: the cases of such a tree, whose inner types have a given property.

## Main results

* `IsType.induction`: what holds of a type whenever it holds of its inner types holds of every type.
-/
namespace DaoGen.Code

open Code.Language

/-! ## Cases of types -/

/-- What the grammar reads as a type, wherever it stands. -/
def IsType (tree : ParseTree Part) : Prop :=
  ∃ depth plus ts parsed, language.read depth (.type plus) ts = .success parsed ∧
    parsed.trees = [tree]

/-- What the grammar reads as an argument between angle brackets. -/
def IsArgument (tree : ParseTree Part) : Prop :=
  ∃ depth ts parsed, typeArgument.run (language.read depth) ts = .success parsed ∧
    parsed.trees = [tree]

/-- A member between the angle brackets of arguments: a lifetime, a constant, or a type, perhaps
with more than the type. -/
inductive ArgumentCase (P : ParseTree Part → Prop) : ParseTree Part → Prop where
  | comma : ArgumentCase P commaTree
  | lifetime (name : String) : ArgumentCase P (.node .lifetimeArgument [.leaf (.lifetime name)])
  | const {trees : Trees} (h : IsArgument (.node .constArgument trees)) :
    ArgumentCase P (.node .constArgument trees)
  | type {type : ParseTree Part} (h : P type) : ArgumentCase P (.node .typeArgument [type])
  | associated {type next : ParseTree Part} {more : Trees}
    (h : IsArgument (.node .typeArgument (type :: next :: more))) :
    ArgumentCase P (.node .typeArgument (type :: next :: more))

/-- A name of a path, without arguments or with some. -/
inductive SegmentCase (P : ParseTree Part → Prop) : ParseTree Part → Prop where
  | plain {text : String} {line : Nat} (h : isPathName text = true ∨ text = "try") :
    SegmentCase P (.node .segment [.leaf (.ident text line)])
  | generic {text : String} {line : Nat} {colons : Bool} {members : Trees}
    (h : isName text = true ∨ text = "Self") (hmembers : ∀ tree ∈ members, ArgumentCase P tree) :
    SegmentCase P (.node .segment [.leaf (.ident text line), .node .arguments
      (optColons colons ++ (.leaf (.punct '<') :: (members ++ [.leaf (.punct '>')])))])

/-- The trees of a path, from its names with their arguments. -/
def pathTrees (absolute : Bool) (first : Trees) (later : List Trees) : Trees :=
  optColons absolute ++
    (.node .segment first :: later.flatMap fun names => colonTrees ++ [.node .segment names])

/-- A path. Unless it is absolute it begins with a word that a path can begin with. -/
inductive PathCase (P : ParseTree Part → Prop) : Trees → Prop where
  | mk {absolute : Bool} {first : Trees} {later : List Trees}
    (hstart : absolute = false → isPathName (TypeReading.firstName (tokensOf first)) = true)
    (hfirst : SegmentCase P (.node .segment first))
    (hlater : ∀ names ∈ later, SegmentCase P (.node .segment names)) :
    PathCase P (pathTrees absolute first later)

theorem PathCase.mem {P : ParseTree Part → Prop} {children : Trees} {tree : ParseTree Part}
    (h : PathCase P children) (htree : tree ∈ children) :
    tree ∈ colonTrees ∨ SegmentCase P tree := by
  obtain @⟨absolute, first, later, -, hfirst, hlater⟩ := h
  rcases List.mem_append.mp htree with hcolon | htree
  · cases absolute with
    | true => exact .inl hcolon
    | false => cases hcolon
  · rcases List.mem_cons.mp htree with rfl | htree
    · exact .inr hfirst
    · obtain ⟨names, hnames, htree⟩ := List.mem_flatMap.mp htree
      refine (List.mem_append.mp htree).imp_right fun htree => ?_
      obtain rfl := List.mem_singleton.mp htree
      exact hlater names hnames

/-- Whether a tree marks a reference with a lifetime or as one that can write. -/
def IsReferenceMark (tree : ParseTree Part) : Prop :=
  (∃ name, tree = .leaf (.lifetime name)) ∨ ∃ line, tree = .leaf (.ident "mut" line)

/-- The inside of a type whose inner types have a property, as far as declarations look at it. -/
inductive TypeCase (P : ParseTree Part → Prop) : ParseTree Part → Prop where
  | path {children : Trees} (h : PathCase P children) :
    TypeCase P (.node .pathType [.node .path children])
  | reference {marks : Trees} {target : ParseTree Part}
    (hmarks : ∀ tree ∈ marks, IsReferenceMark tree) (h : P target) :
    TypeCase P (.node .referenceType (.leaf (.punct '&') :: (marks ++ [target])))
  /-- a slice, or an array if there is more than the type of its elements -/
  | slice {element : ParseTree Part} (h : P element) (more : Trees) :
    TypeCase P (.node .sliceType [.group .bracket (element :: more)])
  | unit : TypeCase P (.node .unitType [.group .paren []])
  | paren {inner : ParseTree Part} (h : P inner) :
    TypeCase P (.node .parenType [.group .paren [inner]])
  | infer (line : Nat) : TypeCase P (.node .inferType [.leaf (.ident "_" line)])
  | call (path : ParseTree Part) (joint : Bool) (rest : Trees) :
    TypeCase P (.node .macroType (path :: .leaf (.punct '!' joint) :: rest))
  /-- a type of any other form -/
  | kept {part : Part} (h : part = .boundType ∨ part = .otherType) (children : Trees) :
    TypeCase P (.node part children)

section Cases

/-- Each type that the rules read has a property. -/
def TypesHave (rules : Rule → List Token → Match Part) (P : ParseTree Part → Prop) : Prop :=
  ∀ plus ts parsed, rules (.type plus) ts = .success parsed → ∃ tree, parsed.trees = [tree] ∧ P tree

variable {rules : Rule → List Token → Match Part} {depth : Nat} {P : ParseTree Part → Prop}
  {ts : List Token} {plus : Bool}

theorem yields_call_type {post : Trees → List Token → Prop} (hrules : TypesHave rules P)
    (h : ∀ tree rest, P tree → post [tree] rest) :
    Yields rules (call (.type plus)) ts post := by
  refine .call fun parsed hparsed => ?_
  obtain ⟨tree, htree, hP⟩ := hrules plus ts parsed hparsed
  rw [htree]
  exact h tree parsed.rest hP

/-! ### Paths -/

theorem mem_membersOf {trees : Trees} {member : ParseTree Part × Bool}
    (h : member ∈ membersOf trees) : member.1 ∈ trees := by
  induction trees with
  | nil => cases h
  | cons tree trees ih =>
    rw [membersOf] at h
    split at h
    · exact List.mem_cons_of_mem _ (ih h)
    · rcases List.mem_cons.mp h with rfl | h
      · exact List.mem_cons_self
      · exact List.mem_cons_of_mem _ (ih h)

theorem mem_joinMembers {members : List (ParseTree Part × Bool)} {tree : ParseTree Part}
    (h : tree ∈ joinMembers members) : tree = commaTree ∨ ∃ comma, (tree, comma) ∈ members := by
  induction members using joinMembers.induct with
  | case1 => cases h
  | case2 first comma =>
    rw [joinMembers] at h
    rcases List.mem_cons.mp h with rfl | h
    · exact .inr ⟨comma, List.mem_cons_self⟩
    · cases comma with
      | true => exact .inl (by simpa [commaTree] using h)
      | false => cases h
  | case3 first comma rest hrest ih =>
    rw [joinMembers.eq_3 _ _ _ hrest] at h
    rcases List.mem_cons.mp h with rfl | h
    · exact .inr ⟨comma, List.mem_cons_self⟩
    · rcases List.mem_cons.mp h with rfl | h
      · exact .inl rfl
      · exact (ih h).imp_right (Exists.imp fun _ => List.mem_cons_of_mem _)

/-- Putting the lifetimes first brings in no trees but commas. -/
theorem mem_lifetimesFirst {trees : Trees} {tree : ParseTree Part}
    (h : tree ∈ lifetimesFirst trees) : tree = commaTree ∨ tree ∈ trees := by
  unfold lifetimesFirst at h
  rw [List.partition_eq_filter_filter] at h
  refine (mem_joinMembers h).imp_right ?_
  rintro ⟨comma, hmem⟩
  have hmember : (tree, comma) ∈ membersOf trees := by
    rcases List.mem_append.mp hmem with hmem | hmem <;> exact (List.mem_filter.mp hmem).1
  exact mem_membersOf hmember

theorem yields_optColons {post : Trees → List Token → Prop}
    (h : ∀ present rest, (present = false → rest = ts ∧ atOp "::" ts = false) →
      post (optColons present) rest) :
    Yields rules (optOp "::") ts post :=
  .given (fun _ => .colons fun rest => h true rest nofun) fun hlook =>
    h false ts fun _ => ⟨rfl, hlook⟩

theorem yields_typeArgument (hrules : TypesHave (language.read depth) P) :
    Yields (language.read depth) typeArgument ts
      fun trees _ => ∀ tree ∈ trees, ArgumentCase P tree := by
  have hall : Yields (language.read depth) typeArgument ts fun trees _ =>
      ∃ tree, trees = [tree] ∧ (IsArgument tree → ArgumentCase P tree) := by
    refine .select_cons (fun _ => .labelled (.lifetime fun name _ _ => ?_)) fun _ =>
      .select_cons (fun _ => .labelled (Yields.any.mono fun trees _ _ => ?_)) fun _ =>
        .select_nil (.labelled (.bind (yields_call_type hrules fun type rest htype => ?_)))
    · exact ⟨_, rfl, fun _ => .lifetime name⟩
    · exact ⟨_, rfl, .const⟩
    · refine Yields.any.mono fun trees _ _ => ?_
      cases trees with
      | nil => exact ⟨_, rfl, fun _ => .type htype⟩
      | cons next more => exact ⟨_, rfl, .associated⟩
  intro parsed hparsed
  obtain ⟨tree, htree, hcase⟩ := hall parsed hparsed
  rw [htree, List.forall_mem_singleton]
  exact hcase ⟨depth, ts, parsed, hparsed, htree⟩

theorem yields_typeArguments (hrules : TypesHave (language.read depth) P) :
    Yields (language.read depth) typeArguments ts fun trees _ => ∃ colons members,
      (∀ tree ∈ members, ArgumentCase P tree) ∧ trees = [.node .arguments
        (optColons colons ++ (.leaf (.punct '<') :: (members ++ [.leaf (.punct '>')])))] := by
  refine .labelled (.append (yields_optColons fun colons _ _ => .append (.append
    (.mark (c := '<') fun _ => .edited ?_))))
  have hlist (ts : List Token) : Yields (language.read depth)
      (separated atAngleEnd (Language.op ",") typeArgument) ts
        fun trees _ => ∀ tree ∈ trees, ArgumentCase P tree := by
    refine .repeated fun ts _ => .append ((yields_typeArgument hrules).mono fun trees mid h => ?_)
    refine .either (fun _ => .empty ?_) fun _ => .mark (c := ',') fun _ => ?_
    · simpa using h
    · simpa [or_imp, forall_and] using ⟨h, ArgumentCase.comma⟩
  refine (hlist _).mono fun members _ hmembers => .mark (c := '>') fun _ => ?_
  refine ⟨colons, lifetimesFirst members, fun tree htree => ?_, by simp⟩
  rcases mem_lifetimesFirst htree with rfl | htree
  · exact .comma
  · exact hmembers tree htree

theorem isPathName_of_isName {text : String} (h : isName text = true ∨ text = "Self") :
    isPathName text = true := by
  rcases h with h | rfl
  · simp [isPathName, h]
  · decide

/-- A name that takes arguments, with some or without. -/
theorem yields_named {text : String} {line : Nat} (hrules : TypesHave (language.read depth) P)
    (h : isName text = true ∨ text = "Self") :
    Yields (language.read depth) (.given (atArguments false) typeArguments) ts fun later _ =>
      SegmentCase P (.node .segment ([.leaf (.ident text line)] ++ later)) := by
  refine .given (fun _ => (yields_typeArguments hrules).mono ?_) fun _ => ?_
  · rintro _ _ ⟨colons, members, hmembers, rfl⟩
    exact .generic h hmembers
  · exact .plain (.inl (isPathName_of_isName h))

/-- A name of a path stands at the front. -/
theorem yields_segment (hrules : TypesHave (language.read depth) P) :
    Yields (language.read depth) (segment false) ts fun trees _ => ∃ text line children later,
      ts = .ident text line :: later ∧
        trees = [.node .segment (.leaf (.ident text line) :: children)] ∧
        SegmentCase P (.node .segment (.leaf (.ident text line) :: children)) := by
  have hnamed {text : String} {line : Nat} {later rest : List Token}
      (hts : ts = .ident text line :: later) (h : isName text = true ∨ text = "Self") :
      Yields (language.read depth) (.given (atArguments false) typeArguments) rest fun trees _ =>
        ∃ word place children later, ts = .ident word place :: later ∧
          [.node .segment ([.leaf (.ident text line)] ++ trees)] =
            [ParseTree.node .segment (.leaf (.ident word place) :: children)] ∧
          SegmentCase P (.node .segment (.leaf (.ident word place) :: children)) :=
    (yields_named hrules h).mono fun trees _ htrees => ⟨text, line, trees, later, hts, rfl, htrees⟩
  refine .labelled (.either (fun hlook => .anyName fun text line rest hts => ?_) fun _ => .append
    (.either (fun hlook => .anyName fun text line rest hts => ?_) fun _ =>
      .name fun text line rest hts hname => ?_))
  · have hword : text ∈ ["super", "self", "crate", "try"] := by simpa [hts, atAnyWord] using hlook
    have hwords : ∀ text ∈ ["super", "self", "crate", "try"],
        isPathName text = true ∨ text = "try" := by decide
    exact ⟨text, line, [], rest, hts, rfl, .plain (hwords text hword)⟩
  · exact hnamed hts (.inr (by simpa [hts, atWord] using hlook))
  · exact hnamed hts (.inl hname)

/-- A path that a type begins with. -/
theorem yields_path (hrules : TypesHave (language.read depth) P)
    (hstart : atPathName ts = true ∨ atOp "::" ts = true) :
    Yields (language.read depth) (pathWith false) ts fun trees _ =>
      ∃ children, trees = [.node .path children] ∧ PathCase P children := by
  refine .labelled (.append (.append (yields_optColons fun absolute mid hmid =>
    (yields_segment hrules).mono ?_)))
  rintro _ rest ⟨text, line, children, later, hts, rfl, hsegment⟩
  have hlater : Yields (language.read depth)
      (.repeated (fun tokens => atOp "::" tokens && !third (atGroup .paren) tokens)
        (Language.op "::" ++ segment false)) rest fun trees _ => ∃ later : List Trees,
          (∀ names ∈ later, SegmentCase P (.node .segment names)) ∧
            trees = later.flatMap fun names => colonTrees ++ [.node .segment names] := by
    refine .repeated_flatMap fun ts _ => .append (.colons fun _ => (yields_segment hrules).mono ?_)
    rintro _ _ ⟨_, _, _, _, _, rfl, hnext⟩
    exact ⟨_, hnext, rfl⟩
  refine hlater.mono ?_
  rintro _ _ ⟨later, hlater, rfl⟩
  refine ⟨_, rfl, ?_⟩
  rw [List.append_assoc]
  refine .mk (fun habsolute => ?_) hsegment hlater
  obtain ⟨rfl, hcolons⟩ := hmid habsolute
  have hname := hstart.resolve_right (by simp [hcolons])
  simpa [hts, atPathName, TypeReading.firstName] using hname

/-- What begins with a path, and nothing else before it, is labelled by what follows the path. -/
theorem labelPath_case {trees : Trees}
    (h : trees.head?.any (isWord "for") = false → ∀ children,
      trees.dropWhile (fun tree => !isNode .path tree && !isNode .qualifiedPath tree) =
        [.node .path children] → PathCase P children) :
    ∃ inner, labelPath trees = [inner] ∧ TypeCase P inner := by
  unfold labelPath
  dsimp only
  split
  · next children heq =>
    split
    · exact ⟨_, rfl, .kept (.inl rfl) _⟩
    · next hbound => exact ⟨_, rfl, .path (h (by simpa using hbound) children heq)⟩
  · exact ⟨_, rfl, .call _ _ _⟩
  · exact ⟨_, rfl, .kept (.inr rfl) _⟩

theorem yields_pathType (hrules : TypesHave (language.read depth) P)
    (hstart : startsPathType ts = true) :
    Yields (language.read depth) (.edited (pathType plus) labelPath) ts fun trees _ =>
      ∃ inner, trees = [inner] ∧ TypeCase P inner := by
  have hfirst : Yields (language.read depth) (anyKindOfPath false) ts fun trees _ =>
      ∃ first, trees = [first] ∧
      ((∃ children, first = .node .path children ∧ PathCase P children) ∨
        ∃ children, first = .node .qualifiedPath children) := by
    refine .either (fun _ => .labelled (Yields.any.mono fun children _ _ => ?_)) fun hangle => ?_
    · exact ⟨_, rfl, .inr ⟨children, rfl⟩⟩
    · have hpath : atPathName ts = true ∨ atOp "::" ts = true := by
        simpa [startsPathType, hangle] using hstart
      refine (yields_path hrules hpath).mono ?_
      rintro _ _ ⟨children, rfl, hchildren⟩
      exact ⟨_, rfl, .inl ⟨children, rfl, hchildren⟩⟩
  refine .edited (.bind (hfirst.mono ?_))
  rintro _ rest ⟨first, rfl, hcase⟩
  refine Yields.any.mono fun after _ _ => labelPath_case fun _ children heq => ?_
  rcases hcase with ⟨children', rfl, hpath⟩ | ⟨children', rfl⟩
  · obtain ⟨rfl, _⟩ : children' = children ∧ after = [] := by simpa [isNode] using heq
    exact hpath
  · simp [isNode] at heq

/-! ### Types -/

/-- What `for` binds stands before the type. -/
def BindersStart (rules : Rule → List Token → Match Part) : Prop :=
  ∀ ts parsed, rules .binders ts = .success parsed → parsed.trees.head?.any (isWord "for") = true

theorem yields_boundByFor (hbinders : BindersStart rules) :
    Yields rules (.edited (boundByFor plus) labelBoundByFor) ts fun trees _ =>
      ∃ inner, trees = [inner] ∧ TypeCase P inner := by
  refine .edited (.append (.call fun parsed hparsed => Yields.any.mono fun later _ _ => ?_))
  have hfor : (parsed.trees ++ later).head?.any (isWord "for") = true := by
    have hhead := hbinders ts parsed hparsed
    cases htrees : parsed.trees with
    | nil => simp [htrees] at hhead
    | cons first trees => simpa [htrees] using hhead
  unfold labelBoundByFor
  split
  · exact ⟨_, rfl, .kept (.inr rfl) _⟩
  · exact labelPath_case fun hnone => by rw [hfor] at hnone; cases hnone

/-- A type that is not looked into. -/
theorem yields_kept {p : Language.P} : Yields rules (.labelled .otherType p) ts fun trees _ =>
    ∃ inner, trees = [inner] ∧ TypeCase P inner :=
  .labelled (Yields.any.mono fun _ _ _ => ⟨_, rfl, .kept (.inr rfl) _⟩)

/-- What begins with round brackets is labelled by what they hold. -/
theorem labelParens_case {inside after : Trees}
    (h : ∀ children, inside = [.node .type children] → P (.node .type children)) :
    ∃ inner, labelParens (.group .paren inside :: after) = [inner] ∧ TypeCase P inner := by
  unfold labelParens
  split
  · exact ⟨_, rfl, .unit⟩
  · exact ⟨_, rfl, .kept (.inl rfl) _⟩
  · next children heq =>
    obtain ⟨rfl, _⟩ : inside = [.node .type children] ∧ after = [] := by simpa using heq
    exact ⟨_, rfl, .paren (h children rfl)⟩
  · exact ⟨_, rfl, .kept (.inr rfl) _⟩
  · exact ⟨_, rfl, .kept (.inr rfl) _⟩

/-- Each object type that begins with a lifetime has a property, read as a type of its own. -/
def ObjectsHave (rules : Rule → List Token → Match Part) (P : ParseTree Part → Prop) : Prop :=
  ∀ ts, atLifetime ts = true → Yields rules (.labelled .type lifetimeObject) ts
    fun trees _ => ∃ tree, trees = [tree] ∧ P tree

theorem yields_parenType (hobjects : ObjectsHave rules P) (hrules : TypesHave rules P) :
    Yields rules (parenType plus) ts fun trees _ =>
      ∃ inner, trees = [inner] ∧ TypeCase P inner := by
  have hinside (content : List Token) : Yields rules insideParens content fun trees _ =>
      ∀ children, trees = [.node .type children] → P (.node .type children) := by
    refine .select_cons (fun _ => .empty nofun) fun _ =>
      .select_cons (fun hlifetime => (hobjects content hlifetime).mono ?_) fun _ =>
      .select_cons (fun _ => .labelled (Yields.any.mono fun _ _ _ => by simp)) fun _ =>
      .select_nil (.append (yields_call_type hrules fun type rest htype => ?_))
    · rintro _ _ ⟨tree, rfl, htree⟩ children heq
      obtain rfl : tree = .node .type children := by simpa using heq
      exact htree
    · refine Yields.any.mono fun later _ _ children heq => ?_
      obtain ⟨rfl, _⟩ : type = .node .type children ∧ later = [] := by simpa using heq
      exact htype
  refine .edited (.bind (.enclosed fun content rest _ =>
    (hinside content).mono fun inside _ h => ?_))
  exact Yields.any.mono fun after _ _ => labelParens_case h

theorem yields_referenceType (hrules : TypesHave rules P) :
    Yields rules referenceType ts fun trees _ => ∃ inner, trees = [inner] ∧ TypeCase P inner := by
  have hlifetime (ts : List Token) :
      Yields rules optLifetime ts fun trees _ => ∀ tree ∈ trees, IsReferenceMark tree :=
    .given (fun _ => .lifetime fun name _ _ => by simp [IsReferenceMark]) fun _ => nofun
  have hmut (ts : List Token) :
      Yields rules (optWord "mut") ts fun trees _ => ∀ tree ∈ trees, IsReferenceMark tree :=
    .given (fun _ => .word fun line _ _ => by simp [IsReferenceMark]) fun _ => nofun
  refine .labelled (.append (.append (.append (.mark (c := '&') fun _ => (hlifetime _).mono
    fun lifetimes _ hlifetimes => (hmut _).mono fun muts _ hmuts =>
      yields_call_type hrules fun target _ htarget => ?_))))
  have hmarks : ∀ tree ∈ lifetimes ++ muts, IsReferenceMark tree := by
    simpa [or_imp, forall_and] using ⟨hlifetimes, hmuts⟩
  exact ⟨_, rfl, by simpa using TypeCase.reference hmarks htarget⟩

theorem yields_sliceType (hrules : TypesHave rules P) :
    Yields rules sliceType ts fun trees _ => ∃ inner, trees = [inner] ∧ TypeCase P inner := by
  refine .labelled (.enclosed fun content rest _ => .append (yields_call_type hrules
    fun element _ helement => Yields.any.mono fun more _ _ => ?_))
  exact ⟨_, rfl, .slice helement more⟩

/-- The rule of types gives one of the cases. -/
theorem yields_type (hobjects : ObjectsHave (language.read depth) P)
    (hrules : TypesHave (language.read depth) P) (hbinders : BindersStart (language.read depth)) :
    Yields (language.read depth) (Language.type plus) ts fun trees _ =>
      ∃ inner, trees = [.node .type [inner]] ∧ TypeCase P inner := by
  suffices hall : Yields (language.read depth) (Language.type plus) ts fun trees _ =>
      ∃ inners, trees = [.node .type inners] ∧ ∃ inner, inners = [inner] ∧ TypeCase P inner from
    hall.mono fun _ _ ⟨_, htree, inner, hinners, hcase⟩ => ⟨inner, hinners ▸ htree, hcase⟩
  refine .labelled (Yields.mono ?_ fun trees _ h => ⟨trees, rfl, h⟩)
  -- one line for each choice of the rule, in its order
  exact
    .select_cons (fun _ => yields_boundByFor hbinders) fun _ =>
    .select_cons (fun _ => yields_parenType hobjects hrules) fun _ =>
    .select_cons (fun _ => yields_kept) fun _ =>
    .select_cons (fun hstart => yields_pathType hrules hstart) fun _ =>
    .select_cons (fun _ => yields_kept) fun _ =>
    .select_cons (fun _ => yields_sliceType hrules) fun _ =>
    .select_cons (fun _ => yields_kept) fun _ =>
    .select_cons (fun _ => yields_referenceType hrules) fun _ =>
    .select_cons (fun _ => yields_kept) fun _ =>
    .select_cons (fun _ => yields_kept) fun _ =>
    .select_cons (fun _ => .labelled (.word fun line _ _ => ⟨_, rfl, .infer line⟩)) fun _ =>
    .select_cons (fun _ => yields_kept) fun _ => .select_nil .noneOf

end Cases

/-- At a lifetime the rule of types reads an object type. -/
theorem run_type_of_lifetime {rules : Rule → List Token → Match Part} {ts : List Token}
    (h : atLifetime ts = true) (plus : Bool) :
    (Language.type plus).run rules ts =
      (Production.labelled Part.type lifetimeObject).run rules ts := by
  match ts, h with
  | .lifetime name :: rest, _ =>
    simp [Language.type, select, Production.either, Production.labelled, Production.run, atWord,
      atGroup, atPointer, atAnyWord, startsPathType, atPathName, atOp, takeOperator, atLifetime]

theorem bindersStart_read (depth : Nat) : BindersStart (language.read depth) := by
  intro ts parsed hparsed
  cases depth with
  | zero => cases hparsed
  | succ depth =>
    have hbinders : Yields (language.read depth) Language.binders ts
        fun trees _ => trees.head?.any (isWord "for") = true := by
      refine .append (.append (.append (.word fun line _ _ => .mark (c := '<') fun _ => ?_)))
      refine Yields.any.mono fun _ _ _ => Yields.any.mono fun _ _ _ => ?_
      simp [isWord]
    exact hbinders parsed hparsed

/-- What holds of a type whenever it holds of the types inside it holds of every type. The induction
is on how deeply the rules are nested. -/
theorem IsType.induction {P : ParseTree Part → Prop}
    (step : ∀ inner, IsType (.node .type [inner]) → TypeCase P inner → P (.node .type [inner]))
    {tree : ParseTree Part} (h : IsType tree) : P tree := by
  have hread : ∀ depth, TypesHave (language.read depth) P := by
    intro depth
    induction depth with
    | zero => nofun
    | succ depth ih =>
      have hobjects : ObjectsHave (language.read depth) P := by
        intro ts hts parsed hparsed
        have hkept : Yields (language.read depth) (.labelled .type lifetimeObject) ts fun trees _ =>
            ∃ children, trees = [.node .type [.node .otherType children]] :=
          .labelled (.labelled (Yields.any.mono fun children _ _ => ⟨children, rfl⟩))
        obtain ⟨children, htree⟩ := hkept parsed hparsed
        refine ⟨_, htree, step _ ⟨depth + 1, true, ts, parsed, ?_, htree⟩ (.kept (.inr rfl) _)⟩
        exact (run_type_of_lifetime hts true).trans hparsed
      intro plus ts parsed hparsed
      obtain ⟨inner, htree, hcase⟩ :=
        yields_type hobjects ih (bindersStart_read depth) parsed hparsed
      exact ⟨_, htree, step inner ⟨depth + 1, plus, ts, parsed, hparsed, htree⟩ hcase⟩
  obtain ⟨depth, plus, ts, parsed, hparsed, htree⟩ := h
  obtain ⟨tree', htree', hP⟩ := hread depth plus ts parsed hparsed
  obtain rfl : tree' = tree := by simpa [htree'] using htree
  exact hP

/-- What is read from all the tokens of a type is a type. -/
theorem isType_of_parseText {plus : Bool} {tokens : Option (List Token)} {tree : ParseTree Part}
    (h : parseText (.type plus) tokens = some [tree]) : IsType tree := by
  obtain ⟨ts, -, hparse⟩ := Option.bind_eq_some_iff.mp h
  cases hread : language.read (Grammar.depthFor ts) (.type plus) ts with
  | exhausted | failure => simp [Grammar.parse, hread, Except.toOption] at hparse
  | success parsed =>
    refine ⟨_, plus, ts, parsed, hread, ?_⟩
    rw [Grammar.parse, hread] at hparse
    dsimp only at hparse
    split at hparse
    · cases hparse
    · cases hparse
    · simpa [Except.toOption] using hparse

/-- The only tree of a text, if there is one and a test holds of it. -/
def testType (text : String) (test : ParseTree Part → Bool) : Bool :=
  (parseText (.type true) (lex text)).any fun trees =>
    match trees with
    | [tree] => test tree
    | _ => false

theorem exists_of_testType {text : String} {test : ParseTree Part → Bool}
    (h : testType text test = true) :
    ∃ tree, parseText (.type true) (lex text) = some [tree] ∧ IsType tree ∧ test tree = true := by
  obtain ⟨trees, htrees, htest⟩ := (Option.any_eq_true _ _).mp h
  match trees with
  | [] | _ :: _ :: _ => cases htest
  | [tree] => exact ⟨tree, htrees, isType_of_parseText htrees, htest⟩

end DaoGen.Code
