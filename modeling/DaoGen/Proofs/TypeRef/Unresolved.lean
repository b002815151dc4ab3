import DaoGen.Proofs.TypeRef.Known

/-!
# Types with an unresolved part

An inferred type and the call of a macro are unresolved. A type should be refused just if such a
part stands in it, and it is unless one of two things stands in it: a token that looks unresolved
and is not, like the anonymous lifetime, or an unresolved part in an argument that is not looked
into.

## Main definitions

* `TypeRef.isUnresolved`: whether an inferred type or the call of a macro stands in a tree.
* `TypeRef.hasStray`: whether a token only looks unresolved.
* `TypeRef.hidesUnresolved`: whether a constant or a binding of an associated type is unresolved.

## Main results

* `TypeRef.refused_iff`: which types are refused.
-/
namespace DaoGen.TypeRef

open Code Language TypeReading

/-- Whether a tree is an inferred type. -/
def isInferred : ParseTree Part → Bool
  | .node .inferType [.leaf (.ident text _)] => text == "_"
  | _ => false

/-- Whether trees begin with the call of a macro after its name. -/
def startsCall : Trees → Bool
  | .leaf (.punct '!' _) :: .leaf (.group _ _) :: _ => true
  | _ => false

mutual

/-- Whether an inferred type or the call of a macro stands somewhere in a tree. -/
def isUnresolved : ParseTree Part → Bool
  | .leaf _ => false
  | .group _ children => anyUnresolved children
  | .node part children => isInferred (.node part children) || anyUnresolved children

def anyUnresolved : Trees → Bool
  | [] => false
  | tree :: rest => startsCall (tree :: rest) || isUnresolved tree || anyUnresolved rest

end

mutual

/-- Whether an open token stands in a tree that is part of no inferred type and of no call of a
macro. -/
def hasStray : ParseTree Part → Bool
  | .leaf token => token.anyLeaf isOpenToken
  | .group _ children => anyStray children
  | .node part children => !isInferred (.node part children) && anyStray children

def anyStray : Trees → Bool
  | [] => false
  | .leaf (.punct '!' _) :: .leaf (.group _ _) :: rest => anyStray rest
  | tree :: rest => hasStray tree || anyStray rest

end

mutual

/-- Whether something unresolved stands in an argument that is a constant or is bound to an
associated type. -/
def hidesUnresolved : ParseTree Part → Bool
  | .leaf _ => false
  | .group _ children => anyHides children
  | .node .constArgument children => anyUnresolved children
  | .node .typeArgument (first :: next :: more) => anyUnresolved (first :: next :: more)
  | .node _ children => anyHides children

def anyHides : Trees → Bool
  | [] => false
  | tree :: rest => hidesUnresolved tree || anyHides rest

end

/-! ## All tokens -/

theorem hasOpen_cons (tree : ParseTree Part) (rest : Trees) :
    hasOpen (tree :: rest) = (anyLeafOf isOpenToken tree.tokens || hasOpen rest) := by
  rw [hasOpen, tokensOf_cons, anyLeafOf_append]
  rfl

theorem hasOpen_leaf (token : Token) (rest : Trees) :
    hasOpen (.leaf token :: rest) = (token.anyLeaf isOpenToken || hasOpen rest) := by
  rw [hasOpen_cons]
  simp [anyLeafOf]

theorem anyStray_cons {tree : ParseTree Part} {rest : Trees}
    (h : startsCall (tree :: rest) = false) :
    anyStray (tree :: rest) = (hasStray tree || anyStray rest) := by
  rw [anyStray.eq_3]
  rintro joint d content later rfl rfl
  cases h

/-- The call of a macro has an open token. -/
theorem hasOpen_of_startsCall {trees : Trees} (h : startsCall trees = true) :
    hasOpen trees = true := by
  unfold startsCall at h
  split at h
  · simp [hasOpen, anyLeafOf, Token.anyLeaf, isOpenToken]
  · cases h

/-- An inferred type has an open token. -/
theorem hasOpen_of_isInferred {part : Part} {children : Trees}
    (h : isInferred (.node part children) = true) : hasOpen children = true := by
  unfold isInferred at h
  split at h
  · next heq =>
    cases heq
    simpa [hasOpen, anyLeafOf, Token.anyLeaf, isOpenToken] using h
  · cases h

mutual

/-- Without strays, the open tokens of a tree are those of what is unresolved in it. -/
theorem anyLeafOf_tokens_eq_isUnresolved (tree : ParseTree Part) (h : hasStray tree = false) :
    anyLeafOf isOpenToken tree.tokens = isUnresolved tree := by
  match tree with
  | .leaf token =>
    rw [hasStray] at h
    simp [anyLeafOf, isUnresolved, h]
  | .group d children =>
    rw [hasStray] at h
    rw [isUnresolved, ← hasOpen_eq_anyUnresolved children h]
    simp [anyLeafOf, Token.anyLeaf, hasOpen]
  | .node part children =>
    rw [hasStray] at h
    rw [isUnresolved, ParseTree.tokens_node, ← hasOpen]
    cases hinferred : isInferred (.node part children) with
    | false => exact hasOpen_eq_anyUnresolved children (by simpa [hinferred] using h)
    | true => exact hasOpen_of_isInferred hinferred

theorem hasOpen_eq_anyUnresolved (trees : Trees) (h : anyStray trees = false) :
    hasOpen trees = anyUnresolved trees := by
  match trees with
  | [] => rfl
  | tree :: rest =>
    rw [anyUnresolved]
    cases hcall : startsCall (tree :: rest) with
    | true => exact hasOpen_of_startsCall hcall
    | false =>
      rw [anyStray_cons hcall, Bool.or_eq_false_iff] at h
      rw [hasOpen_cons, anyLeafOf_tokens_eq_isUnresolved tree h.1,
        hasOpen_eq_anyUnresolved rest h.2]
      rfl

end

/-! ## What is seen -/

/-- If a tree has no strays and hides nothing, what is seen to be open in it is what is
unresolved. -/
def ShowsUnresolved (tree : ParseTree Part) : Prop :=
  hasStray tree = false → hidesUnresolved tree = false → showsOpen tree = isUnresolved tree

theorem showsUnresolved_leaf (token : Token) : ShowsUnresolved (.leaf token) := by
  intro hstray _
  rw [hasStray] at hstray
  rw [showsOpen, hstray, isUnresolved]

theorem anyShowsOpen_eq_anyUnresolved {trees : Trees} (h : ∀ tree ∈ trees, ShowsUnresolved tree)
    (hstray : anyStray trees = false) (hhides : anyHides trees = false) :
    anyShowsOpen trees = anyUnresolved trees := by
  induction trees with
  | nil => rfl
  | cons tree trees ih =>
    obtain ⟨htree, htrees⟩ := List.forall_mem_cons.mp h
    rw [anyHides, Bool.or_eq_false_iff] at hhides
    rw [anyShowsOpen, anyUnresolved]
    cases hcall : startsCall (tree :: trees) with
    | true =>
      have hmark : showsOpen tree = true := by
        unfold startsCall at hcall
        split at hcall
        · next heq =>
          cases heq
          rfl
        · cases hcall
      rw [hmark]
      rfl
    | false =>
      rw [anyStray_cons hcall, Bool.or_eq_false_iff] at hstray
      rw [htree hstray.1 hhides.1, ih htrees hstray.2 hhides.2]
      rfl

theorem showsUnresolved_group {d : Delimiter} {children : Trees}
    (h : ∀ tree ∈ children, ShowsUnresolved tree) : ShowsUnresolved (.group d children) := by
  intro hstray hhides
  rw [hasStray] at hstray
  rw [hidesUnresolved] at hhides
  rw [showsOpen, isUnresolved, anyShowsOpen_eq_anyUnresolved h hstray hhides]

/-- A part that shows and hides what its children do. -/
theorem showsUnresolved_node {part : Part} {children : Trees}
    (h : ∀ tree ∈ children, ShowsUnresolved tree)
    (hshows : showsOpen (.node part children) = anyShowsOpen children)
    (hhidden : hidesUnresolved (.node part children) = anyHides children)
    (hpart : isInferred (.node part children) = false) : ShowsUnresolved (.node part children) := by
  intro hstray hhides
  rw [hasStray, hpart, Bool.not_false, Bool.true_and] at hstray
  rw [hhidden] at hhides
  rw [hshows, isUnresolved, hpart, Bool.false_or, anyShowsOpen_eq_anyUnresolved h hstray hhides]

/-- A part that shows all its tokens. -/
theorem showsUnresolved_kept {part : Part} {children : Trees}
    (hshows : showsOpen (.node part children) = hasOpen children)
    (hpart : isInferred (.node part children) = false) : ShowsUnresolved (.node part children) := by
  intro hstray _
  rw [hasStray, hpart, Bool.not_false, Bool.true_and] at hstray
  rw [hshows, isUnresolved, hpart, Bool.false_or, hasOpen_eq_anyUnresolved children hstray]

theorem showsUnresolved_argument {tree : ParseTree Part} (h : ArgumentCase ShowsUnresolved tree) :
    ShowsUnresolved tree := by
  cases h with
  | comma => exact showsUnresolved_leaf _
  | lifetime name => exact fun _ _ => rfl
  | const _ =>
    intro _ hhides
    rw [hidesUnresolved] at hhides
    rw [showsOpen, isUnresolved, hhides]
    rfl
  | associated _ =>
    intro _ hhides
    rw [hidesUnresolved] at hhides
    rw [showsOpen, isUnresolved, hhides]
    · rfl
    · simp
  | @type type htype =>
    refine showsUnresolved_node (by simpa using htype) ?_ rfl rfl
    simp [showsOpen, anyShowsOpen]

theorem showsUnresolved_segment {tree : ParseTree Part} (h : SegmentCase ShowsUnresolved tree) :
    ShowsUnresolved tree := by
  cases h with
  | plain h =>
    refine showsUnresolved_node ?_ rfl rfl rfl
    simpa using showsUnresolved_leaf _
  | @generic text line colons members h hmembers =>
    have hcolons : ∀ tree ∈ optColons colons, ShowsUnresolved tree := by
      cases colons <;> simp [optColons, colonTrees, showsUnresolved_leaf]
    have hmembers : ∀ tree ∈ members, ShowsUnresolved tree :=
      fun tree htree => showsUnresolved_argument (hmembers tree htree)
    have harguments : ShowsUnresolved (.node .arguments
        (optColons colons ++ (.leaf (.punct '<') :: (members ++ [.leaf (.punct '>')])))) := by
      refine showsUnresolved_node ?_ rfl rfl rfl
      simpa [or_imp, forall_and, showsUnresolved_leaf] using ⟨hcolons, hmembers⟩
    refine showsUnresolved_node ?_ rfl rfl rfl
    simpa [showsUnresolved_leaf] using harguments

theorem showsUnresolved_path {children : Trees} (h : PathCase ShowsUnresolved children) :
    ShowsUnresolved (.node .path children) := by
  cases hdescribes : describesPath children with
  | true =>
    refine showsUnresolved_node (fun tree htree => ?_) (by rw [showsOpen, if_pos hdescribes]) rfl
      rfl
    rcases h.mem htree with hcolon | hsegment
    · have hleaf : ∃ token, tree = .leaf token := by
        simp only [colonTrees, List.mem_cons, List.not_mem_nil, or_false] at hcolon
        rcases hcolon with rfl | rfl <;> exact ⟨_, rfl⟩
      obtain ⟨token, rfl⟩ := hleaf
      exact showsUnresolved_leaf token
    · exact showsUnresolved_segment hsegment
  | false => exact showsUnresolved_kept (by rw [showsOpen, hdescribes]; rfl) rfl

/-- What is unresolved in a reference is so in its target. -/
theorem any_reference {marks : Trees} (hmarks : ∀ tree ∈ marks, IsReferenceMark tree)
    (target : ParseTree Part) :
    anyUnresolved (marks ++ [target]) = isUnresolved target ∧
      anyStray (marks ++ [target]) = (marks.any hasStray || hasStray target) ∧
      anyHides (marks ++ [target]) = hidesUnresolved target := by
  induction marks with
  | nil =>
    have hcall : startsCall [target] = false := by
      unfold startsCall
      split
      · next heq => cases heq
      · rfl
    simp [anyUnresolved, anyStray_cons hcall, anyHides, hcall, anyStray]
  | cons mark marks ih =>
    obtain ⟨hmark, hmarks⟩ := List.forall_mem_cons.mp hmarks
    obtain ⟨hunresolved, hstray, hhides⟩ := ih hmarks
    have hcall : startsCall (mark :: (marks ++ [target])) = false := by
      obtain ⟨name, rfl⟩ | ⟨line, rfl⟩ := hmark <;> rfl
    have hclosed : isUnresolved mark = false ∧ hidesUnresolved mark = false := by
      obtain ⟨name, rfl⟩ | ⟨line, rfl⟩ := hmark <;> exact ⟨rfl, rfl⟩
    rw [List.cons_append, anyUnresolved, hcall, anyStray_cons hcall, anyHides, hunresolved, hstray,
      hhides, hclosed.1, hclosed.2, List.any_cons]
    exact ⟨rfl, (Bool.or_assoc _ _ _).symm, rfl⟩

theorem showsUnresolved_reference {marks : Trees} {target : ParseTree Part}
    (hmarks : ∀ tree ∈ marks, IsReferenceMark tree) (h : ShowsUnresolved target) :
    ShowsUnresolved (.node .referenceType (.leaf (.punct '&') :: (marks ++ [target]))) := by
  intro hstray hhides
  obtain ⟨hunresolved, hstrays, hhidden⟩ := any_reference hmarks target
  have hcall : startsCall (.leaf (.punct '&') :: (marks ++ [target])) = false := rfl
  have htarget : hasStray target = false := by
    have hchildren : anyStray (.leaf (.punct '&') :: (marks ++ [target])) = false := hstray
    rw [anyStray_cons hcall, hstrays, Bool.or_eq_false_iff, Bool.or_eq_false_iff] at hchildren
    exact hchildren.2.2
  have hmore : hidesUnresolved target = false := by
    have hchildren : anyHides (.leaf (.punct '&') :: (marks ++ [target])) = false := hhides
    rwa [anyHides, hhidden] at hchildren
  have hall : isUnresolved (.node .referenceType (.leaf (.punct '&') :: (marks ++ [target]))) =
      isUnresolved target := by
    rw [isUnresolved, anyUnresolved, hcall, hunresolved]
    rfl
  have hlast : (ParseTree.leaf (.punct '&') :: (marks ++ [target])).getLast? = some target := by
    rw [← List.cons_append, List.getLast?_concat]
  rw [hall, showsOpen, hlast]
  split
  · rw [← anyLeafOf_tokens_eq_isUnresolved target htarget]
    simp [hasOpen]
  · next hborrow =>
    have hborrow : isBorrow (.punct '&' :: (tokensOf marks ++ target.tokens)) = false := by
      simpa using hborrow
    rw [eq_nil_of_isBorrow hmarks hborrow, ← h htarget hmore]
    simp [anyShowsOpen, showsOpen, Token.anyLeaf, isOpenToken]

theorem showsUnresolved_of_isType {tree : ParseTree Part} (h : IsType tree) :
    ShowsUnresolved tree := by
  refine h.induction fun inner _ hinner => ?_
  suffices hsuff : ShowsUnresolved inner from
    showsUnresolved_node (by simpa using hsuff) rfl rfl rfl
  cases hinner with
  | @path children hpath =>
    refine showsUnresolved_node ?_ rfl rfl rfl
    simpa using showsUnresolved_path hpath
  | reference hmarks htarget => exact showsUnresolved_reference hmarks htarget
  | @slice element helement more =>
    cases more with
    | nil =>
      have hgroup : ShowsUnresolved (.group .bracket [element]) :=
        showsUnresolved_group (by simpa using helement)
      refine showsUnresolved_node (by simpa using hgroup) ?_ rfl rfl
      simp [showsOpen, anyShowsOpen]
    | cons next more => exact showsUnresolved_kept (by simp [showsOpen]) rfl
  | unit => exact fun _ _ => rfl
  | @paren inner hinner =>
    have hgroup : ShowsUnresolved (.group .paren [inner]) :=
      showsUnresolved_group (by simpa using hinner)
    exact showsUnresolved_node (by simpa using hgroup) rfl rfl rfl
  | infer line => exact fun _ _ => rfl
  | call path joint rest =>
    intro hstray _
    have hopen : hasOpen (path :: .leaf (.punct '!' joint) :: rest) = true := by
      rw [hasOpen_cons, hasOpen_leaf, Bool.or_eq_true]
      exact .inr rfl
    rw [isUnresolved, ← hasOpen_eq_anyUnresolved _ hstray, hopen, Bool.or_true]
    simp [showsOpen, anyShowsOpen, Token.anyLeaf, isOpenToken]
  | kept h children =>
    rcases h with rfl | rfl <;> exact showsUnresolved_kept rfl rfl

/-- A type is refused if and only if a token that may stand for something that is not known yet is
seen in it. Without strays and hidden parts that is so just if something unresolved stands in it. -/
theorem refused_iff {tree : ParseTree Part} (h : IsType tree) :
    ((∃ text, ofSyntax (.ofTree tree) = .error text) ↔ showsOpen tree = true) ∧
      (hasStray tree = false → hidesUnresolved tree = false →
        ((∃ text, ofSyntax (.ofTree tree) = .error text) ↔ isUnresolved tree = true)) := by
  refine ⟨refused_iff_showsOpen h, fun hstray hhides => ?_⟩
  rw [refused_iff_showsOpen h, showsUnresolved_of_isType h hstray hhides]

/-- A pointer to an inferred type, in a tuple among the arguments of a path, is seen. -/
theorem refused_pair : ∃ tree,
    parseText (.type true) (lex "Option<(&'a u8, *const _)>") = some [tree] ∧ IsType tree ∧
    hasStray tree = false ∧ hidesUnresolved tree = false ∧ isUnresolved tree = true ∧
      ∃ text, ofSyntax (.ofTree tree) = .error text := by
  have htest : testType "Option<(&'a u8, *const _)>" (fun tree =>
      !hasStray tree && !hidesUnresolved tree && isUnresolved tree) = true := by
    decide +kernel
  obtain ⟨tree, htree, htype, htest⟩ := exists_of_testType htest
  obtain ⟨⟨hstray, hhides⟩, hunresolved⟩ :
      (hasStray tree = false ∧ hidesUnresolved tree = false) ∧ isUnresolved tree = true := by
    simpa using htest
  exact ⟨tree, htree, htype, hstray, hhides, hunresolved,
    ((refused_iff htype).2 hstray hhides).mpr hunresolved⟩

/-- A type is refused for an anonymous lifetime, though nothing in it is unresolved, and one with an
inferred type gets through. -/
theorem refused_not_iff_isUnresolved :
    (∃ tree, parseText (.type true) (lex "Cow<'_, str>") = some [tree] ∧ IsType tree ∧
      (∃ text, ofSyntax (.ofTree tree) = .error text) ∧ isUnresolved tree = false) ∧
    ∃ tree, parseText (.type true) (lex "It<Item = _>") = some [tree] ∧ IsType tree ∧
      (∃ t, ofSyntax (.ofTree tree) = .ok t) ∧ isUnresolved tree = true := by
  have hlifetime : testType "Cow<'_, str>"
      (fun tree => refuses (.ofTree tree) && !isUnresolved tree) = true := by decide +kernel
  have hbinding : testType "It<Item = _>"
      (fun tree => (ofSyntax (.ofTree tree)).toOption.isSome && isUnresolved tree) = true := by
    decide +kernel
  obtain ⟨tree, htree, htype, htest⟩ := exists_of_testType hlifetime
  obtain ⟨hrefused, hresolved⟩ := Bool.and_eq_true_iff.mp htest
  obtain ⟨tree', htree', htype', htest'⟩ := exists_of_testType hbinding
  obtain ⟨haccepted, hunresolved⟩ := Bool.and_eq_true_iff.mp htest'
  obtain ⟨t, ht⟩ := Option.isSome_iff_exists.mp haccepted
  exact ⟨⟨tree, htree, htype, refuses_iff.mp hrefused, by simpa using hresolved⟩,
    tree', htree', htype', ⟨t, Except.toOption_eq_some.mp ht⟩, hunresolved⟩

end DaoGen.TypeRef
