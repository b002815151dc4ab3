import DaoGen.Declaration.WrittenType
import DaoGen.Proofs.Code.TypeReading
import DaoGen.Proofs.Failure

/-!
# Types that are not known yet

A declaration waits for a type if it sees a token in it that may stand for something that is not
known yet. It does not see all of a type. A path that it describes shows its arguments but those
that are constants or are bound to associated types, a borrowed reference shows its target, and a
type of a shape without description shows all its tokens.

That is neither every inferred type and every call of a macro nor nothing else: an anonymous
lifetime is such a token, and a binding of an associated type hides what it binds.

## Main definitions

* `TypeRef.showsOpen`: whether such a token is seen in the tree of a type.

## Main results

* `TypeRef.refused_iff_showsOpen`: a type is refused if and only if such a token is seen in it.
-/
namespace DaoGen.TypeRef

open Code Language TypeReading

/-! ## What is seen of a type -/

/-- Whether a path is described by its names and the arguments of the last one: no other name has
arguments, and none of them is a lifetime. -/
def describesPath (children : Trees) : Bool :=
  (segmentsOf children).dropLast.all (fun segment => segment.2.isNone) &&
    (segmentsOf children).getLast?.any fun segment => !segment.2.any fun args => args.2

/-- Whether tokens have one that may stand for something that is not known yet. -/
def hasOpen (trees : Trees) : Bool := anyLeafOf isOpenToken (tokensOf trees)

mutual

/-- Whether a token that may stand for something that is not known yet is seen in a tree. -/
def showsOpen : ParseTree Part → Bool
  | .leaf token => token.anyLeaf isOpenToken
  | .group _ children => anyShowsOpen children
  | .node .path children =>
    if describesPath children then anyShowsOpen children else hasOpen children
  | .node .referenceType children =>
    if isBorrow (tokensOf children) then hasOpen children.getLast?.toList else anyShowsOpen children
  | .node .sliceType [.group .bracket [element]] => showsOpen element
  | .node .sliceType children => hasOpen children
  | .node .boundType children => hasOpen children
  | .node .otherType children => hasOpen children
  | .node .lifetimeArgument _ => false
  | .node .constArgument _ => false
  | .node .typeArgument [inner] => showsOpen inner
  | .node .typeArgument _ => false
  | .node _ children => anyShowsOpen children

def anyShowsOpen : Trees → Bool
  | [] => false
  | tree :: rest => showsOpen tree || anyShowsOpen rest

end

theorem anyShowsOpen_eq_any (trees : Trees) : anyShowsOpen trees = trees.any showsOpen := by
  induction trees with
  | nil => rfl
  | cons tree trees ih => rw [anyShowsOpen, List.any_cons, ih]

attribute [grind =] showsOpen anyShowsOpen ofSyntax ofArguments ofArgument

/-! ## Refused types -/

/-- Whether a written type is refused. -/
def refuses (syn : TypeSyntax) : Bool := (ofSyntax syn).error?.isSome

/-- Whether one of some arguments is refused. -/
def refusesArgs (args : List ArgumentSyntax) : Bool := (ofArguments args).error?.isSome

theorem refuses_iff {syn : TypeSyntax} :
    refuses syn = true ↔ ∃ text, ofSyntax syn = .error text := by
  cases h : ofSyntax syn <;> simp [refuses, h, Except.error?]

theorem refuses_named (absolute : Bool) (names : List String) (args : List ArgumentSyntax) :
    refuses (.named absolute names args) = refusesArgs args := by
  cases h : ofArguments args <;> simp [refuses, refusesArgs, ofSyntax, h, Except.error?]

theorem refuses_shared (target : TypeSyntax) : refuses (.shared target) = refuses target := by
  cases h : ofSyntax target <;> simp [refuses, ofSyntax, h, Except.error?]

theorem refuses_slice (element : TypeSyntax) : refuses (.slice element) = refuses element := by
  cases h : ofSyntax element <;> simp [refuses, ofSyntax, h, Except.error?]

theorem refuses_paren (inner : TypeSyntax) : refuses (.paren inner) = refuses inner := by
  simp [refuses, ofSyntax]

theorem refuses_borrowed (tokens target : List Token) :
    refuses (.borrowed tokens target) = anyLeafOf isOpenToken target := by
  cases h : anyLeafOf isOpenToken target <;> simp [refuses, ofSyntax, checkKnown, h, Except.error?]

theorem refuses_verbatim (tokens : List Token) :
    refuses (.verbatim tokens) = anyLeafOf isOpenToken tokens := by
  cases h : anyLeafOf isOpenToken tokens <;> simp [refuses, ofSyntax, checkKnown, h, Except.error?]

theorem refusesArgs_type (t : TypeSyntax) (rest : List ArgumentSyntax) :
    refusesArgs (.type t :: rest) = (refuses t || refusesArgs rest) := by
  rw [refuses, refusesArgs, refusesArgs, ofArguments, ofArgument]
  cases ofSyntax t <;> cases ofArguments rest <;> rfl

/-- An argument that is no type is never refused. -/
theorem refusesArgs_other (tokens : List Token) (rest : List ArgumentSyntax) :
    refusesArgs (.other tokens :: rest) = refusesArgs rest := by
  cases h : ofArguments rest <;> simp [refusesArgs, ofArguments, ofArgument, h, Except.error?]

/-! ## Paths -/

/-- A tree stands for a type that is refused just if something open is seen in the tree. -/
def RefusedAsShown (tree : ParseTree Part) : Prop :=
  ∃ syn, TypeReading.ofTree tree = .type syn ∧ refuses syn = showsOpen tree

theorem refusesArgs_argumentsOf {members : Trees}
    (hmembers : ∀ tree ∈ members, ArgumentCase RefusedAsShown tree) :
    refusesArgs (argumentsOf members) = members.any showsOpen := by
  induction members with
  | nil => rfl
  | cons member members ih =>
    obtain ⟨hmember, hmembers⟩ := List.forall_mem_cons.mp hmembers
    rw [List.any_cons, ← ih hmembers]
    cases hmember with
    | comma | lifetime name =>
      rw [argumentsOf_cons_none rfl]
      rfl
    | const _ =>
      rw [argumentsOf_cons_some rfl, refusesArgs_other, showsOpen, Bool.false_or]
    | associated _ =>
      rw [argumentsOf_cons_some (argument?_associated _ _ _), refusesArgs_other]
      simp [showsOpen]
    | type htype =>
      obtain ⟨syn, hsyn, hshown⟩ := htype
      rw [argumentsOf_cons_some (argument?_type hsyn), refusesArgs_type, hshown, showsOpen]

/-- Whether an argument of a name is refused. -/
def segmentRefuses (segment : String × Option (List ArgumentSyntax × Bool)) : Bool :=
  segment.2.any fun args => refusesArgs args.1

/-- A name of a path is not open. -/
theorem isOpenToken_word {text : String} (h : isPathName text = true ∨ text = "try") (line : Nat) :
    (Token.ident text line).anyLeaf isOpenToken = false := by
  have hopen : ¬ (isPathName "_" = true ∨ "_" = "try") := by decide
  have hne : text ≠ "_" := by
    rintro rfl
    exact hopen h
  simp [Token.anyLeaf, isOpenToken, hne]

/-- What is seen of a name of a path is what is seen of its arguments. -/
theorem segmentRefuses_of_case {tree : ParseTree Part} (h : SegmentCase RefusedAsShown tree) :
    ∃ segment, ofTree tree = .segment segment.1 segment.2 ∧
      showsOpen tree = segmentRefuses segment := by
  cases h with
  | @plain text line h =>
    refine ⟨(text, none), ofTree_plain text line, ?_⟩
    simp [showsOpen, anyShowsOpen, isOpenToken_word h, segmentRefuses]
  | @generic text line colons members h hmembers =>
    refine ⟨(text, some _), ofTree_generic (ofTree_arguments colons members) text line, ?_⟩
    have hmark : ∀ tree ∈ optColons colons, showsOpen tree = false := by cases colons <;> decide
    have hcolons : (optColons colons).any showsOpen = false :=
      List.any_eq_false.mpr (by simpa using hmark)
    have hopening : (Token.punct '<').anyLeaf isOpenToken = false := by decide
    have hclosing : (Token.punct '>').anyLeaf isOpenToken = false := by decide
    have hword := isOpenToken_word (.inl (isPathName_of_isName h)) line
    simp [showsOpen, anyShowsOpen, anyShowsOpen_eq_any, hword, segmentRefuses,
      refusesArgs_argumentsOf hmembers, hcolons, hopening, hclosing]

/-- What is seen of a path is what is seen of its names. -/
theorem any_segmentRefuses {children : Trees} (h : PathCase RefusedAsShown children) :
    (segmentsOf children).any segmentRefuses = anyShowsOpen children := by
  have hall : ∀ tree ∈ children, tree ∈ colonTrees ∨ SegmentCase RefusedAsShown tree :=
    fun tree htree => h.mem htree
  clear h
  rw [anyShowsOpen_eq_any]
  induction children with
  | nil => rfl
  | cons tree children ih =>
    obtain ⟨htree, hall⟩ := List.forall_mem_cons.mp hall
    rw [List.any_cons, ← ih hall]
    rcases htree with hcolon | hcase
    · have hnone : ∀ tree ∈ colonTrees, segment? (ofTree tree) = none ∧ showsOpen tree = false := by
        simp [colonTrees, ofTree, segment?, showsOpen, Token.anyLeaf, isOpenToken]
      obtain ⟨hskip, hclosed⟩ := hnone tree hcolon
      simp [segmentsOf, hskip, hclosed]
    · obtain ⟨segment, hsegment, hshown⟩ := segmentRefuses_of_case hcase
      simp [segmentsOf, hsegment, segment?, hshown]

theorem ofPath_of_describesPath {children : Trees} (h : describesPath children = true) :
    ∃ absolute names args, ofPath (tokensOf children) (startsWithColon (tokensOf children))
      (segmentsOf children) = .named absolute names args := by
  rw [describesPath] at h
  generalize segmentsOf children = segments at h ⊢
  rcases List.eq_nil_or_concat segments with rfl | ⟨front, ⟨name, args⟩, rfl⟩
  · cases h
  obtain ⟨hfront, hlast⟩ : (∀ s ∈ front, s.2 = none) ∧ (args.any fun args => args.2) = false := by
    simpa [List.concat_eq_append] using h
  have hearlier : front.reverse.any (·.2.isSome) = false :=
    List.any_eq_false.mpr fun s hs => by simp [hfront s (List.mem_reverse.mp hs)]
  rw [ofPath, List.concat_eq_append, List.reverse_append, List.reverse_singleton,
    List.singleton_append]
  rcases args with _ | ⟨args, hasLifetime⟩
  · simp only [hearlier]
    exact ⟨_, _, _, rfl⟩
  · obtain rfl : hasLifetime = false := hlast
    simp only [hearlier]
    exact ⟨_, _, _, rfl⟩

/-- A path is refused for its arguments if it is described, and for any of its tokens if not. -/
theorem refuses_path {children : Trees} (h : PathCase RefusedAsShown children) :
    refuses (ofPath (tokensOf children) (startsWithColon (tokensOf children))
      (segmentsOf children)) = showsOpen (.node .path children) := by
  rw [showsOpen]
  obtain hkept | ⟨front, last, args, hsegments, hfront, hlast, hnamed⟩ :=
    ofPath_cases (tokensOf children) (startsWithColon (tokensOf children)) (segmentsOf children)
  · have hdescribes : describesPath children = false := by
      refine Bool.eq_false_iff.mpr fun hdescribes => ?_
      obtain ⟨absolute, names, args, hnamed⟩ := ofPath_of_describesPath hdescribes
      rw [hkept] at hnamed
      cases hnamed
    rw [hkept, refuses_verbatim, hdescribes]
    rfl
  · have hdescribes : describesPath children = true := by
      rcases hlast with ⟨hlast, -⟩ | hlast <;> simpa [describesPath, hsegments, hlast] using hfront
    have hnone : front.any segmentRefuses = false :=
      List.any_eq_false.mpr fun s hs => by simp [segmentRefuses, hfront s hs]
    have hargs : segmentRefuses last = refusesArgs args := by
      rcases hlast with ⟨hlast, rfl⟩ | hlast
      · rw [segmentRefuses, hlast]
        rfl
      · rw [segmentRefuses, hlast]
        rfl
    rw [hnamed, refuses_named, hdescribes, if_pos rfl, ← any_segmentRefuses h, hsegments]
    simp [hnone, hargs]

/-! ## Types -/

theorem refusedAsShown_of_isType {tree : ParseTree Part} (h : IsType tree) :
    RefusedAsShown tree := by
  refine h.induction fun inner _ hinner => ?_
  suffices hsuff : RefusedAsShown inner by
    obtain ⟨syn, hsyn, hshown⟩ := hsuff
    exact ⟨syn, ofTree_type hsyn, by simp [hshown, showsOpen, anyShowsOpen]⟩
  cases hinner with
  | @path children hpath =>
    exact ⟨_, ofTree_path children, by simp [refuses_path hpath, showsOpen, anyShowsOpen]⟩
  | @reference marks target hmarks htarget =>
    obtain ⟨syn, hsyn, hshown⟩ := htarget
    refine ⟨_, ofTree_reference hmarks hsyn, ?_⟩
    have htokens : tokensOf (.leaf (.punct '&') :: (marks ++ [target])) =
        .punct '&' :: (tokensOf marks ++ target.tokens) := by simp
    have hlast : (ParseTree.leaf (.punct '&') :: (marks ++ [target])).getLast? = some target := by
      rw [← List.cons_append, List.getLast?_concat]
    rw [showsOpen, htokens, hlast]
    split
    · rw [refuses_borrowed]
      simp [hasOpen]
    · next hborrow =>
      have hempty := eq_nil_of_isBorrow hmarks (by simpa using hborrow)
      rw [refuses_shared, hshown, hempty]
      simp [anyShowsOpen, showsOpen, Token.anyLeaf, isOpenToken]
  | @slice element helement more =>
    obtain ⟨syn, hsyn, hshown⟩ := helement
    refine ⟨_, ofTree_slice hsyn more, ?_⟩
    cases more with
    | nil => exact (refuses_slice syn).trans (by simp [hshown, showsOpen])
    | cons next more => exact (refuses_verbatim _).trans (by simp [showsOpen, hasOpen])
  | unit => exact ⟨.unit, rfl, rfl⟩
  | @paren inner hinner =>
    obtain ⟨syn, hsyn, hshown⟩ := hinner
    exact ⟨_, ofTree_paren hsyn, by simp [refuses_paren, hshown, showsOpen, anyShowsOpen]⟩
  | infer line => exact ⟨.infer, rfl, rfl⟩
  | call path joint rest =>
    refine ⟨_, rfl, ?_⟩
    simp [refuses, ofSyntax, Except.error?, showsOpen, anyShowsOpen, Token.anyLeaf, isOpenToken]
  | kept h children =>
    refine ⟨_, ofTree_kept h children, ?_⟩
    rcases h with rfl | rfl <;> rw [refuses_verbatim, showsOpen, hasOpen]

/-- A type is refused if and only if a token that may stand for something that is not known yet is
seen in it. -/
theorem refused_iff_showsOpen {tree : ParseTree Part} (h : IsType tree) :
    (∃ text, ofSyntax (.ofTree tree) = .error text) ↔ showsOpen tree = true := by
  obtain ⟨syn, hsyn, hshown⟩ := refusedAsShown_of_isType h
  have hof : TypeSyntax.ofTree tree = syn := by rw [TypeSyntax.ofTree, hsyn]; rfl
  rw [hof, ← hshown, refuses_iff]

end DaoGen.TypeRef
