import DaoGen.Proofs.Code.Legible
import DaoGen.Proofs.TypeRef.PathText
import DaoGen.Proofs.TypeRef.Plain

/-!
# Types that survive

A type that a declaration has read is written again where its text is needed. Round brackets around
the type are gone then, and so are empty angle brackets and the colons before them. Two types do not
survive this: a shared reference to another one keeps a single mark, and one to a sum of bounds
needs the brackets. Any other type comes back as it was, if the parts of it that are no types are
read again.

## Main definitions

* `ParseTree.bare`: a tree without brackets that do not matter.
* `keepsLayers`: whether no shared reference stands over another one or over a sum.

## Main results

* `TypeRef.survives`: a type is read back from the text of what it stands for, up to such brackets.
-/
namespace DaoGen

open Code Language TypeReading

namespace Code

/-! ## Trees without brackets -/

/-- Whether a tree is that of arguments of which none is left. -/
def isMemberless : ParseTree Part → Bool
  | .node .arguments [] => true
  | _ => false

mutual

/-- A tree without round brackets around types, without angle brackets that hold no arguments, and
without the marks of those that do: the brackets, the colons before them and the commas. -/
def ParseTree.bare : ParseTree Part → ParseTree Part
  | .node .type [.node .parenType [.group .paren [inner]]] => inner.bare
  | .node .arguments children => .node .arguments (bareMembers children)
  | .node part children => .node part (bareTrees children)
  | .group d children => .group d (bareTrees children)
  | .leaf token => .leaf token

def bareTrees : Trees → Trees
  | [] => []
  | tree :: rest =>
    if isMemberless tree.bare then bareTrees rest else tree.bare :: bareTrees rest

/-- The members of a list of arguments. -/
def bareMembers : Trees → Trees
  | [] => []
  | .leaf _ :: rest => bareMembers rest
  | tree :: rest => tree.bare :: bareMembers rest

end

/-- Whether a type is a shared reference, perhaps in round brackets. -/
def isShared : ParseTree Part → Bool
  | .node .type [.node .referenceType [_, _]] => true
  | .node .type [.node .parenType [.group .paren [inner]]] => isShared inner
  | _ => false

mutual

/-- Whether no shared reference that is described stands over another one or over a sum of bounds.
A path is described by its names and the arguments of the last one, if these have no lifetimes. -/
def keepsLayers : ParseTree Part → Bool
  | .node .type [.node .pathType [.node .path children]] => namesKeepLayers children
  | .node .type [.node .referenceType [_, target]] =>
    !isShared target && !isSum target && keepsLayers target
  | .node .type [.node .sliceType [.group .bracket [element]]] => keepsLayers element
  | .node .type [.node .parenType [.group .paren [inner]]] => keepsLayers inner
  | _ => true

def namesKeepLayers : Trees → Bool
  | [.node .segment [_, .node .arguments members]] =>
    members.any isLifetimeTree || membersKeepLayers members
  | .node .segment [_] :: rest => namesKeepLayers rest
  | .leaf _ :: rest => namesKeepLayers rest
  | _ => true

def membersKeepLayers : Trees → Bool
  | [] => true
  | .node .typeArgument [inner] :: rest => keepsLayers inner && membersKeepLayers rest
  | _ :: rest => membersKeepLayers rest

end

/-! ## Laws of bare trees -/

theorem bareTrees_eq (trees : Trees) :
    bareTrees trees = (trees.map ParseTree.bare).filter (!isMemberless ·) := by
  induction trees with
  | nil => rfl
  | cons tree trees ih =>
    rw [bareTrees, List.map_cons, List.filter_cons, ih]
    cases isMemberless tree.bare <;> rfl

theorem bareTrees_append (trees later : Trees) :
    bareTrees (trees ++ later) = bareTrees trees ++ bareTrees later := by
  simp only [bareTrees_eq, List.map_append, List.filter_append]

theorem bareMembers_append (trees later : Trees) :
    bareMembers (trees ++ later) = bareMembers trees ++ bareMembers later := by
  induction trees with
  | nil => rfl
  | cons tree trees ih => cases tree <;> simp [bareMembers, ih]

/-- Every member but a mark is kept. -/
theorem bareMembers_cons {tree : ParseTree Part} (h : isLeaf tree = false) (rest : Trees) :
    bareMembers (tree :: rest) = tree.bare :: bareMembers rest := by
  cases tree with
  | leaf => cases h
  | group | node => rfl

theorem bareMembers_commaList {members : Trees} (h : ∀ tree ∈ members, isLeaf tree = false) :
    bareMembers (commaList members false) = members.map ParseTree.bare := by
  match members, h with
  | [], _ => rfl
  | [tree], h => simp [commaList, bareMembers_cons (h tree (by simp)), bareMembers]
  | tree :: next :: rest, h =>
    obtain ⟨htree, hrest⟩ := List.forall_mem_cons.mp h
    rw [commaList, bareMembers_cons htree, commaTree, bareMembers, bareMembers_commaList hrest]
    rfl

/-- The brackets around arguments are no members. -/
theorem bareMembers_angled (colons : Bool) (members : Trees) :
    bareMembers (optColons colons ++ (.leaf (.punct '<') :: (members ++ [.leaf (.punct '>')]))) =
      bareMembers members := by
  have hcolons : bareMembers (optColons colons) = [] := by cases colons <;> rfl
  rw [bareMembers_append, hcolons, List.nil_append, bareMembers, bareMembers_append]
  exact List.append_nil _

theorem bare_pathType {children children' : Trees} (h : bareTrees children = bareTrees children') :
    ParseTree.bare (.node .type [.node .pathType [.node .path children]]) =
      ParseTree.bare (.node .type [.node .pathType [.node .path children']]) := by
  rw [bareTrees_eq, bareTrees_eq] at h
  simp only [ParseTree.bare, bareTrees_eq, List.map_cons, List.map_nil, h]

theorem bareTrees_segment {names names' : Trees} (h : bareTrees names = bareTrees names') :
    bareTrees [.node .segment names] = bareTrees [.node .segment names'] := by
  rw [bareTrees_eq, bareTrees_eq] at h
  simp only [ParseTree.bare, bareTrees_eq, List.map_cons, List.map_nil, h]

/-- A name with arguments is known by the arguments alone. -/
theorem bareTrees_segmentTrees {name : String} {members children : Trees}
    (hmembers : ∀ tree ∈ members, isLeaf tree = false)
    (h : bareMembers children = members.map ParseTree.bare) :
    bareTrees (segmentTrees name members) =
      bareTrees [.leaf (.ident name 1), .node .arguments children] := by
  have hlist := (bareMembers_angled false _).trans (bareMembers_commaList hmembers)
  rw [optColons, if_neg Bool.false_ne_true, List.nil_append] at hlist
  cases members with
  | nil => simp [segmentTrees, bareTrees, ParseTree.bare, h, isMemberless]
  | cons tree members =>
    simp only [segmentTrees, List.isEmpty_cons, Bool.false_eq_true, if_false, argumentsTree,
      bareTrees, ParseTree.bare, hlist, h]

end Code

namespace TypeRef

/-! ## One layer -/

/-- A tree is read from the text of the type that another one stands for, and is the same but for
brackets. -/
structure Survives (tree : ParseTree Part) (t : TypeRef) (read : ParseTree Part) : Prop where
  text : IsTextOf t.render read
  sum : isSum read = true → isSum tree = true
  same : read.bare = tree.unlined.bare
  shared : t.reference = true → isShared tree = true

theorem render_named {name : String} (h : name ≠ "[]") : (named name).render = name := by
  simp [named, render, h]

theorem render_byRef {t : TypeRef} (hnullable : t.nullable = false) (href : t.reference = false) :
    t.byRef.render = "&" ++ t.render := by
  obtain ⟨name, args, nullable, reference⟩ := t
  obtain rfl : nullable = false := hnullable
  obtain rfl : reference = false := href
  simp [byRef, render]

theorem render_slice (t : TypeRef) : t.slice.render = "[" ++ t.render ++ "]" := by
  simp [slice, generic, render, renderArgs, renderArg]

/-- A type that keeps its text is read as it was. -/
theorem survives_kept {tree : ParseTree Part} (h : IsType tree) (hlegible : tree.IsLegible) :
    Survives tree (.ofText tree.tokens) tree.unlined := by
  obtain ⟨htext, hslice⟩ := isTextOf_textOf h hlegible
  have hrender : (TypeRef.ofText tree.tokens).render = textOf tree.tokens := render_named hslice
  exact ⟨hrender ▸ htext, fun hsum => isSum_unlined tree ▸ hsum, rfl, nofun⟩

/-- A type that was not refused keeps its text. -/
theorem eq_ofText_of_verbatim {tokens : List Token} {t : TypeRef}
    (h : ofSyntax (.verbatim tokens) = .ok t) : t = .ofText tokens := by
  rw [ofSyntax] at h
  obtain ⟨_, _, h⟩ := Except.bind_eq_ok.mp h
  cases Except.pure_eq_ok.mp h
  rfl

theorem eq_ofText_of_borrowed {tokens target : List Token} {t : TypeRef}
    (h : ofSyntax (.borrowed tokens target) = .ok t) : t = .ofText tokens := by
  rw [ofSyntax] at h
  obtain ⟨_, _, h⟩ := Except.bind_eq_ok.mp h
  cases Except.pure_eq_ok.mp h
  rfl

theorem Plain.nullable_eq_false {t : TypeRef} (h : Plain t) : t.nullable = false := by
  cases h
  rfl

theorem Survives.reference {target read : ParseTree Part} {t : TypeRef}
    (h : Survives target t read) (hplain : Plain t) (hshared : isShared target = false)
    (hsum : isSum target = false) :
    Survives (referenceTree target) t.byRef (referenceTree read) := by
  have href : t.reference = false := by
    rw [Bool.eq_false_iff]
    intro href
    rw [h.shared href] at hshared
    cases hshared
  have hread : isSum read = false := by
    rw [Bool.eq_false_iff]
    intro hread
    rw [h.sum hread] at hsum
    cases hsum
  refine ⟨?_, nofun, ?_, fun _ => rfl⟩
  · rw [render_byRef hplain.nullable_eq_false href]
    exact h.text.reference hread
  · show (referenceTree read).bare = (referenceTree target.unlined).bare
    simp only [referenceTree, ParseTree.bare, bareTrees_eq, List.map_cons, List.map_nil, h.same]

theorem Survives.slice {element read : ParseTree Part} {t : TypeRef} (h : Survives element t read) :
    Survives (sliceTree element) t.slice (sliceTree read) := by
  refine ⟨?_, nofun, ?_, nofun⟩
  · rw [render_slice]
    exact h.text.slice
  · show (sliceTree read).bare = (sliceTree element.unlined).bare
    simp only [sliceTree, ParseTree.bare, bareTrees_eq, List.map_cons, List.map_nil, h.same]

theorem survives_unit : Survives unitTree unit unitTree := by
  have hrender : unit.render = "()" := render_named (by decide)
  exact ⟨hrender ▸ isTextOf_unit, nofun, rfl, nofun⟩

/-- Round brackets around a type are gone. -/
theorem Survives.paren {inner read : ParseTree Part} {t : TypeRef} (h : Survives inner t read) :
    Survives (.node .type [.node .parenType [.group .paren [inner]]]) t read where
  text := h.text
  sum hsum := by simpa [isSum] using h.sum hsum
  same := by simpa [ParseTree.unlined, unlinedTrees, ParseTree.bare] using h.same
  shared href := by simpa [isShared] using h.shared href

/-- What a type stands for is written as the type itself, if its layers are kept. -/
def MaySurvive (tree : ParseTree Part) : Prop :=
  ∃ syn, ofTree tree = .type syn ∧ (tree.IsLegible → keepsLayers tree = true →
    ∀ t, ofSyntax syn = .ok t → ∃ read, Survives tree t read)

/-! ## Arguments -/

/-- Arguments survive if each of them does. -/
structure ArgumentsSurvive (members : Trees) (ts : List TypeRef) (reads : Trees) : Prop where
  texts : List.Forall₂ IsArgumentText (ts.map render) reads
  same : bareMembers (unlinedTrees members) = reads.map ParseTree.bare

variable {members reads : Trees} {ts : List TypeRef} {member read : ParseTree Part} {t : TypeRef}

theorem ArgumentsSurvive.mark (h : ArgumentsSurvive members ts reads) (token : Token) :
    ArgumentsSurvive (.leaf token :: members) ts reads :=
  ⟨h.texts, h.same⟩

theorem ArgumentsSurvive.cons (h : ArgumentsSurvive members ts reads)
    (htext : IsArgumentText t.render read) (hleaf : isLeaf member = false)
    (hsame : read.bare = member.unlined.bare) :
    ArgumentsSurvive (member :: members) (t :: ts) (read :: reads) where
  texts := .cons htext h.texts
  same := by
    rw [unlinedTrees, bareMembers_cons ((isLeaf_unlined member).trans hleaf), h.same, List.map_cons,
      hsame]

/-- An argument that is no type keeps its text. -/
theorem ArgumentsSurvive.cons_other (h : ArgumentsSurvive members ts reads)
    (hmember : IsArgument member) (hlegible : member.IsLegible) (hleaf : isLeaf member = false)
    (hlifetime : isLifetimeTree member = false) :
    ArgumentsSurvive (member :: members) (.ofText member.tokens :: ts)
      (member.unlined :: reads) := by
  obtain ⟨htext, hslice⟩ := isArgumentText_textOf hmember hlegible hleaf hlifetime
  have hrender : (TypeRef.ofText member.tokens).render = textOf member.tokens := render_named hslice
  exact h.cons (hrender ▸ htext) hleaf rfl

theorem isLifetimeTree_of_case {P : ParseTree Part → Prop} (h : ArgumentCase P member) :
    isLifetimeTree member = isLifetime (ofTree member) := by
  have hargument (children : Trees) (readings : List TypeReading) :
      isLifetime (ofPart .typeArgument children readings) = false := by
    unfold ofPart
    dsimp only
    split <;> rfl
  cases h with
  | comma | lifetime | const => rfl
  | type | associated =>
    rw [ofTree, hargument]
    rfl

/-- Arguments without lifetimes survive if their types do. -/
theorem exists_argumentsSurvive (hmembers : ∀ tree ∈ members, ArgumentCase MaySurvive tree)
    (hlegible : ∀ tree ∈ members, tree.IsLegible)
    (hlifetimes : ∀ tree ∈ members, isLifetimeTree tree = false)
    (hkeeps : membersKeepLayers members = true) {as : List (TypeArg TypeRef)}
    (has : ofArguments (argumentsOf members) = .ok as) :
    ∃ ts reads, as = ts.map (.type .invariant) ∧ ArgumentsSurvive members ts reads := by
  induction members generalizing as with
  | nil =>
    cases Except.pure_eq_ok.mp has
    exact ⟨[], [], rfl, .nil, rfl⟩
  | cons member members ih =>
    obtain ⟨hmember, hmembers⟩ := List.forall_mem_cons.mp hmembers
    obtain ⟨hlegible, hlegibles⟩ := List.forall_mem_cons.mp hlegible
    obtain ⟨hlifetime, hlifetimes⟩ := List.forall_mem_cons.mp hlifetimes
    have hrest := ih hmembers hlegibles hlifetimes
    -- the first argument and the others, each with its type
    have hfirst {arg : ArgumentSyntax} (harg : argument? (ofTree member) = some arg) :
        ∃ t as', ofArgument arg = .ok t ∧ ofArguments (argumentsOf members) = .ok as' ∧
          as = .type .invariant t :: as' := by
      rw [argumentsOf_cons_some harg, ofArguments] at has
      obtain ⟨t, ht, has⟩ := Except.bind_eq_ok.mp has
      obtain ⟨as', has', has⟩ := Except.bind_eq_ok.mp has
      exact ⟨t, as', ht, has', (Except.pure_eq_ok.mp has).symm⟩
    cases hmember with
    | comma =>
      rw [argumentsOf_cons_none rfl] at has
      obtain ⟨ts, reads, has, hreads⟩ := hrest hkeeps has
      exact ⟨ts, reads, has, hreads.mark _⟩
    | lifetime name => cases hlifetime
    | const h =>
      obtain ⟨t, as', ht, has', rfl⟩ := hfirst rfl
      cases Except.pure_eq_ok.mp ht
      obtain ⟨ts, reads, rfl, hreads⟩ := hrest hkeeps has'
      exact ⟨_, _, rfl, hreads.cons_other h hlegible rfl rfl⟩
    | @associated inner next more h =>
      obtain ⟨t, as', ht, has', rfl⟩ := hfirst (argument?_associated inner next more)
      cases Except.pure_eq_ok.mp ht
      obtain ⟨ts, reads, rfl, hreads⟩ := hrest hkeeps has'
      exact ⟨_, _, rfl, hreads.cons_other h hlegible rfl rfl⟩
    | @type inner h =>
      obtain ⟨syn, hsyn, hsurvives⟩ := h
      obtain ⟨t, as', ht, has', rfl⟩ := hfirst (argument?_type hsyn)
      obtain ⟨hkeep, hkeeps⟩ : keepsLayers inner = true ∧ membersKeepLayers members = true := by
        simpa [membersKeepLayers] using hkeeps
      have hinner : inner.IsLegible := areLegible_singleton.mp (areLegible_of_node rfl hlegible)
      obtain ⟨read, hread⟩ := hsurvives hinner hkeep t ht
      obtain ⟨ts, reads, rfl, hreads⟩ := hrest hkeeps has'
      refine ⟨t :: ts, _, rfl, hreads.cons hread.text.argument rfl ?_⟩
      show ParseTree.bare (.node .typeArgument [read]) =
        ParseTree.bare (.node .typeArgument [inner.unlined])
      simp only [ParseTree.bare, bareTrees_eq, List.map_cons, List.map_nil, hread.same]

/-! ## Paths -/

/-- A name of a path, and what it is read as. -/
inductive SegmentReads : Trees → String × Option (List ArgumentSyntax × Bool) → Prop where
  | plain {text : String} {line : Nat} (hword : IsWord text)
    (hname : isPathName text = true ∨ text = "try") :
    SegmentReads [.leaf (.ident text line)] (text, none)
  | generic {text : String} {line : Nat} {colons : Bool} {members : Trees} (hword : IsWord text)
    (hname : isName text = true ∨ text = "Self")
    (hmembers : ∀ tree ∈ members, ArgumentCase MaySurvive tree)
    (hlegible : ∀ tree ∈ members, tree.IsLegible) :
    SegmentReads [.leaf (.ident text line), .node .arguments
      (optColons colons ++ (.leaf (.punct '<') :: (members ++ [.leaf (.punct '>')])))]
      (text, some (argumentsOf members, (members.map ofTree).any isLifetime))

variable {names : Trees} {s : String × Option (List ArgumentSyntax × Bool)}

theorem exists_segmentReads (h : SegmentCase MaySurvive (.node .segment names))
    (hlegible : AreLegible names) :
    ∃ s, segment? (ofTree (.node .segment names)) = some s ∧ SegmentReads names s := by
  cases h with
  | @plain text line h =>
    refine ⟨_, ?_, .plain hlegible.1 h⟩
    rw [ofTree_plain, segment?]
  | @generic text line colons members h hmembers =>
    have hmember : ∀ tree ∈ members, tree.IsLegible := fun tree htree =>
      areLegible_iff_forall.mp (areLegible_of_node rfl hlegible.2.1) tree (by simp [htree])
    refine ⟨_, ?_, .generic hlegible.1 h hmembers hmember⟩
    rw [ofTree_generic (ofTree_arguments colons members), segment?]

theorem forall₂_segmentReads {all : List Trees}
    (h : ∀ names ∈ all, SegmentCase MaySurvive (.node .segment names))
    (hlegible : ∀ names ∈ all, AreLegible names) :
    List.Forall₂ SegmentReads all
      (all.filterMap fun names => segment? (ofTree (.node .segment names))) := by
  induction all with
  | nil => exact .nil
  | cons names all ih =>
    obtain ⟨hnames, hall⟩ := List.forall_mem_cons.mp h
    obtain ⟨hlegible, hlegibles⟩ := List.forall_mem_cons.mp hlegible
    obtain ⟨s, hs, hreads⟩ := exists_segmentReads hnames hlegible
    rw [List.filterMap_cons, hs]
    exact .cons hreads (ih hall hlegibles)

theorem SegmentReads.word (h : SegmentReads names s) :
    IsWord s.1 ∧ (isPathName s.1 = true ∨ s.1 = "try") := by
  cases h with
  | plain hword hname => exact ⟨hword, hname⟩
  | generic hword hname => exact ⟨hword, .inl (isPathName_of_isName hname)⟩

theorem SegmentReads.target (h : SegmentReads names s) (hs : s.2.isSome = true) :
    isName s.1 = true ∨ s.1 = "Self" := by
  cases h with
  | plain => cases hs
  | generic _ hname => exact hname

/-- The tokens begin with the name. -/
theorem SegmentReads.first (h : SegmentReads names s) :
    firstName (tokensOf names) = s.1 ∧
      ∀ rest, startsWithColon (tokensOf names ++ rest) = false := by
  cases h <;> simp [firstName, startsWithColon]

/-- Names without arguments differ at most in their lines. -/
theorem unlinedTrees_front {all : List Trees}
    {front : List (String × Option (List ArgumentSyntax × Bool))}
    (h : List.Forall₂ SegmentReads all front) (hplain : ∀ s ∈ front, s.2 = none) :
    unlinedTrees (all.flatMap fun names => .node .segment names :: colonTrees) =
      (front.map (·.1)).flatMap fun name =>
        .node .segment (segmentTrees name []) :: colonTrees := by
  induction h with
  | nil => rfl
  | cons hnames _ ih =>
    obtain ⟨hnone, hothers⟩ := List.forall_mem_cons.mp hplain
    cases hnames with
    | generic => cases hnone
    | plain =>
      rw [List.flatMap_cons, unlinedTrees_append, ih hothers]
      rfl

/-- They have no layers. -/
theorem namesKeepLayers_front {all : List Trees}
    {front : List (String × Option (List ArgumentSyntax × Bool))}
    (h : List.Forall₂ SegmentReads all front) (hplain : ∀ s ∈ front, s.2 = none) (rest : Trees) :
    namesKeepLayers (all.flatMap (fun names => .node .segment names :: colonTrees) ++ rest) =
      namesKeepLayers rest := by
  induction h with
  | nil => rfl
  | cons hnames _ ih =>
    obtain ⟨hnone, hothers⟩ := List.forall_mem_cons.mp hplain
    cases hnames with
    | generic => cases hnone
    | plain =>
      rw [List.flatMap_cons, List.append_assoc]
      exact ih hothers

theorem namesKeepLayers_optColons (absolute : Bool) (rest : Trees) :
    namesKeepLayers (optColons absolute ++ rest) = namesKeepLayers rest := by
  cases absolute <;> rfl

theorem membersKeepLayers_append (members later : Trees) :
    membersKeepLayers (members ++ later) =
      (membersKeepLayers members && membersKeepLayers later) := by
  induction members with
  | nil => rfl
  | cons tree members ih =>
    by_cases htype : ∃ inner, tree = .node .typeArgument [inner]
    · obtain ⟨inner, rfl⟩ := htype
      simp [membersKeepLayers, ih, Bool.and_assoc]
    · have hother (inner : ParseTree Part) (h : tree = .node .typeArgument [inner]) : False :=
        htype ⟨inner, h⟩
      rw [List.cons_append, membersKeepLayers.eq_3 _ _ hother, membersKeepLayers.eq_3 _ _ hother,
        ih]

theorem namesKeepLayers_generic (name : ParseTree Part) (colons : Bool) (members : Trees) :
    namesKeepLayers [.node .segment [name, .node .arguments
      (optColons colons ++ (.leaf (.punct '<') :: (members ++ [.leaf (.punct '>')])))]] =
        (members.any isLifetimeTree || membersKeepLayers members) := by
  cases colons <;>
    simp [namesKeepLayers, optColons, colonTrees, isLifetimeTree, membersKeepLayers,
      membersKeepLayers_append]

/-- The last name of a path survives with its arguments. -/
theorem exists_lastSurvives (h : SegmentReads names s) {args : List ArgumentSyntax}
    (hargs : s.2 = none ∧ args = [] ∨ s.2 = some (args, false))
    (hkeeps : namesKeepLayers [.node .segment names] = true) {as : List (TypeArg TypeRef)}
    (has : ofArguments args = .ok as) :
    ∃ (ts : List TypeRef) (reads : Trees), as = ts.map (.type .invariant) ∧
      List.Forall₂ IsArgumentText (ts.map render) reads ∧ (reads ≠ [] → s.2.isSome = true) ∧
        bareTrees (segmentTrees s.1 reads) = bareTrees (unlinedTrees names) := by
  cases h with
  | plain =>
    obtain rfl : args = [] := by simpa using hargs
    cases Except.pure_eq_ok.mp has
    exact ⟨[], [], rfl, .nil, fun h => absurd rfl h, rfl⟩
  | @generic text line colons members _ _ hmembers hlegible =>
    obtain ⟨rfl, hlifetimes⟩ : argumentsOf members = args ∧
        (members.map ofTree).any isLifetime = false := by simpa using hargs
    have hlifetime : ∀ tree ∈ members, isLifetimeTree tree = false := by
      intro tree htree
      rw [isLifetimeTree_of_case (hmembers tree htree)]
      simpa using List.any_eq_false.mp hlifetimes (ofTree tree) (List.mem_map_of_mem htree)
    have hlayers : membersKeepLayers members = true := by
      have hnone : members.any isLifetimeTree = false := by simpa using hlifetime
      rwa [namesKeepLayers_generic, hnone, Bool.false_or] at hkeeps
    obtain ⟨ts, reads, rfl, hsurvive⟩ :=
      exists_argumentsSurvive hmembers hlegible hlifetime hlayers has
    refine ⟨ts, reads, rfl, hsurvive.texts, fun _ => rfl, ?_⟩
    have hleaf : ∀ tree ∈ reads, isLeaf tree = false := fun tree htree => by
      obtain ⟨text, htext⟩ := exists_text_of_forall₂ hsurvive.texts tree htree
      exact htext.node
    have hcolons : unlinedTrees (optColons colons) = optColons colons := by cases colons <;> rfl
    have hsame : bareMembers (unlinedTrees
        (optColons colons ++ (.leaf (.punct '<') :: (members ++ [.leaf (.punct '>')])))) =
          reads.map ParseTree.bare := by
      rw [unlinedTrees_append, hcolons, unlinedTrees, unlinedTrees_append]
      exact (bareMembers_angled colons _).trans hsurvive.same
    exact bareTrees_segmentTrees hleaf hsame

/-- A path survives if its names and arguments do. -/
theorem survives_joined {absolute : Bool} {front : List String} {last : String} {trees : Trees}
    (hpath : IsPath absolute front last (!reads.isEmpty))
    (htexts : List.Forall₂ IsArgumentText (ts.map render) reads)
    (hfront : unlinedTrees trees =
      front.flatMap fun name => .node .segment (segmentTrees name []) :: colonTrees)
    (hlast : bareTrees (segmentTrees last reads) = bareTrees (unlinedTrees names)) :
    Survives (.node .type [.node .pathType [.node .path
        (optColons absolute ++ (trees ++ [.node .segment names]))]])
      ⟨joinedPath absolute (front ++ [last]), ts.map (.type .invariant), false, false⟩
      (joinedTree absolute front last reads) := by
  refine ⟨isTextOf_path hpath htexts (render_path hpath ts), nofun, ?_, nofun⟩
  have hcolons : unlinedTrees (optColons absolute) = optColons absolute := by
    cases absolute <;> rfl
  refine bare_pathType ?_
  rw [unlinedTrees_append, unlinedTrees_append, hcolons, hfront, bareTrees_append,
    bareTrees_append, bareTrees_append, bareTrees_append, bareTrees_segment hlast]
  rfl

/-- The names of a path are read one by one. -/
theorem forall₂_segmentsOf {absolute : Bool} {first : Trees} {later : List Trees}
    (h : ∀ names ∈ first :: later, SegmentCase MaySurvive (.node .segment names))
    (hlegible : AreLegible (pathTrees absolute first later)) :
    List.Forall₂ SegmentReads (first :: later) (segmentsOf (pathTrees absolute first later)) := by
  rw [segmentsOf_pathTrees]
  refine forall₂_segmentReads h fun names hnames => ?_
  have hmem : ParseTree.node .segment names ∈ pathTrees absolute first later := by
    rw [pathTrees]
    rcases List.mem_cons.mp hnames with rfl | hnames
    · simp
    · exact List.mem_append_right _ (List.mem_cons_of_mem _
        (List.mem_flatMap.mpr ⟨names, hnames, by simp⟩))
  exact areLegible_of_node rfl (areLegible_iff_forall.mp hlegible _ hmem)

theorem exists_of_forall₂_append {all : List Trees}
    {front : List (String × Option (List ArgumentSyntax × Bool))}
    (h : List.Forall₂ SegmentReads all (front ++ [s])) :
    ∃ before names, all = before ++ [names] ∧ List.Forall₂ SegmentReads before front ∧
      SegmentReads names s := by
  obtain ⟨names, none, hnames, hnone, hdrop⟩ :=
    List.forall₂_cons_right_iff.mp (List.forall₂_drop_append _ _ _ h)
  obtain rfl := List.forall₂_nil_right_iff.mp hnone
  refine ⟨_, names, ?_, List.forall₂_take_append _ _ _ h, hnames⟩
  rw [← hdrop, List.take_append_drop]

theorem words_of_forall₂ {all : List Trees}
    {segments : List (String × Option (List ArgumentSyntax × Bool))}
    (h : List.Forall₂ SegmentReads all segments) :
    ∀ s ∈ segments, IsWord s.1 ∧ (isPathName s.1 = true ∨ s.1 = "try") := by
  induction h with
  | nil => nofun
  | cons hs _ ih => exact List.forall_mem_cons.mpr ⟨hs.word, ih⟩

theorem isPath_of_forall₂ {absolute : Bool} {first : Trees} {later : List Trees}
    {front : List (String × Option (List ArgumentSyntax × Bool))}
    (h : List.Forall₂ SegmentReads (first :: later) (front ++ [s]))
    (hstart : absolute = false → isPathName (firstName (tokensOf first)) = true) {hasArgs : Bool}
    (hargs : hasArgs = true → s.2.isSome = true) :
    IsPath absolute (front.map (·.1)) s.1 hasArgs := by
  have hnames : front.map (·.1) ++ [s.1] = (front ++ [s]).map (·.1) := by simp
  obtain ⟨before, names, -, -, hlast⟩ := exists_of_forall₂_append h
  refine ⟨?_, fun habsolute name hname => ?_, fun htrue => hlast.target (hargs htrue)⟩
  · rw [hnames]
    exact List.forall_mem_map.mpr (words_of_forall₂ h)
  · obtain ⟨reading, readings, hfirst, -, heq⟩ := List.forall₂_cons_left_iff.mp h
    rw [hnames, heq] at hname
    obtain rfl : reading.1 = name := by simpa using hname
    exact hfirst.first.1 ▸ hstart habsolute

theorem startsWithColon_of_forall₂ {absolute : Bool} {first : Trees} {later : List Trees}
    {segments : List (String × Option (List ArgumentSyntax × Bool))}
    (h : List.Forall₂ SegmentReads (first :: later) segments) :
    startsWithColon (tokensOf (pathTrees absolute first later)) = absolute := by
  obtain ⟨reading, readings, hfirst, -, rfl⟩ := List.forall₂_cons_left_iff.mp h
  cases absolute with
  | true => rfl
  | false => simpa [pathTrees, optColons] using hfirst.first.2 _

theorem maySurvive_path {children : Trees} (h : PathCase MaySurvive children)
    (htype : IsType (.node .type [.node .pathType [.node .path children]])) :
    MaySurvive (.node .type [.node .pathType [.node .path children]]) := by
  refine ⟨_, ofTree_type (ofTree_path children), fun hlegible hkeeps t ht => ?_⟩
  obtain hkept | ⟨front, last, args, hsegments, hplain, hargs, hnamed⟩ := ofPath_cases
    (tokensOf children) (startsWithColon (tokensOf children)) (segmentsOf children)
  · rw [hkept] at ht
    obtain rfl := eq_ofText_of_verbatim ht
    exact ⟨_, by simpa using survives_kept htype hlegible⟩
  rw [hnamed, ofSyntax] at ht
  obtain ⟨as, has, ht⟩ := Except.bind_eq_ok.mp ht
  cases Except.pure_eq_ok.mp ht
  obtain @⟨absolute, first, later, hstart, hfirst, hlater⟩ := h
  have hinside : AreLegible (pathTrees absolute first later) :=
    areLegible_of_node rfl (areLegible_singleton.mp
      (areLegible_of_node rfl (areLegible_singleton.mp (areLegible_of_node rfl hlegible))))
  have hall := forall₂_segmentsOf (List.forall_mem_cons.mpr ⟨hfirst, hlater⟩) hinside
  rw [hsegments] at hall
  obtain ⟨before, names, hnames, hbefore, hlast⟩ := exists_of_forall₂_append hall
  have hcolon : startsWithColon (tokensOf (pathTrees absolute first later)) = absolute :=
    startsWithColon_of_forall₂ hall
  have htrees : pathTrees absolute first later = optColons absolute ++
      (before.flatMap (fun names => .node .segment names :: colonTrees) ++
        [.node .segment names]) := pathTrees_eq_of_append hnames
  have hlayers : namesKeepLayers [.node .segment names] = true := by
    rw [htrees] at hkeeps
    simpa only [keepsLayers, namesKeepLayers_optColons, namesKeepLayers_front hbefore hplain]
      using hkeeps
  obtain ⟨ts, reads, rfl, htexts, htarget, hsame⟩ := exists_lastSurvives hlast hargs hlayers has
  have hpath : IsPath absolute (front.map (·.1)) last.1 (!reads.isEmpty) :=
    isPath_of_forall₂ hall hstart fun h => htarget (by simpa using h)
  rw [hcolon, htrees]
  exact ⟨_, survives_joined hpath htexts (unlinedTrees_front hbefore hplain) hsame⟩

/-! ## All layers -/

/-- Every type whose layers are kept survives. -/
theorem maySurvive_of_isType {tree : ParseTree Part} (h : IsType tree) : MaySurvive tree := by
  refine h.induction fun inner htype hinner => ?_
  cases hinner with
  | path hpath => exact maySurvive_path hpath htype
  | @reference marks target hmarks htarget =>
    obtain ⟨syn, hsyn, hsurvives⟩ := htarget
    refine ⟨_, ofTree_type (ofTree_reference hmarks hsyn), fun hlegible hkeeps t ht => ?_⟩
    split at ht
    · obtain rfl := eq_ofText_of_borrowed ht
      exact ⟨_, by simpa using survives_kept htype hlegible⟩
    · next hborrow =>
      obtain rfl := eq_nil_of_isBorrow hmarks (by simpa using hborrow)
      rw [ofSyntax] at ht
      obtain ⟨u, hu, ht⟩ := Except.bind_eq_ok.mp ht
      cases Except.pure_eq_ok.mp ht
      obtain ⟨⟨hshared, hsum⟩, hkeep⟩ : (isShared target = false ∧ isSum target = false) ∧
          keepsLayers target = true := by simpa [keepsLayers] using hkeeps
      have htarget : target.IsLegible :=
        (areLegible_of_node rfl (areLegible_singleton.mp (areLegible_of_node rfl hlegible))).2.1
      obtain ⟨read, hread⟩ := hsurvives htarget hkeep u hu
      exact ⟨_, hread.reference (plain_of_ofSyntax _ hu) hshared hsum⟩
  | @slice element helement more =>
    obtain ⟨syn, hsyn, hsurvives⟩ := helement
    refine ⟨_, ofTree_type (ofTree_slice hsyn more), fun hlegible hkeeps t ht => ?_⟩
    cases more with
    | cons next more =>
      obtain rfl := eq_ofText_of_verbatim ht
      exact ⟨_, by simpa using survives_kept htype hlegible⟩
    | nil =>
      rw [List.isEmpty_nil, if_pos rfl, ofSyntax] at ht
      obtain ⟨u, hu, ht⟩ := Except.bind_eq_ok.mp ht
      cases Except.pure_eq_ok.mp ht
      have helement : element.IsLegible := by
        simpa [ParseTree.IsLegible, AreLegible] using hlegible
      obtain ⟨read, hread⟩ := hsurvives helement hkeeps u hu
      exact ⟨_, hread.slice⟩
  | unit =>
    refine ⟨.unit, rfl, fun _ _ t ht => ?_⟩
    cases Except.pure_eq_ok.mp ht
    exact ⟨_, survives_unit⟩
  | @paren inner hinner =>
    obtain ⟨syn, hsyn, hsurvives⟩ := hinner
    refine ⟨_, ofTree_type (ofTree_paren hsyn), fun hlegible hkeeps t ht => ?_⟩
    have hinner : inner.IsLegible :=
      (areLegible_of_node rfl (areLegible_singleton.mp (areLegible_of_node rfl hlegible))).1.2.1
    rw [ofSyntax] at ht
    obtain ⟨read, hread⟩ := hsurvives hinner hkeeps t ht
    exact ⟨_, hread.paren⟩
  | infer line =>
    refine ⟨.infer, rfl, fun _ _ t ht => ?_⟩
    cases ht
  | call path joint rest =>
    refine ⟨_, rfl, fun _ _ t ht => ?_⟩
    cases ht
  | kept hpart children =>
    refine ⟨_, ofTree_type (ofTree_kept hpart children), fun hlegible _ t ht => ?_⟩
    obtain rfl := eq_ofText_of_verbatim ht
    exact ⟨_, by simpa using survives_kept htype hlegible⟩

/-- The text of an accepted type that keeps its layers is read as the same type, up to brackets that
do not matter. The type may stand on any lines. -/
theorem survives {tree : ParseTree Part} (htype : IsType tree) (hlegible : tree.IsLegible)
    (hkeeps : keepsLayers tree = true) {t : TypeRef} (ht : ofSyntax (.ofTree tree) = .ok t) :
    ∃ read, parseText (.type true) (lex t.render) = some [read] ∧
      read.bare = tree.unlined.bare := by
  obtain ⟨syn, hsyn, hsurvives⟩ := maySurvive_of_isType htype
  rw [TypeSyntax.ofTree, hsyn] at ht
  obtain ⟨read, hread⟩ := hsurvives hlegible hkeeps t ht
  exact ⟨read, hread.text.parse_eq, hread.same⟩

/-- A function on arrays whose result is an array is an object type in round brackets. The length
of an array is a product, and a constant is a block. -/
theorem survives_box : ∃ tree,
    parseText (.type true) (lex "Box::<(dyn Fn([u8; 2 * N],) -> [A<'a, { 3 }>; N] + Send)>") =
        some [tree] ∧
      IsType tree ∧ tree.IsLegible ∧ keepsLayers tree = true ∧
        ∃ t, ofSyntax (.ofTree tree) = .ok t ∧
          ∃ read, parseText (.type true) (lex t.render) = some [read] ∧
            read.bare = tree.unlined.bare := by
  have htest : testType "Box::<(dyn Fn([u8; 2 * N],) -> [A<'a, { 3 }>; N] + Send)>" (fun tree =>
      tree.isSimple && keepsLayers tree && (ofSyntax (.ofTree tree)).toOption.isSome) = true := by
    decide +kernel
  obtain ⟨tree, htree, htype, htest⟩ := exists_of_testType htest
  obtain ⟨⟨hsimple, hkeeps⟩, hsome⟩ : (tree.isSimple = true ∧ keepsLayers tree = true) ∧
      (ofSyntax (.ofTree tree)).toOption.isSome = true := by simpa using htest
  obtain ⟨t, ht⟩ := Option.isSome_iff_exists.mp hsome
  have hread := Except.toOption_eq_some.mp ht
  have hlegible := isLegible_of_isSimple tree hsimple
  exact ⟨tree, htree, htype, hlegible, hkeeps, t, hread, survives htype hlegible hkeeps hread⟩

/-- A reference to a sum of bounds is written without the brackets it needs, and one to another
reference as a single one. -/
theorem not_survives_reference :
    (∃ tree t, parseText (.type true) (lex "&(dyn A + Send)") = some [tree] ∧
      ofSyntax (.ofTree tree) = .ok t ∧ parseText (.type true) (lex t.render) = none) ∧
    ∃ tree t, parseText (.type true) (lex "&&str") = some [tree] ∧
      ofSyntax (.ofTree tree) = .ok t ∧ t.render = "&str" := by
  have hsum : testType "&(dyn A + Send)" (fun tree => (ofSyntax (.ofTree tree)).toOption.any
      fun t => (parseText (.type true) (lex t.render)).isNone) = true := by decide +kernel
  have hnested : testType "&&str" (fun tree => (ofSyntax (.ofTree tree)).toOption.any
      fun t => t.render == "&str") = true := by decide +kernel
  obtain ⟨tree, htree, -, htest⟩ := exists_of_testType hsum
  obtain ⟨t, ht, hnone⟩ := Except.exists_of_any htest
  obtain ⟨tree', htree', -, htest'⟩ := exists_of_testType hnested
  obtain ⟨t', ht', hrender⟩ := Except.exists_of_any htest'
  exact ⟨⟨tree, t, htree, ht, Option.isNone_iff_eq_none.mp hnone⟩,
    tree', t', htree', ht', by simpa using hrender⟩

end TypeRef

end DaoGen
