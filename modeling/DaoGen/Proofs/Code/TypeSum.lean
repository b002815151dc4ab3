import DaoGen.Proofs.Code.StableType

/-!
# Sums of bounds

In some places a type goes on after a plus sign as a sum of bounds, in others it ends there. A type
that is no sum, with no plus sign after it, is read alike in all places.

## Main definitions

* `isSum`: whether a type may be a sum of bounds.
* `Agrees`: what one production reads is read alike by another one.

## Main results

* `agrees_type`: types are read alike where sums are allowed and where they are not.
* `Rereads.atPlace`: so are they read again.
-/
namespace DaoGen.Code

open Code.Language

/-! ## Sums -/

/-- Whether bounds are several, or kept as written because of a star, so that they may be. -/
def areSeveral (children : Trees) : Bool :=
  children.any (isMark '+') ||
    children.head?.any (isWord "dyn") && (children.drop 1).head?.any (isMark '*')

/-- Whether a type may be a sum of bounds, perhaps in round brackets. -/
def isSum : ParseTree Part → Bool
  | .node .type [.node .parenType [.group .paren [inner]]] => isSum inner
  | .node .type [.node .otherType children] => areSeveral children
  | _ => false

theorem areSeveral_unlined (children : Trees) :
    areSeveral (unlinedTrees children) = areSeveral children := by
  rw [areSeveral, areSeveral, any_unlinedTrees (isMark_unlined '+'),
    head_any_unlined (isWord_unlined "dyn"), unlinedTrees_eq_map, ← List.map_drop,
    ← unlinedTrees_eq_map, head_any_unlined (isMark_unlined '*')]

theorem exists_node_of_unlined {tree : ParseTree Part} {label : Part} {children : Trees}
    (h : tree.unlined = .node label children) :
    ∃ children', tree = .node label children' ∧ unlinedTrees children' = children := by
  match tree, h with
  | .node label' children', h =>
    simp only [ParseTree.unlined, ParseTree.node.injEq] at h
    obtain ⟨rfl, rfl⟩ := h
    exact ⟨children', rfl, rfl⟩

theorem isSum_unlined (tree : ParseTree Part) : isSum tree.unlined = isSum tree := by
  fun_induction isSum tree with
  | case1 inner ih => simpa only [ParseTree.unlined, unlinedTrees, isSum] using ih
  | case2 children =>
    simp only [ParseTree.unlined, unlinedTrees, isSum]
    exact areSeveral_unlined children
  | case3 tree hparen hother =>
    unfold isSum
    split
    · next inner heq =>
      obtain ⟨_, rfl, hinner⟩ := exists_node_of_unlined heq
      obtain ⟨_, rfl, hgroup⟩ := exists_of_unlinedTrees_eq hinner
      obtain ⟨inside, rfl, hinside⟩ := exists_group_of_unlined hgroup
      match inside, hinside with
      | [_], _ => exact (hparen _ rfl).elim
    · next children heq =>
      obtain ⟨_, rfl, hinner⟩ := exists_node_of_unlined heq
      obtain ⟨_, rfl, -⟩ := exists_of_unlinedTrees_eq hinner
      exact (hother _ rfl).elim
    · rfl

/-! ## Productions that agree -/

section Agrees

variable (rules : Rule → List Token → Match Part)

/-- If one production reads something that meets a condition, another one reads the same. -/
def Agrees (p q : P) (ts : List Token) (cond : Trees → List Token → Prop) : Prop :=
  ∀ parsed, p.run rules ts = .success parsed → cond parsed.trees parsed.rest →
    q.run rules ts = .success parsed

variable {rules} {p q p' q' : P} {ts : List Token} {cond cond' : Trees → List Token → Prop}
  {look : Look}

theorem Agrees.same : Agrees rules p p ts cond := fun _ hparsed _ => hparsed

theorem Agrees.of_yields (h : Yields rules p ts fun trees rest => ¬ cond trees rest) :
    Agrees rules p q ts cond := fun parsed hparsed hcond => absurd hcond (h parsed hparsed)

/-- Productions that both read the same agree. -/
theorem Agrees.of_reads {trees : Trees} {rest : List Token} (hp : Reads rules p ts trees rest)
    (hq : cond trees rest → Reads rules q ts trees rest) : Agrees rules p q ts cond := by
  intro parsed hparsed hcond
  rw [Reads, hparsed] at hp
  cases hp
  exact hq hcond

theorem Agrees.mono (h : Agrees rules p q ts cond)
    (hcond : Yields rules p ts fun trees rest => cond' trees rest → cond trees rest) :
    Agrees rules p q ts cond' :=
  fun parsed hparsed hparsed' => h parsed hparsed (hcond parsed hparsed hparsed')

theorem Agrees.shaped {shape : List Token → List Token → Trees → Trees}
    (h : Agrees rules p q ts fun trees rest => cond (shape ts rest trees) rest) :
    Agrees rules (.shaped p shape) (.shaped q shape) ts cond := by
  intro parsed hparsed hcond
  rw [Production.run] at hparsed ⊢
  cases hinner : p.run rules ts with
  | success inner =>
    rw [hinner] at hparsed
    cases hparsed
    rw [h inner hinner hcond]
  | failure fault | exhausted =>
    rw [hinner] at hparsed
    cases hparsed

theorem Agrees.labelled {label : Part}
    (h : Agrees rules p q ts fun trees rest => cond [.node label trees] rest) :
    Agrees rules (.labelled label p) (.labelled label q) ts cond := .shaped h

theorem Agrees.edited {edit : Trees → Trees}
    (h : Agrees rules p q ts fun trees rest => cond (edit trees) rest) :
    Agrees rules (.edited p edit) (.edited q edit) ts cond := .shaped h

theorem Agrees.either (hyes : look ts = true → Agrees rules p p' ts cond)
    (hno : look ts = false → Agrees rules q q' ts cond) :
    Agrees rules (.either look p q) (.either look p' q') ts cond := by
  intro parsed hparsed hcond
  rw [Production.either, Production.run] at hparsed ⊢
  cases hlook : look ts with
  | true =>
    rw [hlook, if_pos rfl] at hparsed
    rw [if_pos rfl]
    exact hyes hlook parsed hparsed hcond
  | false =>
    rw [hlook, if_neg Bool.false_ne_true] at hparsed
    rw [if_neg Bool.false_ne_true]
    exact hno hlook parsed hparsed hcond

theorem Agrees.select_cons {alternatives alternatives' : List (Look × P)}
    (hyes : look ts = true → Agrees rules p p' ts cond)
    (hno : look ts = false →
      Agrees rules (select alternatives q) (select alternatives' q') ts cond) :
    Agrees rules (select ((look, p) :: alternatives) q) (select ((look, p') :: alternatives') q')
      ts cond := .either hyes hno

/-- What stands after the same beginning agrees. -/
theorem Agrees.bind {next next' : Trees → P}
    (h : Yields rules p ts fun trees mid => Agrees rules (next trees) (next' trees) mid
      fun later rest => cond (trees ++ later) rest) :
    Agrees rules (.bind p next) (.bind p next') ts cond := by
  intro parsed hparsed hcond
  rw [Production.run] at hparsed ⊢
  obtain ⟨first, more, hfirst, hmore, rfl⟩ := Match.andThen_eq_success.mp hparsed
  exact Match.andThen_eq_success.mpr
    ⟨first, more, hfirst, h first hfirst more hmore hcond, rfl⟩

theorem Agrees.append
    (h : Yields rules p ts fun trees mid => Agrees rules q q' mid
      fun later rest => cond (trees ++ later) rest) :
    Agrees rules (p ++ q) (p ++ q') ts cond := .bind h

/-- Beginnings agree, and what follows is decided by what they read. -/
theorem Agrees.bind_left {next : Trees → P} (hp : Agrees rules p p' ts cond')
    (h : ∀ trees mid, Yields rules (next trees) mid fun later rest =>
      cond (trees ++ later) rest → cond' trees mid) :
    Agrees rules (.bind p next) (.bind p' next) ts cond := by
  intro parsed hparsed hcond
  rw [Production.run] at hparsed ⊢
  obtain ⟨first, more, hfirst, hmore, rfl⟩ := Match.andThen_eq_success.mp hparsed
  exact Match.andThen_eq_success.mpr
    ⟨first, more, hp first hfirst (h _ _ more hmore hcond), hmore, rfl⟩

/-- Reading nothing after something changes nothing. -/
theorem run_append_nothing {parsed : Parsed Part} (hp : p.run rules ts = .success parsed)
    (hq : Reads rules q parsed.rest [] parsed.rest) : (p ++ q).run rules ts = .success parsed := by
  refine Match.andThen_eq_success.mpr ⟨parsed, _, hp, hq, ?_⟩
  simp [Parsed.followedBy]

/-- What follows can be left out if it reads nothing, or nothing that meets the condition. -/
theorem Agrees.leave (h : Yields rules p ts fun trees mid => Reads rules q mid [] mid ∨
      Yields rules q mid fun later rest => ¬ cond (trees ++ later) rest) :
    Agrees rules (p ++ q) p ts cond := by
  intro parsed hparsed hcond
  obtain ⟨first, more, hfirst, hmore, rfl⟩ := Match.andThen_eq_success.mp hparsed
  rcases h first hfirst with hnothing | hnone
  · have hsame := run_append_nothing hfirst hnothing
    rw [hfirst, ← hparsed]
    exact hsame.symm
  · exact absurd hcond (hnone more hmore)

/-- What follows can be added if it reads nothing. -/
theorem Agrees.add (h : Yields rules p ts fun trees rest => cond trees rest →
      Reads rules q rest [] rest) : Agrees rules p (p ++ q) ts cond :=
  fun parsed hparsed hcond => run_append_nothing hparsed (h parsed hparsed hcond)

theorem Agrees.trans {r : P} (h : Agrees rules p q ts cond) (h' : Agrees rules q r ts cond) :
    Agrees rules p r ts cond :=
  fun parsed hparsed hcond => h' parsed (h parsed hparsed hcond) hcond

end Agrees

/-! ## Parts of types -/

section Switch

variable {rules : Rule → List Token → Match Part} {ts : List Token} {plus : Bool} {path : Trees}

/-- What was read where a sum may stand is none, and what was read where none may stand has no plus
sign after it. -/
structure NoSum (sums : Trees → Bool) (plus : Bool) (trees : Trees) (rest : List Token) :
    Prop where
  inside : plus = true → sums trees = false
  after : plus = false → atOp "+" rest = false

def hasPlus (trees : Trees) : Bool := trees.any (isMark '+')

def startsWithPlus (trees : Trees) : Bool := trees.head?.any (isMark '+')

theorem hasPlus_of_starts {trees : Trees} (h : startsWithPlus trees = true) :
    hasPlus trees = true := by
  cases trees with
  | nil => cases h
  | cons tree trees => exact Bool.or_eq_true_iff.mpr (.inl h)

/-- Where bounds go on, a plus sign is read first. -/
theorem yields_plusItems {look : Look} {item : P}
    (hlook : ∀ ts, look ts = true → atOp "+" ts = true) (hts : look ts = true) :
    Yields rules (.repeated look (Language.op "+" ++ item)) ts
      fun trees _ => ∀ later, startsWithPlus (trees ++ later) = true :=
  .repeated_pos (Bool.eq_false_iff.mpr fun h => nomatch hlook [] h) hts
    (.append (.mark (c := '+') fun _ => Yields.any.mono fun _ _ _ _ _ _ => rfl))

/-- Further bounds after plus signs, up to the first token that begins none. -/
def moreBounds (capturesAllowed constAllowed : Bool) : P :=
  .repeated (fun tokens => atOp "+" tokens && !!startsBound constAllowed (tokens.drop "+".length))
    (Language.op "+" ++ bound capturesAllowed constAllowed)

theorem boundSum_eq (capturesAllowed constAllowed : Bool) :
    boundSum true capturesAllowed constAllowed =
      bound capturesAllowed constAllowed ++ moreBounds capturesAllowed constAllowed ++ optOp "+" :=
  rfl

theorem agrees_boundSum (capturesAllowed constAllowed : Bool) :
    Agrees rules (boundSum plus capturesAllowed constAllowed)
      (boundSum (!plus) capturesAllowed constAllowed) ts (NoSum hasPlus plus) := by
  have hstops {mid : List Token} (h : (atOp "+" mid &&
      !!startsBound constAllowed (mid.drop "+".length)) = false) :
      Reads rules (moreBounds capturesAllowed constAllowed) mid [] mid := (ReadsMany.done h).reads
  cases plus with
  | false =>
    refine Agrees.trans (.add fun parsed _ hsum => hstops ?_) (.add fun parsed _ hsum => ?_)
    · rw [hsum.after rfl]
      rfl
    · exact .given_neg (hsum.after rfl)
  | true =>
    rw [boundSum_eq]
    refine Agrees.trans (.leave (Yields.any.mono fun trees mid _ => ?_))
      (.leave (Yields.any.mono fun trees mid _ => ?_))
    · cases hmid : atOp "+" mid with
      | false => exact .inl (.given_neg hmid)
      | true =>
        refine .inr (.given (fun _ => .mark (c := '+') fun _ hsum => ?_) fun h => ?_)
        · have hnone := hsum.inside rfl
          simp [hasPlus, isMark] at hnone
        · rw [hmid] at h
          cases h
    · cases hmid : atOp "+" mid && !!startsBound constAllowed (mid.drop "+".length) with
      | false => exact .inl (hstops hmid)
      | true =>
        have hitems : Yields rules (moreBounds capturesAllowed constAllowed) mid
            fun trees _ => ∀ later, startsWithPlus (trees ++ later) = true :=
          yields_plusItems (fun _ h => (Bool.and_eq_true_iff.mp h).1) hmid
        refine .inr (hitems.mono fun later _ hlater hsum => ?_)
        have hnone := hsum.inside rfl
        have hplus := hasPlus_of_starts (hlater [])
        rw [List.append_nil] at hplus
        rw [hasPlus, List.any_append, ← hasPlus, ← hasPlus, hplus, Bool.or_true] at hnone
        cases hnone

theorem Agrees.withTrait {p q : P} (h : Agrees rules p q ts (NoSum hasPlus plus))
    (reason : String) :
    Agrees rules (withTrait p reason) (withTrait q reason) ts (NoSum hasPlus plus) := by
  refine .bind_left h fun trees mid => ?_
  by_cases htrait : trees.any (isNode .bound) = true
  · rw [if_pos htrait]
    exact .empty fun hsum => by simpa using hsum
  · rw [if_neg htrait]
    exact .take nofun

theorem agrees_objectBounds :
    Agrees rules (objectBounds plus) (objectBounds !plus) ts (NoSum hasPlus plus) :=
  (agrees_boundSum false false).withTrait _

/-- What follows a path is decided by its first token. -/
theorem agrees_afterPath :
    Agrees rules (afterPath plus path) (afterPath (!plus) path) ts (NoSum startsWithPlus plus) := by
  obtain ⟨⟨children, rfl⟩, -⟩ | ⟨hpath, heq⟩ := @afterPath_cases plus path
  · exact .same
  · rw [heq, ((@afterPath_cases (!plus) path).resolve_left fun h => hpath h.1).2]
    refine .select_cons (fun _ => .same) fun _ => ?_
    cases hts : atOp "+" ts with
    | false =>
      have hnone (b : Bool) : (b && atOp "+" ts) = false := by rw [hts, Bool.and_false]
      exact .of_reads (.select_neg (hnone _) .empty) fun _ => .select_neg (hnone _) .empty
    | true =>
      cases plus with
      | false =>
        exact .of_reads (.select_neg rfl .empty) fun hsum => by
          have hnone := hsum.after rfl
          rw [hts] at hnone
          cases hnone
      | true =>
        refine .of_yields (.select_cons (fun _ => .append ?_) fun h => ?_)
        · cases hbound : atOp "+" ts && startsBound false (ts.drop 1) with
          | true =>
            refine Yields.mono (yields_plusItems (fun _ h => (Bool.and_eq_true_iff.mp h).1) ?_)
              fun items _ hitems => Yields.any.mono fun later _ _ hsum => ?_
            · exact hbound
            · have hnone := hsum.inside rfl
              rw [hitems later] at hnone
              cases hnone
          | false =>
            refine .repeated_neg hbound (.given (fun _ => .mark (c := '+') fun _ hsum => ?_)
              fun h => ?_)
            · exact nomatch hsum.inside rfl
            · rw [hts] at h
              cases h
        · rw [hts] at h
          cases h

/-- So is what follows round brackets. -/
theorem agrees_afterParens (trees : Trees) :
    Agrees rules (afterParens plus trees) (afterParens (!plus) trees) ts
      (NoSum startsWithPlus plus) := by
  have hnone (h : atOp "+" ts = false) : Reads rules plusBounds ts [] ts := (ReadsMany.done h).reads
  have hplus : Agrees rules plusBounds .empty ts (NoSum startsWithPlus true) := by
    cases hts : atOp "+" ts with
    | false => exact .of_reads (hnone hts) fun _ => .empty
    | true =>
      refine .of_yields (Yields.mono (yields_plusItems (fun _ => id) hts)
        fun items _ hitems hsum => ?_)
      have hnone := hsum.inside rfl
      rw [← List.append_nil items, hitems []] at hnone
      cases hnone
  have hempty : Agrees rules .empty plusBounds ts (NoSum startsWithPlus false) :=
    .of_reads .empty fun hsum => hnone (hsum.after rfl)
  unfold afterParens
  split
  · exact .same
  · next tree _ =>
    cases plus <;> cases isSoleBound tree
    · exact .same
    · exact hempty
    · exact .same
    · exact hplus
  · exact .same

/-! ## Labels -/

theorem isSum_of_hasPlus {children : Trees} (h : hasPlus children = true) :
    isSum (.node .type [.node .otherType children]) = true :=
  Bool.or_eq_true_iff.mpr (.inl h)

theorem hasPlus_append {front more : Trees} (h : startsWithPlus more = true) :
    hasPlus (front ++ more) = true := by
  rw [hasPlus, List.any_append, ← hasPlus, ← hasPlus, hasPlus_of_starts h, Bool.or_true]

/-- What goes on after a path is a sum. -/
theorem isSum_labelPath {front more : Trees} {path : ParseTree Part}
    (hfront : ∀ tree ∈ front, isPathNode tree = false) (hpath : isPathNode path = true)
    (hmore : startsWithPlus more = true) :
    isSum (.node .type (labelPath (front ++ path :: more))) = true := by
  rcases labelPath_cases (front ++ path :: more) with ⟨children, hone, -⟩ |
    ⟨path', joint, rest, hcall, -⟩ | ⟨-, -, heq⟩
  · rw [fromPath_append hfront hpath] at hone
    obtain ⟨-, rfl⟩ := List.cons.inj hone
    cases hmore
  · rw [fromPath_append hfront hpath] at hcall
    obtain ⟨-, rfl⟩ := List.cons.inj hcall
    cases hmore
  · rw [heq, ← List.singleton_append (l := more), ← List.append_assoc]
    exact isSum_of_hasPlus (hasPlus_append hmore)

theorem isSum_labelBoundByFor {front more : Trees} {path : ParseTree Part}
    (hfront : ∀ tree ∈ front, isPathNode tree = false) (hpath : isPathNode path = true)
    (hmore : startsWithPlus more = true) :
    isSum (.node .type (labelBoundByFor (front ++ path :: more))) = true := by
  unfold labelBoundByFor
  split
  · rw [← List.singleton_append (l := more), ← List.append_assoc]
    exact isSum_of_hasPlus (hasPlus_append hmore)
  · exact isSum_labelPath hfront hpath hmore

/-- What goes on after round brackets is a sum. -/
theorem isSum_labelParens {inside more : Trees} (hmore : startsWithPlus more = true) :
    isSum (.node .type (labelParens (.group .paren inside :: more))) = true := by
  have hplus (group : ParseTree Part) : hasPlus ([group] ++ more) = true := hasPlus_append hmore
  match inside with
  | [tree] =>
    have hne : more.isEmpty = false := by
      cases more with
      | nil => cases hmore
      | cons first rest => rfl
    rw [labelParens_singleton, hne]
    exact isSum_of_hasPlus (hplus _)
  | [] | _ :: _ :: _ =>
    have hother {group : ParseTree Part} (h : labelParens (group :: more) =
        [.node .otherType (group :: more)]) :
        isSum (.node .type (labelParens (group :: more))) = true := by
      rw [h]
      exact isSum_of_hasPlus (hplus group)
    refine hother ?_
    match more, hmore with
    | _ :: _, _ => simp [labelParens]

/-! ## Types -/

/-- What is read as the inside of a type is no sum. -/
abbrev NoSumType (plus : Bool) : Trees → List Token → Prop :=
  NoSum (fun inners => isSum (.node .type inners)) plus

theorem NoSum.of_imp {sums sums' : Trees → Bool} {trees trees' : Trees} {rest : List Token}
    (h : NoSum sums plus trees rest) (himp : sums' trees' = true → sums trees = true) :
    NoSum sums' plus trees' rest where
  inside hplus := Bool.eq_false_iff.mpr fun hsum => by
    have hnone := h.inside hplus
    rw [himp hsum] at hnone
    cases hnone
  after := h.after

theorem agrees_pathType {edit : Trees → Trees}
    (hedit : ∀ path more, isPathNode path = true → startsWithPlus more = true →
      isSum (.node .type (edit (path :: more))) = true) :
    Agrees rules (pathType plus) (pathType !plus) ts
      fun trees rest => NoSumType plus (edit trees) rest := by
  have hpath : Yields rules (anyKindOfPath false) ts fun trees _ =>
      ∃ path, trees = [path] ∧ isPathNode path = true :=
    .either (fun _ => .labelled (Yields.any.mono fun _ _ _ => ⟨_, rfl, rfl⟩)) fun _ =>
      .labelled (Yields.any.mono fun _ _ _ => ⟨_, rfl, rfl⟩)
  refine .bind (hpath.mono ?_)
  rintro _ mid ⟨path, rfl, hnode⟩
  exact agrees_afterPath.mono (Yields.any.mono fun later rest _ hsum =>
    hsum.of_imp (hedit path later hnode))

theorem agrees_boundByFor {depth : Nat} :
    Agrees (language.read depth) (.edited (boundByFor plus) labelBoundByFor)
      (.edited (boundByFor !plus) labelBoundByFor) ts (NoSumType plus) := by
  refine .edited (.append (.call fun parsed hparsed => ?_))
  have hfront := (bound_read depth ts parsed hparsed).2
  have hpath : Agrees (language.read depth) (pathType plus) (pathType !plus) parsed.rest
      fun trees rest => NoSumType plus (labelBoundByFor (parsed.trees ++ trees)) rest :=
    agrees_pathType fun path more => isSum_labelBoundByFor hfront
  exact .select_cons (fun _ => .same) fun _ => .select_cons (fun _ => hpath) fun _ => .same

theorem agrees_parenType :
    Agrees rules (parenType plus) (parenType !plus) ts (NoSumType plus) := by
  rw [parenType_eq, parenType_eq]
  refine .edited (.bind (.enclosed fun content rest _ => Yields.any.mono fun inside _ _ => ?_))
  exact (agrees_afterParens _).mono (Yields.any.mono fun later rest _ hsum =>
    hsum.of_imp isSum_labelParens)

theorem agrees_hiddenType :
    Agrees rules (hiddenType plus) (hiddenType !plus) ts (NoSumType plus) := by
  refine .labelled (.append (Yields.any.mono fun word mid _ => ?_))
  refine ((agrees_boundSum true true).withTrait _).mono (Yields.any.mono fun later rest _ hsum =>
    hsum.of_imp fun hplus => isSum_of_hasPlus ?_)
  rw [hasPlus, List.any_append, ← hasPlus, ← hasPlus, hplus, Bool.or_true]

/-- An object type with a star is kept as written. -/
theorem agrees_objectType {depth : Nat} :
    Agrees (language.read depth) (objectType plus) (objectType !plus) ts (NoSumType plus) := by
  have hsuffix (r : Rule) (ts : List Token) (parsed : Parsed Part)
      (h : language.read depth r ts = .success parsed) : parsed.rest <:+ ts :=
    isSuffix_of_read language h
  refine .labelled (.shaped (.append (.append (.word fun line mid hts => ?_))))
  refine .given (fun _ => .markAt (c := '*') fun joint ms hms => ?_) fun _ => ?_
  · subst hts hms
    refine agrees_objectBounds.mono ((Yields.isSuffix hsuffix _ ms).mono
      fun later rest hrest hsum => hsum.of_imp fun _ => ?_)
    rw [if_pos (by simp [isMark]), written_cons (hrest.trans (List.suffix_cons _ _)),
      written_cons hrest]
    exact Bool.or_eq_true_iff.mpr (.inr rfl)
  · refine agrees_objectBounds.mono ((yields_objectBounds_marks (c := '*') (by decide)).mono
      fun later rest hlater hsum => hsum.of_imp fun hplus => ?_)
    have hstar : ([.leaf (.ident "dyn" line)] ++ [] ++ later : Trees).any (isMark '*') =
        false := by
      simpa [isMark] using hlater
    rw [if_neg fun h => Bool.false_ne_true (hstar.symm.trans h)]
    refine isSum_of_hasPlus ?_
    rw [hasPlus, List.any_append, ← hasPlus, ← hasPlus, hplus, Bool.or_true]

/-- Types that are no sums are read alike where sums are allowed and where they are not. -/
theorem agrees_type {depth : Nat} :
    Agrees (language.read depth) (Language.type plus) (Language.type !plus) ts
      (NoSum (fun trees => trees.any isSum) plus) := by
  suffices hall : Agrees (language.read depth) _ _ ts (NoSumType plus) from
    .labelled (hall.mono (Yields.any.mono fun trees rest _ hsum =>
      hsum.of_imp fun h => by simpa using h))
  have hpath (path : ParseTree Part) (more : Trees) (hnode : isPathNode path = true)
      (hmore : startsWithPlus more = true) :
      isSum (.node .type (labelPath (path :: more))) = true := by
    have hfront : ∀ tree ∈ ([] : Trees), isPathNode tree = false := nofun
    exact isSum_labelPath hfront hnode hmore
  -- one line for each choice of the rule, in its order
  exact
    .select_cons (fun _ => agrees_boundByFor) fun _ =>
    .select_cons (fun _ => agrees_parenType) fun _ =>
    .select_cons (fun _ => .same) fun _ =>
    .select_cons (fun _ => .edited (agrees_pathType hpath)) fun _ =>
    .select_cons (fun _ => agrees_objectType) fun _ =>
    .select_cons (fun _ => .same) fun _ => .select_cons (fun _ => .same) fun _ =>
    .select_cons (fun _ => .same) fun _ => .select_cons (fun _ => .same) fun _ =>
    .select_cons (fun _ => agrees_hiddenType) fun _ => .same

/-- What begins with a lifetime is a sum. -/
theorem yields_type_of_lifetime (hts : atLifetime ts = true) :
    Yields rules (Language.type plus) ts fun trees _ => trees.any isSum = true := by
  have hbounds : Yields rules (boundSum true false false) ts fun trees _ =>
      hasPlus trees = true ∨ trees.any (isNode .bound) = false := by
    have hitem : Yields rules (bound false false) ts fun trees _ =>
        trees.any (isNode .bound) = false := by
      refine .select_cons (fun _ => .lifetime fun _ _ _ => rfl) fun h => ?_
      rw [hts] at h
      cases h
    refine .append (.append (hitem.mono fun first mid hfirst => ?_))
    cases hmid : atOp "+" mid && !!startsBound false (mid.drop "+".length) with
    | true =>
      refine Yields.mono (yields_plusItems (fun _ h => (Bool.and_eq_true_iff.mp h).1) hmid)
        fun items _ hitems => Yields.any.mono fun later _ _ => .inl ?_
      rw [List.append_assoc]
      exact hasPlus_append (hitems later)
    | false =>
      refine .repeated_neg hmid (.given (fun _ => .mark (c := '+') fun _ => .inl ?_) fun _ => ?_)
      · exact hasPlus_append rfl
      · exact .inr (by simpa using hfirst)
  have hobject : Yields rules (.labelled .type lifetimeObject) ts
      fun trees _ => trees.any isSum = true := by
    refine .labelled (.labelled (.bind (hbounds.mono fun trees mid htrees => ?_)))
    split
    · next htrait =>
      refine .empty ?_
      rw [List.append_nil, List.any_cons, isSum_of_hasPlus, Bool.true_or]
      exact htrees.resolve_right (by simp [htrait])
    · exact .take nofun
  intro parsed hparsed
  exact hobject parsed ((run_type_of_lifetime hts plus).symm.trans hparsed)

end Switch

/-! ## Reading again -/

section Rereading

variable {front : List Token → Prop} {extra : Nat} {plus plus' : Bool} {tree : ParseTree Part}

/-- A type is read by the production of its rule. -/
theorem exists_run_of_reads {depth : Nat} {ts rest : List Token} {trees : Trees}
    (h : Reads (language.read depth) (Language.call (.type plus)) ts trees rest) :
    ∃ less, depth = less + 1 ∧ Reads (language.read less) (Language.type plus) ts trees rest := by
  cases depth with
  | zero => cases h
  | succ less => exact ⟨less, rfl, h⟩

/-- Only a sum of bounds needs a place where there can be one. -/
theorem Rereads.atPlace (h : Rereads Closes front extra (Language.call (.type plus)) [tree])
    (hsum : isSum tree = true → plus' = true) :
    Rereads Closes front extra (Language.call (.type plus')) [tree] := by
  by_cases hplus : plus' = plus
  · exact hplus ▸ h
  · obtain rfl : plus' = !plus := by cases plus <;> cases plus' <;> simp_all
    refine ⟨h.plain, fun hus hafter => ⟨(h.reads hus hafter).1, fun depth hdepth => ?_⟩⟩
    obtain ⟨less, rfl, hread⟩ := exists_run_of_reads ((h.reads hus hafter).2 depth hdepth)
    refine .call (agrees_type _ hread ⟨fun hplus => ?_, fun _ => hafter.plus_eq_false⟩)
    subst hplus
    simpa using hsum

/-- A type that is no sum does not begin with a lifetime. -/
theorem Rereads.notAtLifetime (h : Rereads Closes front extra (Language.call (.type plus)) [tree]) :
    Rereads Closes (fun ts => front ts ∧ (isSum tree = false → atLifetime ts = false)) extra
      (Language.call (.type plus)) [tree] where
  plain := h.plain
  reads hus hafter := by
    obtain ⟨hfront, hread⟩ := h.reads hus hafter
    refine ⟨⟨hfront, fun hsum => Bool.eq_false_iff.mpr fun hlifetime => ?_⟩, hread⟩
    obtain ⟨less, -, hread⟩ := exists_run_of_reads (hread _ (Nat.le_refl _))
    have hall := yields_type_of_lifetime hlifetime _ hread
    simp [hsum] at hall

end Rereading

end DaoGen.Code
