import DaoGen.Proofs.Code.Stable

/-!
# Lists with commas

A list of members with commas between them is read member by member; a comma may end it. In a list
of arguments the lifetimes are put first, and a list that has them there is left as it is.

## Main definitions

* `commaList`: members with commas between them, and perhaps one at the end.

## Main results

* `yields_separated`: what a list is read as.
* `rereads_separated`: a list is read again if each of its members is.
* `lifetimesFirst_commaList`: the members of a list with the lifetimes first.
-/
namespace DaoGen.Code

open Code.Language

/-- Members with a comma between two neighbours, and one at the end if the list has it. -/
def commaList : Trees → Bool → Trees
  | [], _ => []
  | [tree], isEnded => tree :: if isEnded then [commaTree] else []
  | tree :: next :: rest, isEnded => tree :: commaTree :: commaList (next :: rest) isEnded

theorem commaList_cons_comma (tree : ParseTree Part) (members : Trees) (isEnded : Bool) :
    ∃ ended,
      tree :: commaTree :: commaList members isEnded = commaList (tree :: members) ended := by
  cases members with
  | nil => exact ⟨true, rfl⟩
  | cons next members => exact ⟨isEnded, rfl⟩

theorem unlinedTrees_commaList (members : Trees) (isEnded : Bool) :
    unlinedTrees (commaList members isEnded) = commaList (unlinedTrees members) isEnded := by
  fun_induction commaList members isEnded with
  | case1 => rfl
  | case2 tree isEnded => cases isEnded <;> rfl
  | case3 tree next rest isEnded ih =>
    rw [unlinedTrees, unlinedTrees, ih]
    rfl

theorem mem_commaList {members : Trees} {isEnded : Bool} {tree : ParseTree Part}
    (h : tree ∈ members) : tree ∈ commaList members isEnded := by
  fun_induction commaList members isEnded with
  | case1 => cases h
  | case2 first isEnded =>
    obtain rfl := List.mem_singleton.mp h
    exact List.mem_cons_self
  | case3 first next rest isEnded ih =>
    rcases List.mem_cons.mp h with rfl | h
    · exact List.mem_cons_self
    · exact List.mem_cons_of_mem _ (List.mem_cons_of_mem _ (ih h))

/-! ## Members -/

theorem joinMembers_eq (pairs : List (ParseTree Part × Bool)) :
    joinMembers pairs = commaList (pairs.map (·.1)) (pairs.getLast?.any (·.2)) := by
  induction pairs using joinMembers.induct with
  | case1 => rfl
  | case2 tree hasComma => rfl
  | case3 tree hasComma rest hrest ih =>
    obtain ⟨next, rest, rfl⟩ := List.exists_cons_of_ne_nil hrest
    rw [joinMembers.eq_3 _ _ _ (by simp), ih, List.getLast?_cons_cons]
    rfl

theorem map_fst_membersOf {members : Trees} (h : ∀ tree ∈ members, isMark ',' tree = false)
    (isEnded : Bool) : (membersOf (commaList members isEnded)).map (·.1) = members := by
  have hcomma : isMark ',' commaTree = true := rfl
  fun_induction commaList members isEnded with
  | case1 => rfl
  | case2 tree isEnded =>
    have htree := h tree List.mem_cons_self
    cases isEnded <;> simp [membersOf, htree, hcomma]
  | case3 tree next rest isEnded ih =>
    obtain ⟨htree, hrest⟩ := List.forall_mem_cons.mp h
    simp [membersOf, htree, hcomma, ih hrest]

theorem joinMembers_membersOf {members : Trees} (h : ∀ tree ∈ members, isMark ',' tree = false)
    (isEnded : Bool) :
    joinMembers (membersOf (commaList members isEnded)) = commaList members isEnded := by
  have hcomma : isMark ',' commaTree = true := rfl
  fun_induction commaList members isEnded with
  | case1 => rfl
  | case2 tree isEnded =>
    have htree := h tree List.mem_cons_self
    cases isEnded with
    | true =>
      simp only [if_true, membersOf, htree, hcomma, List.head?_cons, Option.any_some]
      rfl
    | false => simp [membersOf, joinMembers, htree]
  | case3 tree next rest isEnded ih =>
    obtain ⟨htree, hrest⟩ := List.forall_mem_cons.mp h
    have hne : membersOf (commaList (next :: rest) isEnded) ≠ [] := by
      have hmap := map_fst_membersOf hrest isEnded
      intro hnone
      rw [hnone] at hmap
      cases hmap
    have hmembers : membersOf (tree :: commaTree :: commaList (next :: rest) isEnded) =
        (tree, true) :: membersOf (commaList (next :: rest) isEnded) := by
      simp [membersOf, htree, hcomma]
    rw [hmembers, joinMembers.eq_3 _ _ _ hne, ih hrest]
    rfl

/-- The lifetimes of a list stand before its other members. -/
theorem lifetimesFirst_commaList {members : Trees}
    (h : ∀ tree ∈ members, isMark ',' tree = false) (isEnded : Bool) :
    ∃ ended, lifetimesFirst (commaList members isEnded) = commaList
      (members.filter isLifetimeTree ++ members.filter fun tree => !isLifetimeTree tree) ended := by
  rw [lifetimesFirst, List.partition_eq_filter_filter]
  dsimp only
  rw [joinMembers_eq]
  refine ⟨_, congrArg (commaList · _) ?_⟩
  conv_rhs => rw [← map_fst_membersOf h isEnded]
  rw [List.map_append, List.filter_map, List.filter_map]
  rfl

/-- A list with the lifetimes first is left as it is. -/
theorem lifetimesFirst_eq_self {front back : Trees}
    (hfront : ∀ tree ∈ front, isLifetimeTree tree = true)
    (hback : ∀ tree ∈ back, isLifetimeTree tree = false)
    (h : ∀ tree ∈ front ++ back, isMark ',' tree = false) (isEnded : Bool) :
    lifetimesFirst (commaList (front ++ back) isEnded) = commaList (front ++ back) isEnded := by
  obtain ⟨fs, bs, hsplit, hfs, hbs⟩ := List.map_eq_append_iff.mp (map_fst_membersOf h isEnded)
  have hfs' : ∀ member ∈ fs, isLifetimeTree member.1 = true := fun member hmember =>
    hfront _ (hfs ▸ List.mem_map_of_mem hmember)
  have hbs' : ∀ member ∈ bs, isLifetimeTree member.1 = false := fun member hmember =>
    hback _ (hbs ▸ List.mem_map_of_mem hmember)
  rw [lifetimesFirst, List.partition_eq_filter_filter, hsplit]
  dsimp only
  rw [List.filter_append, List.filter_append, List.filter_eq_self.mpr hfs',
    List.filter_eq_nil_iff.mpr fun member hmember => by simp [hbs' member hmember],
    List.filter_eq_nil_iff.mpr fun member hmember => by simp [hfs' member hmember],
    List.filter_eq_self.mpr fun member hmember => by simp [hbs' member hmember],
    List.append_nil, List.nil_append, ← hsplit, joinMembers_membersOf h isEnded]

theorem isLifetimeTree_unlined (tree : ParseTree Part) :
    isLifetimeTree tree.unlined = isLifetimeTree tree := by
  match tree with
  | .leaf (.ident _ _) | .leaf (.lifetime _) | .leaf (.punct _ _) | .leaf (.literal _)
  | .leaf (.group _ _) | .group _ _ => rfl
  | .node label _ => cases label <;> rfl

/-! ## Reading lists -/

section Lists

variable {rules : Rule → List Token → Match Part} {stop : Look} {separator item : P}
  {ts : List Token} {extra : Nat}

/-- A list is read as its members with commas between them. -/
theorem yields_separated {Q : ParseTree Part → Prop}
    (hseparator : ∀ ts, stop ts = false →
      Yields rules separator ts fun trees _ => trees = [commaTree])
    (hitem : ∀ ts, stop ts = false →
      Yields rules item ts fun trees _ => ∃ tree, trees = [tree] ∧ Q tree) :
    Yields rules (separated stop separator item) ts fun trees _ => ∃ members isEnded,
      (∀ tree ∈ members, Q tree) ∧ trees = commaList members isEnded := by
  have hone (ts : List Token) (h : stop ts = false) :
      Yields rules (item ++ .either stop .empty separator) ts fun trees rest =>
        ∃ tree, Q tree ∧ (trees = [tree] ∧ stop rest = true ∨ trees = [tree, commaTree]) := by
    refine .append ((hitem ts h).mono ?_)
    rintro _ mid ⟨tree, rfl, htree⟩
    refine .either (fun hstop => .empty ⟨tree, htree, .inl ⟨rfl, hstop⟩⟩) fun hstop => ?_
    refine (hseparator mid hstop).mono ?_
    rintro _ _ rfl
    exact ⟨tree, htree, .inr rfl⟩
  have hmany : ∀ fuel ts parsed,
      repeatMatch (fun tokens => !stop tokens)
        ((item ++ .either stop .empty separator).run rules) fuel ts = .success parsed →
      ∃ members isEnded, (∀ tree ∈ members, Q tree) ∧
        parsed.trees = commaList members isEnded := by
    intro fuel
    induction fuel with
    | zero =>
      intro ts parsed hparsed
      cases hparsed
      exact ⟨[], false, nofun, rfl⟩
    | succ fuel ih =>
      intro ts parsed hparsed
      rw [repeatMatch] at hparsed
      split at hparsed
      · next hts =>
        obtain ⟨first, more, hfirst, hmore, rfl⟩ := Match.andThen_eq_success.mp hparsed
        obtain ⟨tree, htree, htrees⟩ := hone ts (by simpa using hts) first hfirst
        have hlater : (stop first.rest = true → more.trees = []) ∧ ∃ members isEnded,
            (∀ tree ∈ members, Q tree) ∧ more.trees = commaList members isEnded := by
          split at hmore
          · refine ⟨fun hstop => ?_, ih _ _ hmore⟩
            cases fuel <;> simp [repeatMatch, hstop] at hmore <;> simp [← hmore]
          · cases hmore
            exact ⟨fun _ => rfl, [], false, nofun, rfl⟩
        obtain ⟨hstop, members, isEnded, hmembers, heq⟩ := hlater
        rw [Parsed.followedBy]
        rcases htrees with ⟨hfirst, hend⟩ | hfirst
        · refine ⟨[tree], false, by simpa using htree, ?_⟩
          rw [hfirst, hstop hend]
          rfl
        · obtain ⟨ended, hended⟩ := commaList_cons_comma tree members isEnded
          exact ⟨tree :: members, ended, List.forall_mem_cons.mpr ⟨htree, hmembers⟩,
            by rw [hfirst, heq, ← hended]; rfl⟩
      · cases hparsed
        exact ⟨[], false, nofun, rfl⟩
  intro parsed hparsed
  rw [separated, Production.run] at hparsed
  exact hmany _ _ _ hparsed

/-- A list is read again if each of its members is, before a comma and before the end. -/
theorem rereads_separated {follow front : List Token → Prop} {members : Trees}
    (hseparator : Rereads Anything (AtMark ',') extra separator [commaTree])
    (hcomma : ∀ ts, AtMark ',' ts → stop ts = false) (hstop : ∀ ts, follow ts → stop ts = true)
    (hmembers : ∀ tree ∈ members, tree.tokens ≠ [] ∧
      Rereads (fun ts => AtMark ',' ts ∨ follow ts) (fun ts => stop ts = false ∧ front ts) extra
        item [tree]) (isEnded : Bool) :
    Rereads follow (fun ts => follow ts ∨ front ts) extra (separated stop separator item)
      (commaList members isEnded) := by
  refine RereadsMany.rereads ?_
  have hnone : RereadsMany follow (fun ts => follow ts ∨ front ts) extra (fun ts => !stop ts)
      (item ++ .either stop .empty separator) [] :=
    (RereadsMany.nil fun ts hts => by simp [hstop ts hts]).mono (fun _ => id) fun _ => .inl
  -- a member, perhaps with a comma after it, and what stands after that
  have hcons {tree : ParseTree Part} {comma later : Trees} {after : List Token → Prop}
      (htree : tree.tokens ≠ [] ∧ Rereads (fun ts => AtMark ',' ts ∨ follow ts)
        (fun ts => stop ts = false ∧ front ts) extra item [tree])
      (hcomma : Rereads after (fun ts => AtMark ',' ts ∨ follow ts) extra
        (.either stop .empty separator) comma)
      (hlater : RereadsMany follow after extra (fun ts => !stop ts)
        (item ++ .either stop .empty separator) later) :
      RereadsMany follow (fun ts => follow ts ∨ front ts) extra (fun ts => !stop ts)
        (item ++ .either stop .empty separator) ([tree] ++ comma ++ later) := by
    have hfirst := htree.2.append hcomma (Nat.le_add_right _ _) (Nat.le_add_right _ _)
    have hall := RereadsMany.cons hfirst (fun ts hts => by simp [hts.1])
      (by simp [htree.1]) hlater
    exact hall.mono (fun _ => id) fun ts hts => .inr hts.2
  have hcommas {after : List Token → Prop} :
      Rereads after (fun ts => AtMark ',' ts ∨ follow ts) extra (.either stop .empty separator)
        [commaTree] :=
    (hseparator.either_neg hcomma).mono (fun _ _ => trivial) (fun _ => .inl) (Nat.le_refl _)
  fun_induction commaList members isEnded with
  | case1 => exact hnone
  | case2 tree isEnded =>
    have htree := hmembers tree List.mem_cons_self
    cases isEnded with
    | true => exact hcons htree hcommas hnone
    | false =>
      have hend : Rereads follow (fun ts => AtMark ',' ts ∨ follow ts) extra
          (.either stop .empty separator) [] :=
        (Rereads.empty.either_pos hstop).mono (fun _ => id) (fun _ => .inr) (Nat.le_refl _)
      exact hcons htree hend ((RereadsMany.nil fun ts hts => by simp [hstop ts hts]))
  | case3 tree next rest isEnded ih =>
    obtain ⟨htree, hrest⟩ := List.forall_mem_cons.mp hmembers
    exact hcons htree hcommas (ih hrest)

/-- What reads one member reads it again, before a comma and before the end of the list. -/
def ReadsMember (rules : Rule → List Token → Match Part) (stop : Look)
    (follow front : List Token → Prop) (extra : Nat) (item : P) (ts : List Token) : Prop :=
  Yields rules item ts fun trees _ => ∃ tree, trees = [tree] ∧ isMark ',' tree = false ∧
    (tree.IsLegible → tree.unlined.tokens ≠ [] ∧
      Rereads (fun ts => AtMark ',' ts ∨ follow ts) (fun ts => stop ts = false ∧ front ts) extra
        item [tree.unlined])

variable {follow front : List Token → Prop}

/-- A list is stable if each of its members is read again. -/
theorem stable_separated
    (hseparator : Rereads Anything (AtMark ',') extra separator [commaTree])
    (hyields : ∀ ts, stop ts = false →
      Yields rules separator ts fun trees _ => trees = [commaTree])
    (hcomma : ∀ ts, AtMark ',' ts → stop ts = false) (hstop : ∀ ts, follow ts → stop ts = true)
    (hitem : ∀ ts, stop ts = false → ReadsMember rules stop follow front extra item ts) :
    Stable rules ParseTree.IsLegible (fun _ => follow) (fun _ us => follow us ∨ front us) 0 extra
      (separated stop separator item) ts := by
  refine (yields_separated hyields hitem).mono ?_
  rintro _ _ ⟨members, isEnded, hmembers, rfl⟩ hlegible
  rw [unlinedTrees_commaList]
  refine ⟨Nat.zero_le _, rereads_separated hseparator hcomma hstop ?_ isEnded⟩
  rw [unlinedTrees_eq_map, List.forall_mem_map]
  exact fun tree htree => (hmembers tree htree).2 (hlegible tree (mem_commaList htree))

/-- A stable production of single trees reads members. -/
theorem readsMember_of_stable {before ahead : Likeness}
    (hone : Yields rules item ts fun trees _ => ∃ tree, trees = [tree] ∧ isMark ',' tree = false)
    (h : Stable rules ParseTree.IsLegible before ahead 1 extra item ts)
    (hbefore : ∀ rest us, AtMark ',' us ∨ follow us → before rest us)
    (hahead : ∀ us, ahead ts us → stop us = false ∧ front us) :
    ReadsMember rules stop follow front extra item ts := by
  intro parsed hparsed
  obtain ⟨tree, htree, hcomma⟩ := hone parsed hparsed
  refine ⟨tree, htree, hcomma, fun hlegible => ?_⟩
  obtain ⟨hsize, hreads⟩ := h parsed hparsed (by simpa [htree] using hlegible)
  rw [htree] at hsize hreads
  refine ⟨fun hnone => ?_, hreads.mono (hbefore _) hahead (Nat.le_refl _)⟩
  simp [unlinedTrees, hnone, sizeOfTokens] at hsize

/-- So is one whose lifetimes are put first. -/
theorem stable_lifetimesFirst
    (hseparator : Rereads Anything (AtMark ',') extra separator [commaTree])
    (hyields : ∀ ts, atOp ">" ts = false →
      Yields rules separator ts fun trees _ => trees = [commaTree])
    (hitem : ∀ ts, atOp ">" ts = false →
      ReadsMember rules (atOp ">") (AtMark '>') front extra item ts) :
    Stable rules ParseTree.IsLegible (fun _ => AtMark '>') (fun _ us => AtMark '>' us ∨ front us) 0
      extra (.edited (separated (atOp ">") separator item) lifetimesFirst) ts := by
  refine Yields.edited ((yields_separated hyields hitem).mono ?_)
  rintro _ _ ⟨members, isEnded, hmembers, rfl⟩ hlegible
  obtain ⟨ended, hended⟩ :=
    lifetimesFirst_commaList (fun tree htree => (hmembers tree htree).1) isEnded
  rw [hended] at hlegible ⊢
  have hmem : ∀ tree ∈ members.filter isLifetimeTree ++
      members.filter fun tree => !isLifetimeTree tree, tree ∈ members := fun tree htree => by
    rcases List.mem_append.mp htree with h | h <;> exact (List.mem_filter.mp h).1
  rw [unlinedTrees_commaList, unlinedTrees_append]
  refine ⟨Nat.zero_le _, Rereads.edited (rereads_separated hseparator ?_ ?_ ?_ ended)
    (lifetimesFirst_eq_self ?_ ?_ ?_ ended) rfl⟩
  · rintro _ ⟨joint, later, rfl⟩
    simp [atOp, takeOperator]
  · rintro _ ⟨joint, later, rfl⟩
    simp [atOp, takeOperator]
  · rw [← unlinedTrees_append, unlinedTrees_eq_map, List.forall_mem_map]
    exact fun tree htree =>
      (hmembers tree (hmem tree htree)).2 (hlegible tree (mem_commaList htree))
  · rw [unlinedTrees_eq_map, List.forall_mem_map]
    exact fun tree htree => (isLifetimeTree_unlined tree).trans (List.mem_filter.mp htree).2
  · rw [unlinedTrees_eq_map, List.forall_mem_map]
    exact fun tree htree => by
      simpa [isLifetimeTree_unlined] using (List.mem_filter.mp htree).2
  · rw [← unlinedTrees_append, unlinedTrees_eq_map, List.forall_mem_map]
    exact fun tree htree =>
      (isMark_unlined ',' tree).trans (hmembers tree (hmem tree htree)).1

end Lists

end DaoGen.Code
