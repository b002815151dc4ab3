import DaoGen.Proofs.Code.TypeEdges

/-!
# Bounds are read again

A bound is read again where what stands after it does not go on with it. The rules that a bound
calls are assumed to be stable; a path with an empty list of arguments before round brackets is
written without it.

## Main definitions

* `RulesStable`: the rules that types are made of are stable.

## Main results

* `stable_chained`: a sum of bounds is stable.
* `stable_bound`: so is a bound.
-/
namespace DaoGen.Code

open Code.Language

/-! ## The rules of types -/

/-- No path goes on with the tokens ahead. -/
structure EndsPath (after : List Token) : Prop where
  arguments : atArguments false after = false
  names : (atOp "::" after && !third (atGroup .paren) after) = false

theorem Ends.endsPath {rest after : List Token} (h : Ends rest after) : EndsPath after where
  arguments := by simp [atArguments, h.angle, h.colons]
  names := by simp [h.colons]

/-- A production reads a path, and reads it again, also without an empty list of arguments after its
last name. -/
def ReadsPath (rules : Rule → List Token → Match Part) (extra : Nat) (p : P) (ts : List Token) :
    Prop :=
  Yields rules p ts fun trees _ => ∃ path, trees = [path] ∧ isNode .path path = true ∧
    ∀ tree, tree = path ∨ tree = dropEmptyArguments path → tree.IsLegible →
      tree.unlined.tokens ≠ [] ∧ Rereads EndsPath (SameHead ts) extra p [tree.unlined]

/-- Whether a tree is a path of either kind. -/
def isPathNode (tree : ParseTree Part) : Bool := isNode .path tree || isNode .qualifiedPath tree

/-- A part of a list of parameters is legible if it is also no part of a writable receiver. -/
def IsParameterLegible (tree : ParseTree Part) : Prop :=
  tree.IsLegible ∧ isWord "mut" tree = false

/-- The rules that types are made of are stable. Of what they read only the kinds of some trees
matter, and what stands between the brackets of a bound. -/
structure RulesStable (rules : Rule → List Token → Match Part) : Prop where
  suffix : ∀ r ts parsed, rules r ts = .success parsed → parsed.rest <:+ ts
  types : TypesHave rules fun tree => isNode .type tree = true
  type : ∀ plus ts, Stable rules ParseTree.IsLegible Ends SameHead 1 2 (call (.type plus)) ts
  path : ∀ ts, ReadsPath rules 1 (call .path) ts
  binders : ∀ ts, Stable rules ParseTree.IsLegible Unlike SameHead 1 1 (call .binders) ts
  pointerParameters : ∀ isFirst ts,
    Stable rules IsParameterLegible Ended Unlike 0 3 (call (.pointerParameters isFirst)) ts
  bound : ∀ ts parsed, rules .binders ts = .success parsed →
    parsed.trees.head?.any (isWord "for") = true ∧ ∀ tree ∈ parsed.trees, isPathNode tree = false
  brackets : ∀ plus ts parsed inside, rules (.type plus) ts = .success parsed →
    parsed.trees = [.node .type [.node .boundType [.group .paren inside]]] → AreLegible inside →
      (∃ children, inside = [.node .bound children]) ∧
        Rereads Nothing Anything 2 insideParens (unlinedTrees inside)

variable {rules : Rule → List Token → Match Part} {ts : List Token} {extra : Nat}

/-! ## Chains -/

section Chains

variable {legible : ParseTree Part → Prop} {stop : Look} {item : P} {follow after : Likeness}

/-- What stands after an item of a chain. -/
def AfterItem (stop : Look) (after : Likeness) (ts us : List Token) : Prop :=
  after ts us ∧ atOp "+" us = atOp "+" ts ∧
    (atOp "+" ts = true → stop (us.drop 1) = stop (ts.drop 1))

/-- The items of a chain after the first one. -/
theorem stable_laterItems
    (hrules : ∀ r ts parsed, rules r ts = .success parsed → parsed.rest <:+ ts)
    (hstop : IsHeadLook stop)
    (hplus : ∀ ts us, AtMark '+' ts → AtMark '+' us → after ts us)
    (hitem : ∀ ts, Stable rules legible after SameHead 1 extra item ts) :
    Stable rules legible (AfterItem stop after) (AfterItem stop after) 0 extra
      (.repeated (fun tokens => atOp "+" tokens && !stop (tokens.drop "+".length))
        (Language.op "+" ++ item)) ts := by
  refine .repeated rfl ?_ (fun _ _ _ => id) (fun ts _ => ?_) fun ts _ => .op_append hrules "+"
  · rintro ts us ⟨-, hsame, hdrop⟩
    rw [hsame]
    cases hts : atOp "+" ts with
    | false => rfl
    | true => exact congrArg (true && !·) (hdrop hts)
  · have hnext : Stable rules legible (AfterItem stop after) _ (1 + 1) extra
        (Language.op "+" ++ item) ts :=
      (Stable.mark (c := '+') (by decide)).append
        (fun ms => (hitem ms).mono (fun _ _ h => h.1) (fun _ => id) (Nat.le_refl _) (Nat.le_refl _))
        (Nat.le_add_right _ _) (Nat.le_add_right _ _)
    refine hnext.mono (fun _ _ => id) ?_ (by decide) (Nat.le_refl _)
    rintro _ ⟨joint, rest, joint', later, rfl, rfl, hsame⟩
    exact ⟨hplus _ _ ⟨joint, rest, rfl⟩ ⟨joint', later, rfl⟩, by simp [atOp, takeOperator],
      fun _ => (hstop _ _ hsame).symm⟩

/-- What stands after a chain, where it ends. -/
theorem stable_lastPlus
    (hplus : ∀ ts us, AtMark '+' ts → AtMark '+' us → after ts us)
    (hfollow : ∀ ts us, follow ts us → after ts us ∧
      (atOp "+" us = true → atOp "+" ts = true) ∧ (stop ts = true → stop us = true))
    (hend : (atOp "+" ts && !stop (ts.drop 1)) = false) :
    Stable rules legible follow (AfterItem stop after) 0 extra (optOp "+") ts := by
  refine .given (fun us h => h.2.1) (fun hts => ?_) fun hts us hus => ?_
  · have hstop : stop (ts.drop 1) = true := by simpa [hts] using hend
    refine (Stable.mark (c := '+') (by decide)).mono (fun _ _ => id) ?_ (Nat.zero_le _)
      (Nat.le_refl _)
    rintro _ ⟨joint, rest, joint', later, rfl, rfl, hlater⟩
    refine ⟨hplus _ _ ⟨joint, rest, rfl⟩ ⟨joint', later, rfl⟩, by simp [atOp, takeOperator],
      fun _ => ?_⟩
    exact ((hfollow rest later hlater).2.2 hstop).trans hstop.symm
  · obtain ⟨hafter, hsame, -⟩ := hfollow ts us hus
    have hus : atOp "+" us = false := Bool.eq_false_iff.mpr fun h => by simp [hsame h] at hts
    exact ⟨hafter, hus.trans hts.symm, fun h => by simp [hts] at h⟩

/-- After the later items of a chain only a plus sign that ends it can stand. -/
theorem yields_laterItems
    (hrules : ∀ r ts parsed, rules r ts = .success parsed → parsed.rest <:+ ts)
    (hplus : ∀ ts us, AtMark '+' ts → AtMark '+' us → after ts us)
    (hfollow : ∀ ts us, follow ts us → after ts us ∧
      (atOp "+" us = true → atOp "+" ts = true) ∧ (stop ts = true → stop us = true)) :
    Yields rules (.repeated (fun tokens => atOp "+" tokens && !stop (tokens.drop "+".length))
      (Language.op "+" ++ item)) ts fun _ ms =>
        Stable rules legible follow (AfterItem stop after) 0 extra (optOp "+") ms :=
  (Yields.repeated_stops rfl fun _ _ => .op_append hrules "+").mono fun _ _ hms =>
    stable_lastPlus hplus hfollow hms

/-- The items of a chain after the first one, and the plus sign that may end it. -/
theorem stable_chainEnd
    (hrules : ∀ r ts parsed, rules r ts = .success parsed → parsed.rest <:+ ts)
    (hstop : IsHeadLook stop)
    (hplus : ∀ ts us, AtMark '+' ts → AtMark '+' us → after ts us)
    (hfollow : ∀ ts us, follow ts us → after ts us ∧
      (atOp "+" us = true → atOp "+" ts = true) ∧ (stop ts = true → stop us = true))
    (hitem : ∀ ts, Stable rules legible after SameHead 1 extra item ts) :
    Stable rules legible follow (AfterItem stop after) 0 extra
      (.repeated (fun tokens => atOp "+" tokens && !stop (tokens.drop "+".length))
        (Language.op "+" ++ item) ++ optOp "+") ts :=
  (stable_laterItems hrules hstop hplus hitem).append_at (yields_laterItems hrules hplus hfollow)
    (Nat.le_add_right _ _) (Nat.le_add_right _ _)

/-- A chain of items is stable. -/
theorem stable_chained
    (hrules : ∀ r ts parsed, rules r ts = .success parsed → parsed.rest <:+ ts)
    (hstop : IsHeadLook stop)
    (hplus : ∀ ts us, AtMark '+' ts → AtMark '+' us → after ts us)
    (hfollow : ∀ ts us, follow ts us → after ts us ∧
      (atOp "+" us = true → atOp "+" ts = true) ∧ (stop ts = true → stop us = true))
    (hitem : ∀ ts, Stable rules legible after SameHead 1 extra item ts) :
    Stable rules legible follow SameHead 1 extra (chained "+" stop item) ts := by
  have hfirst : Stable rules legible (AfterItem stop after) SameHead 1 extra item ts :=
    (hitem ts).mono (fun _ _ h => h.1) (fun _ => id) (Nat.le_refl _) (Nat.le_refl _)
  have hitems := hfirst.append (fun _ => stable_laterItems hrules hstop hplus hitem)
    (Nat.le_add_right _ _) (Nat.le_add_right _ _)
  exact hitems.append_at (.append (Yields.any.mono fun _ _ _ =>
    yields_laterItems hrules hplus hfollow)) (Nat.le_add_right _ _) (Nat.le_add_right _ _)

/-- A chain may be empty where it would end. -/
theorem stable_chainUpTo
    (hrules : ∀ r ts parsed, rules r ts = .success parsed → parsed.rest <:+ ts)
    (hstop : IsHeadLook stop)
    (hplus : ∀ ts us, AtMark '+' ts → AtMark '+' us → after ts us)
    (hfollow : ∀ ts us, follow ts us → after ts us ∧
      (atOp "+" us = true → atOp "+" ts = true) ∧ (stop ts = true → stop us = true))
    (hitem : ∀ ts, Stable rules legible after SameHead 1 extra item ts) :
    Stable rules legible follow (fun ts us => stop us = stop ts) 0 extra (chainUpTo "+" stop item)
      ts := by
  refine .either (fun _ => id) (fun hts => ?_) fun _ => ?_
  · refine Stable.empty.mono (fun _ _ => id) (fun us hus => ?_) (Nat.le_refl _) (Nat.le_refl extra)
    exact ((hfollow ts us hus).2.2 hts).trans hts.symm
  · exact (stable_chained hrules hstop hplus hfollow hitem).mono (fun _ _ => id)
      (fun us hus => (hstop ts us hus).symm) (Nat.zero_le _) (Nat.le_refl _)

end Chains

/-! ## Types in lists -/

theorem rereads_comma {follow : List Token → Prop} :
    Rereads follow (AtMark ',') extra (Language.op ",") [commaTree] :=
  (rereads_mark (c := ',') (by decide)).mono (fun _ => id) (fun _ => MarkThen.atMark)
    (Nat.le_refl _)

theorem yields_comma : Yields rules (Language.op ",") ts fun trees _ => trees = [commaTree] :=
  .mark (c := ',') fun _ => rfl

/-- A type is a member of a list wherever the list does not end. -/
theorem readsMember_type (hrules : RulesStable rules) {stop : Look} (hstop : IsHeadLook stop)
    {follow : List Token → Prop} (hfollow : ∀ ts, follow ts → Closes ts) (hts : stop ts = false) :
    ReadsMember rules stop follow Anything 2 (call (.type true)) ts := by
  refine readsMember_of_stable ?_ (hrules.type true ts) ?_ fun us hus =>
    ⟨(hstop ts us hus).symm.trans hts, trivial⟩
  · refine .call fun parsed hparsed => ?_
    obtain ⟨tree, htree, hlabel⟩ := hrules.types true ts parsed hparsed
    match tree, hlabel with
    | .node _ _, _ => exact ⟨_, htree, rfl⟩
  · rintro rest us (hcomma | hus)
    · exact (closes_mark (by decide) hcomma).ends rest
    · exact (hfollow us hus).ends rest

/-- Types with commas between them that fill a group. -/
theorem stable_types (hrules : RulesStable rules) :
    Stable rules ParseTree.IsLegible Ended Unlike 0 2 (commaSeparated (call (.type true))) ts := by
  have hlist : Stable rules ParseTree.IsLegible (fun _ => Nothing)
      (fun _ us => Nothing us ∨ Anything us) 0 2 (commaSeparated (call (.type true))) ts := by
    refine stable_separated rereads_comma (fun _ _ => yields_comma) ?_ ?_ fun ts hts =>
      readsMember_type hrules isHeadLook_atEnd ?_ hts
    · rintro _ ⟨joint, rest, rfl⟩
      rfl
    · rintro _ rfl
      rfl
    · rintro _ rfl
      exact closes_nil
  exact hlist.mono (fun _ _ => id) (fun _ _ => trivial) (Nat.le_refl _) (Nat.le_refl _)

/-! ## Paths of traits -/

/-- What is in round brackets is legible if its parts are. -/
theorem legible_of_parens (trees : Trees)
    (h : (ParseTree.group .paren trees : ParseTree Part).IsLegible) :
    ∀ tree ∈ trees, tree.IsLegible :=
  areLegible_iff_forall.mp (areLegible_of_group (by decide) h)

/-- The result of a function, after an arrow. -/
theorem stable_result (hrules : RulesStable rules) :
    Stable rules ParseTree.IsLegible Ends (fun ts us => atOp "->" us = atOp "->" ts) 0 0
      (.given (atOp "->") (Language.op "->" ++ call (.type false))) ts := by
  refine .given (fun _ => id) (fun hts => ?_) fun hts us hus => hus.arrow.trans hts.symm
  have harrow : Stable rules ParseTree.IsLegible SameHead
      (fun ts us => SameHead ts us ∧ atOp "->" us = true) 1 0 (Language.op "->") ts :=
    (Stable.op (by decide)).mono (fun _ _ _ => trivial) (fun _ => id) (Nat.le_refl _)
      (Nat.le_refl _)
  refine (harrow.append (fun rest => hrules.type false rest) (Nat.le_add_right _ _)
    (by decide)).mono (fun _ _ => id) ?_ (Nat.zero_le _) (Nat.le_refl _)
  exact fun us hus => hus.2.trans hts.symm

/-- The arguments of a trait for functions. -/
theorem stable_parenArguments (hrules : RulesStable rules) :
    Stable rules ParseTree.IsLegible Ends (fun ts us => SameHead ts us ∧ atGroup .paren us = true) 1
      0 parenArguments ts := by
  have hgroup : Stable rules ParseTree.IsLegible (fun ts us => atOp "->" us = atOp "->" ts)
      (fun ts us => SameHead ts us ∧ atGroup .paren us = true) 1 0
        (parens (commaSeparated (call (.type true)))) ts :=
    (Stable.enclosed legible_of_parens (fun _ => stable_types hrules) (by decide)).mono
      (fun _ _ _ => trivial) (fun _ => id) (Nat.le_refl _) (Nat.le_refl _)
  exact hgroup.append (fun _ => stable_result hrules) (Nat.le_add_right _ _) (Nat.le_add_right _ _)

theorem endsPath_of_atGroup {us : List Token} (h : atGroup .paren us = true) :
    EndsPath us ∧ atOp "::" us = false := by
  match us, h with
  | .group _ _ :: _, _ =>
    have hcolons : ∀ rest, atOp "::" (.group .paren rest :: us) = false := fun _ => by
      simp [atOp, takeOperator]
    exact ⟨⟨by simp [atArguments, atOp, takeOperator], by simp [atOp, takeOperator]⟩,
      by simp [atOp, takeOperator]⟩

/-! ### Empty lists of arguments -/

theorem isEmptyArguments_unlined (tree : ParseTree Part) :
    isEmptyArguments tree.unlined = isEmptyArguments tree := by
  cases tree with
  | leaf | group => rfl
  | node label children =>
    cases label <;> try rfl
    rw [ParseTree.unlined, isEmptyArguments, isEmptyArguments, unlinedTrees_eq_map, List.all_map]
    refine congrArg _ (funext fun tree => ?_)
    cases tree <;> rfl

theorem takesParens_unlined (path : ParseTree Part) :
    takesParens [path.unlined] = takesParens [path] := by
  cases path with
  | leaf | group => rfl
  | node label children =>
    cases label <;> try rfl
    rw [ParseTree.unlined, takesParens, takesParens, unlinedTrees_eq_map, List.getLast?_map]
    rcases children.getLast? with _ | _ | _ | ⟨label, names⟩ <;> try rfl
    cases label <;> try rfl
    rw [Option.map_some, ParseTree.unlined]
    dsimp only
    rw [any_unlinedTrees fun tree => by rw [isNode_unlined, isEmptyArguments_unlined]]

/-- A path that ends in a name, without an empty list of arguments after it. -/
theorem dropEmptyArguments_concat (front names : Trees) :
    dropEmptyArguments (.node .path (front ++ [.node .segment names])) = .node .path
      (front ++ [.node .segment (names.filter fun tree => !isEmptyArguments tree)]) := by
  rw [dropEmptyArguments, List.getLast?_concat]
  dsimp only
  rw [List.dropLast_concat]

/-- A tree ends in a name of a path, or there are no arguments to drop. -/
theorem dropEmptyArguments_cases (path : ParseTree Part) :
    (∃ front names, path = .node .path (front ++ [.node .segment names])) ∨
      dropEmptyArguments path = path ∧ dropEmptyArguments path.unlined = path.unlined ∧
        takesParens [path] = false := by
  cases path with
  | leaf | group => exact .inr ⟨rfl, rfl, rfl⟩
  | node label children =>
    cases label <;> try exact .inr ⟨rfl, rfl, rfl⟩
    rcases List.eq_nil_or_concat children with rfl | ⟨front, last, rfl⟩
    · exact .inr ⟨rfl, rfl, rfl⟩
    · rw [List.concat_eq_append, ParseTree.unlined, unlinedTrees_append, dropEmptyArguments,
        dropEmptyArguments, takesParens, unlinedTrees, unlinedTrees, List.getLast?_concat,
        List.getLast?_concat]
      cases last with
      | leaf | group => exact .inr ⟨rfl, rfl, rfl⟩
      | node label names =>
        cases label <;> try exact .inr ⟨rfl, rfl, rfl⟩
        exact .inl ⟨front, names, rfl⟩

theorem dropEmptyArguments_unlined (path : ParseTree Part) :
    (dropEmptyArguments path).unlined = dropEmptyArguments path.unlined := by
  rcases dropEmptyArguments_cases path with ⟨front, names, rfl⟩ | ⟨hself, hself', -⟩
  · simp only [dropEmptyArguments_concat, ParseTree.unlined, unlinedTrees_eq_map, List.map_append,
      List.map_cons, List.map_nil, List.filter_map, Function.comp_def, isEmptyArguments_unlined]
  · rw [hself, hself']

/-- A path without an empty list of arguments stays as it is. -/
theorem dropEmptyArguments_idem (path : ParseTree Part) :
    dropEmptyArguments (dropEmptyArguments path) = dropEmptyArguments path := by
  rcases dropEmptyArguments_cases path with ⟨front, names, rfl⟩ | ⟨hself, -, -⟩
  · simp [dropEmptyArguments_concat]
  · rw [hself, hself]

theorem takesParens_dropEmptyArguments {path : ParseTree Part} (h : takesParens [path] = true) :
    takesParens [dropEmptyArguments path] = true := by
  rcases dropEmptyArguments_cases path with ⟨front, names, rfl⟩ | ⟨hself, -, -⟩
  · rw [takesParens, List.getLast?_concat] at h
    rw [dropEmptyArguments_concat, takesParens, List.getLast?_concat]
    have hnone : (names.any fun tree => isNode .arguments tree && !isEmptyArguments tree) = false :=
      by simpa using h
    have hfewer : ((names.filter fun tree => !isEmptyArguments tree).any fun tree =>
        isNode .arguments tree && !isEmptyArguments tree) = false := by
      simp only [List.any_filter, ← hnone]
      exact congrArg _ (funext fun tree => by cases isEmptyArguments tree <;> simp)
    simp [hfewer]
  · rwa [hself]

/-- The path of a trait is read again, with its arguments if there are no empty ones before them. -/
theorem rereads_boundPath {path : ParseTree Part} {later : Trees} {follow front : List Token → Prop}
    (hpath : Rereads EndsPath front 1 (call .path) [path])
    (hlater : Rereads follow EndsPath 1
      (if takesParens [path] then
        .given atParenArguments (.edited (optOp "::") (fun _ => []) ++ parenArguments)
      else .empty) later)
    (hempty : later = [] ∨ dropEmptyArguments path = path) :
    Rereads follow front 1 boundPath (path :: later) := by
  refine Rereads.edited (hpath.bind hlater (Nat.le_add_right _ _) (Nat.le_add_right _ _)) ?_ rfl
  rcases hempty with rfl | hempty
  · rfl
  · cases later with
    | nil => rfl
    | cons next later => exact congrArg (· :: next :: later) hempty

theorem stable_boundPath (hrules : RulesStable rules) :
    Stable rules ParseTree.IsLegible Ends SameHead 1 1 boundPath ts := by
  refine Yields.edited (Yields.bind ((hrules.path ts).mono ?_))
  rintro _ mid ⟨path, rfl, -, hpath⟩
  -- without arguments in round brackets the path is written as it is
  have hplain (h : takesParens [path] = true → atParenArguments mid = false) :
      (∀ tree ∈ [path], tree.IsLegible) → 1 ≤ sizeOfTokens (tokensOf (unlinedTrees [path])) ∧
        Rereads (Ends mid) (SameHead ts) 1 boundPath (unlinedTrees [path]) := by
    intro hlegible
    obtain ⟨hne, hreads⟩ := hpath path (.inl rfl) (hlegible path List.mem_cons_self)
    refine ⟨by simpa [unlinedTrees] using one_le_sizeOfTokens hne, ?_⟩
    refine rereads_boundPath hreads (?_ : Rereads _ _ _ _ []) (.inl rfl)
    have hnone : ∀ us, Ends mid us → atParenArguments us = false := fun us hus => by
      simp [atParenArguments, hus.parens, hus.colons]
    split
    · exact (Rereads.given_neg hnone).mono (fun _ => id) (fun _ hus => hus.endsPath)
        (Nat.le_refl _)
    · exact Rereads.empty.mono (fun _ => id) (fun _ hus => hus.endsPath) (Nat.le_refl 1)
  split
  · next htakes =>
    refine Yields.given (fun _ => ?_) fun h => hplain fun _ => h
    refine .append (.edited (Yields.any.mono fun _ ms _ => ?_))
    intro args hargs hlegible
    have hstable := stable_parenArguments hrules args hargs
    cases hlater : args.trees with
    | nil =>
      rw [hlater] at hstable
      obtain ⟨hsize, -⟩ := hstable nofun
      simp [unlinedTrees, sizeOfTokens] at hsize
    | cons first others =>
      rw [hlater] at hstable hlegible
      obtain ⟨hdropped, hothers⟩ := List.forall_mem_cons.mp hlegible
      obtain ⟨hne, hreads⟩ := hpath _ (.inr rfl) hdropped
      obtain ⟨-, hargs⟩ := hstable hothers
      refine ⟨?_, rereads_boundPath hreads ?_ (.inr ?_)⟩
      · change 1 ≤ sizeOfTokens (tokensOf ((dropEmptyArguments path).unlined :: _))
        rw [tokensOf_cons, sizeOfTokens_append]
        exact (one_le_sizeOfTokens hne).trans (Nat.le_add_right _ _)
      · rw [takesParens_unlined, takesParens_dropEmptyArguments htakes, if_pos rfl]
        have hcolons : Rereads (fun us => atGroup .paren us = true)
            (fun us => atGroup .paren us = true) 1 (.edited (optOp "::") fun _ => []) [] :=
          (Rereads.given_neg fun us hus => (endsPath_of_atGroup hus).2).edited rfl rfl
        have hboth := hcolons.append (hargs.mono (fun _ => id) (fun _ hus => hus.2)
          (Nat.le_refl _)) (Nat.le_add_right _ _) (by decide)
        exact (hboth.either_pos fun us hus => by simp [atParenArguments, hus]).mono (fun _ => id)
          (fun us hus => (endsPath_of_atGroup hus).1) (Nat.le_refl _)
      · rw [← dropEmptyArguments_unlined, dropEmptyArguments_idem]
  · next htakes => exact .empty (hplain fun h => absurd h htakes)

/-! ## Bounds -/

/-- A mark of constants is not legible, so none is read. -/
theorem stable_constMark (constAllowed : Bool) :
    Stable rules ParseTree.IsLegible SameHead SameHead 0 extra (constMark constAllowed) ts := by
  have hmark {p q : P} : Stable rules ParseTree.IsLegible SameHead SameHead 0 extra
      (.labelled .constMark p ++ q) ts :=
    .of_illegible (.append (.labelled (Yields.any.mono fun trees _ _ =>
      Yields.any.mono fun _ _ _ => ⟨.node .constMark trees, List.mem_cons_self, id⟩)))
  refine .select_cons (fun us hus => (isHeadLook_atGroup .bracket ts us hus).symm) (fun _ => hmark)
    fun _ => .select_cons (fun us hus => (isHeadLook_atWord "const" ts us hus).symm)
      (fun _ => hmark) fun _ => .empty

/-- A production of tokens that are seen by their heads, or nothing. -/
theorem Stable.optional {look : Look} {p : P} (hlook : IsHeadLook look) {size : Nat}
    (h : Stable rules ParseTree.IsLegible SameHead SameHead size extra p ts) :
    Stable rules ParseTree.IsLegible SameHead SameHead 0 extra (.given look p) ts :=
  .given (fun us hus => (hlook ts us hus).symm)
    (fun _ => h.mono (fun _ _ => id) (fun _ => id) (Nat.zero_le _) (Nat.le_refl _))
    fun _ _ => id

theorem Stable.sameHead_op {text : String} (h : isMarked text = true) {follow : Likeness} :
    Stable rules ParseTree.IsLegible follow SameHead 1 extra (Language.op text) ts :=
  (Stable.op h).mono (fun _ _ _ => trivial) (fun _ h => h.1) (Nat.le_refl _) (Nat.le_refl _)

theorem Stable.sameHead_word {text : String} {follow : Likeness} :
    Stable rules ParseTree.IsLegible follow SameHead 1 extra (Language.word text) ts :=
  Stable.word.mono (fun _ _ _ => trivial) (fun _ h => h.1) (Nat.le_refl _) (Nat.le_refl _)

theorem stable_traitBound (hrules : RulesStable rules) (constAllowed : Bool) :
    Stable rules ParseTree.IsLegible Ends SameHead 1 1 (traitBound constAllowed) ts := by
  have hbinders (ts : List Token) : Stable rules ParseTree.IsLegible SameHead SameHead 1 1
      (call .binders) ts :=
    (hrules.binders ts).mono (fun _ _ _ => trivial) (fun _ => id) (Nat.le_refl _) (Nat.le_refl _)
  have hrefusal {follow front : Likeness} (ts : List Token) :
      Stable rules ParseTree.IsLegible follow front 0 1 bindersRefusal ts := .refuse
  have hnext (isBound : Bool) (ms : List Token) : Stable rules ParseTree.IsLegible Ends SameHead 1 1
      (constMark constAllowed ++
        .given (atOp "?") (Language.op "?" ++
          if isBound then .given (atWord "for") (call .binders ++ bindersRefusal)
          else bindersRefusal) ++ boundPath) ms := by
    have hmaybe (ms : List Token) : Stable rules ParseTree.IsLegible SameHead SameHead 0 1
        (.given (atOp "?") (Language.op "?" ++
          if isBound then .given (atWord "for") (call .binders ++ bindersRefusal)
          else bindersRefusal)) ms := by
      have hrest (rest : List Token) : Stable rules ParseTree.IsLegible SameHead SameHead 0 1
          (if isBound then .given (atWord "for") (call .binders ++ bindersRefusal)
            else bindersRefusal) rest := by
        cases isBound with
        | true =>
          exact .optional (isHeadLook_atWord "for")
            ((hbinders rest).append hrefusal (Nat.le_add_right _ _) (Nat.le_add_right _ _))
        | false => exact hrefusal rest
      exact .optional (isHeadLook_atOp "?" rfl) ((Stable.sameHead_op (by decide)).append
        hrest (Nat.le_add_right _ _) (Nat.le_add_right _ _))
    exact ((stable_constMark constAllowed).append hmaybe (Nat.le_add_right _ _)
      (Nat.le_add_right _ _)).append (fun rest => stable_boundPath hrules) (Nat.le_add_right _ _)
        (Nat.le_add_right _ _)
  have hfor : Stable rules ParseTree.IsLegible SameHead SameHead 0 1
      (.given (atWord "for") (call .binders)) ts :=
    .optional (isHeadLook_atWord "for") (hbinders ts)
  refine hfor.bind (Yields.any.mono fun trees ms _ _ => ⟨?_, hnext trees.isEmpty ms⟩)
    (Nat.le_add_right _ _) (Nat.le_add_right _ _)
  cases trees <;> rfl

/-- A name that a hidden type uses. -/
def capturedName : P :=
  select [(atLifetime, lifetime), (atName, name), (atWord "Self", word "Self")]
    (noneOf [.lifetime, .name, .op ">"])

theorem stable_capturedName :
    Stable rules ParseTree.IsLegible Unlike SameHead 1 extra capturedName ts :=
  .select_cons (fun us hus => (isHeadLook_atLifetime ts us hus).symm)
    (fun _ => Stable.lifetime.mono (fun _ _ => id) (fun _ => AfterLifetime.sameHead) (Nat.le_refl _)
      (Nat.le_refl _)) fun _ =>
    .select_cons (fun us hus => (isHeadLook_atName ts us hus).symm) (fun _ => .name) fun _ =>
      .select_cons (fun us hus => (isHeadLook_atWord "Self" ts us hus).symm)
        (fun _ => .sameHead_word) fun _ => .select_nil .noneOf

theorem yields_capturedName : Yields rules capturedName ts fun trees _ =>
    ∃ tree, trees = [tree] ∧ isMark ',' tree = false :=
  .select_cons (fun _ => .lifetime fun _ _ _ => ⟨_, rfl, rfl⟩) fun _ =>
    .select_cons (fun _ => .name fun _ _ _ _ _ => ⟨_, rfl, rfl⟩) fun _ =>
      .select_cons (fun _ => .word fun _ _ _ => ⟨_, rfl, rfl⟩) fun _ => .select_nil .noneOf

/-- The names that a hidden type uses are read again, the lifetimes first. -/
theorem stable_captures :
    Stable rules ParseTree.IsLegible Unlike SameHead 1 extra captures ts := by
  have hseparator : Rereads Anything (AtMark ',') extra
      (oneOf [(.op ",", Language.op ","), (.op ">", .empty)]) [commaTree] := by
    refine rereads_comma.either_pos ?_
    rintro _ ⟨joint, rest, rfl⟩
    simp [Choice.op, atOp, takeOperator]
  have hnames (ts : List Token) : Stable rules ParseTree.IsLegible (fun _ => AtMark '>') Unlike 0
      extra (.edited (separated (atOp ">") (oneOf [(.op ",", Language.op ","), (.op ">", .empty)])
        capturedName) lifetimesFirst) ts := by
    refine (stable_lifetimesFirst hseparator (fun ts hts => ?_) fun ts hts => ?_).mono
      (fun _ _ => id) (fun us (_ : AtMark '>' us ∨ Anything us) => trivial) (Nat.le_refl _)
      (Nat.le_refl _)
    · exact .select_cons (fun _ => yields_comma) fun _ =>
        .select_cons (fun h => absurd h (by simp [Choice.op, hts])) fun _ => .select_nil .noneOf
    · refine readsMember_of_stable yields_capturedName stable_capturedName (fun _ _ _ => trivial)
        fun us hus => ⟨?_, trivial⟩
      exact (isHeadLook_atOp ">" rfl ts us hus).symm.trans hts
  have hopen : Stable rules ParseTree.IsLegible Unlike SameHead (1 + 1) extra
      (word "use" ++ Language.op "<") ts :=
    Stable.sameHead_word.append (fun _ => .sameHead_op (by decide)) (Nat.le_add_right _ _)
      (Nat.le_add_right _ _)
  have hclose (ms : List Token) : Stable rules ParseTree.IsLegible Unlike (fun _ => AtMark '>') 1
      extra (Language.op ">") ms :=
    .closing (c := '>') (by decide)
  exact ((hopen.append hnames (Nat.le_add_right _ _) (Nat.le_add_right _ _)).append hclose
    (Nat.le_add_right _ _) (Nat.le_add_right _ _)).mono (fun _ _ => id) (fun _ => id) (by decide)
      (Nat.le_refl _)

theorem hasConstMark_unlined (trees : Trees) :
    hasConstMark (unlinedTrees trees) = hasConstMark trees := by
  have hany := any_unlinedTrees (isNode_unlined .constMark)
  match trees with
  | [] => rfl
  | [.leaf token] => exact hany [.leaf token]
  | [.node label children] => exact hany [.node label children]
  | [.group .paren children] => exact hany children
  | [.group .bracket children] => exact hany [.group .bracket children]
  | [.group .brace children] => exact hany [.group .brace children]
  | first :: second :: rest =>
    have hmany (first second : ParseTree Part) (rest : Trees) :
        hasConstMark (first :: second :: rest) =
          (first :: second :: rest).any (isNode .constMark) := by simp [hasConstMark]
    rw [unlinedTrees, unlinedTrees, hmany, hmany]
    exact hany (first :: second :: rest)

theorem all_isLeaf_written (before after : List Token) :
    (Production.written before after : Trees).all isLeaf = true := by
  rw [Production.written, List.all_map, List.all_eq_true]
  exact fun _ _ => rfl

/-- A bound that is kept as it was written has no parts that are legible. -/
theorem stable_written {p : P} (h : Stable rules ParseTree.IsLegible Ends SameHead 1 extra p ts) :
    Stable rules ParseTree.IsLegible Ends SameHead 1 extra
      (.labelled .bound (.asWritten p hasConstMark)) ts := by
  refine Yields.labelled (Yields.shaped fun parsed hparsed hlegible => ?_)
  obtain ⟨hleaf, htrees⟩ : (if hasConstMark parsed.trees then
      Production.written ts parsed.rest else parsed.trees).all isLeaf = false ∧ _ :=
    hlegible _ List.mem_cons_self
  split at hleaf
  · simp [all_isLeaf_written] at hleaf
  · next hmark =>
    rw [if_neg hmark] at htrees ⊢
    obtain ⟨hsize, hreads⟩ := h parsed hparsed (areLegible_iff_forall.mp htrees)
    have hnone : hasConstMark (unlinedTrees parsed.trees) = false := by
      rw [hasConstMark_unlined]
      simpa using hmark
    exact ⟨by simpa [unlinedTrees, ParseTree.unlined] using hsize,
      (hreads.asWritten hnone).labelled⟩

/-- A bound is stable. One that is kept as written is not legible. -/
theorem stable_bound (hrules : RulesStable rules) (capturesAllowed constAllowed : Bool) :
    Stable rules ParseTree.IsLegible Ends SameHead 1 1 (bound capturesAllowed constAllowed) ts := by
  have hinside (content : List Token) : Stable rules ParseTree.IsLegible Ended Unlike 1 1
      (traitBound constAllowed) content := by
    refine (stable_traitBound hrules constAllowed).mono ?_ (fun _ _ => trivial) (Nat.le_refl _)
      (Nat.le_refl _)
    rintro rest _ rfl
    exact closes_nil.ends rest
  have hparens : Stable rules ParseTree.IsLegible Ends SameHead 1 1
      (parens (traitBound constAllowed)) ts :=
    (Stable.enclosed legible_of_parens hinside (by decide)).mono (fun _ _ _ => trivial)
      (fun _ h => h.1) (Nat.le_refl _) (Nat.le_refl _)
  refine .select_cons (fun us hus => (isHeadLook_atLifetime ts us hus).symm) (fun _ => ?_)
    fun _ => .select_cons (fun us hus => (isHeadLook_atWord "use" ts us hus).symm) (fun _ => ?_)
      fun _ => .select_nil (stable_written ?_)
  · exact Stable.lifetime.mono (fun _ _ => id) (fun _ => AfterLifetime.sameHead) (Nat.le_refl _)
      (Nat.le_refl _)
  · have hcaptures : Stable rules ParseTree.IsLegible Ends SameHead 1 1 captures ts :=
      stable_captures.mono (fun _ _ _ => trivial) (fun _ => id) (Nat.le_refl _) (Nat.le_refl _)
    have hallowed (ms : List Token) : Stable rules ParseTree.IsLegible Ends Ends 0 1
        (if capturesAllowed then .empty else
          refuse "`use<...>` precise capturing syntax is not allowed here") ms := by
      cases capturesAllowed with
      | true => exact .empty
      | false => exact .refuse
    exact hcaptures.append hallowed (Nat.le_add_right _ _) (Nat.le_add_right _ _)
  · exact .either (fun us hus => (isHeadLook_atGroup .paren ts us hus).symm) (fun _ => hparens)
      fun _ => stable_traitBound hrules constAllowed

/-! ## Sums of bounds -/

/-- A plus sign ends a bound if one stood there before. -/
theorem ends_plus {us : List Token} (hts : AtMark '+' ts) (hus : AtMark '+' us) : Ends ts us := by
  obtain ⟨joint, rest, rfl⟩ := hts
  obtain ⟨joint', rest', rfl⟩ := hus
  refine ends_of_sameHead (sameHead_cons (t := .punct '+' joint) (u := .punct '+' joint') rfl rfl
    rfl rest rest') ⟨by simp [atOp, takeOperator], by simp [atOp, takeOperator],
      by simp [atOp, takeOperator], rfl⟩ (by simp [atOp, takeOperator])

theorem isHeadLook_endsBounds (constAllowed : Bool) :
    IsHeadLook fun tokens => !startsBound constAllowed tokens :=
  fun ts us h => congrArg (!·) (isHeadLook_startsBound constAllowed ts us h)

theorem Ends.endsBounds {us : List Token} (h : Ends ts us) (constAllowed : Bool) :
    Ends ts us ∧ (atOp "+" us = true → atOp "+" ts = true) ∧
      ((!startsBound constAllowed ts) = true → (!startsBound constAllowed us) = true) := by
  refine ⟨h, h.plus, fun hts => ?_⟩
  have hnone : startsBound constAllowed ts = false := by simpa using hts
  simpa [hnone] using h.bound constAllowed

theorem stable_boundSum (hrules : RulesStable rules) (plus capturesAllowed constAllowed : Bool) :
    Stable rules ParseTree.IsLegible Ends SameHead 1 1
      (boundSum plus capturesAllowed constAllowed) ts := by
  cases plus with
  | false => exact stable_bound hrules capturesAllowed constAllowed
  | true =>
    exact stable_chained hrules.suffix (isHeadLook_endsBounds constAllowed)
      (fun _ _ => ends_plus) (fun _ _ h => h.endsBounds constAllowed)
      fun _ => stable_bound hrules capturesAllowed constAllowed

/-- Bounds with a trait among them are read again as such. -/
theorem stable_withTrait {bounds : P} {reason : String}
    (h : Stable rules ParseTree.IsLegible Ends SameHead 1 extra bounds ts) :
    Stable rules ParseTree.IsLegible Ends SameHead 1 extra (withTrait bounds reason) ts := by
  refine h.bind (Yields.any.mono fun trees ms _ _ => ⟨?_, ?_⟩) (Nat.le_add_right _ (64 * 0))
    (Nat.le_add_right _ _)
  · rw [any_unlinedTrees (isNode_unlined .bound)]
  · split
    · exact .empty
    · exact .refuse

end DaoGen.Code
