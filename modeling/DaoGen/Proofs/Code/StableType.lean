import DaoGen.Proofs.Code.StableFunction

/-!
# Types are read again

Every type that is legible is read again from the tokens of its tree, wherever what stands after it
does not go on with it. The induction is on how deeply the rules are nested; what one rule needs of
the ones that it calls is `RulesStable`.

## Main results

* `stable_type`: a type is stable if the rules that it calls are.
* `rulesStable_read`: the rules of the grammar are stable.
-/
namespace DaoGen.Code

open Code.Language

variable {rules : Rule → List Token → Match Part} {ts : List Token} {extra : Nat} {plus : Bool}

/-! ## Types of one word or mark -/

theorem stable_inferType :
    Stable rules ParseTree.IsLegible Ends SameHead 1 extra (.labelled .inferType (word "_")) ts :=
  Stable.part rfl .sameHead_word

theorem stable_neverType : Stable rules ParseTree.IsLegible Ends SameHead 1 extra
    (.labelled .otherType (Language.op "!")) ts :=
  Stable.part rfl (.sameHead_op (by decide))

/-! ## References and pointers -/

theorem stable_pointerType (hrules : RulesStable rules) :
    Stable rules ParseTree.IsLegible Ends SameHead 1 1 pointerType ts := by
  have hkind (ms : List Token) : Stable rules ParseTree.IsLegible SameHead SameHead 1 0
      (oneOf [(.word "const", word "const"), (.word "mut", word "mut")]) ms :=
    .select_cons (fun us hus => (isHeadLook_atWord "const" ms us hus).symm)
      (fun _ => .sameHead_word) fun _ =>
      .select_cons (fun us hus => (isHeadLook_atWord "mut" ms us hus).symm)
        (fun _ => .sameHead_word) fun _ => .select_nil .noneOf
  have hmark : Stable rules ParseTree.IsLegible SameHead SameHead 1 0 (Language.op "*") ts :=
    .sameHead_op (by decide)
  have hmarked := hmark.append hkind (Nat.zero_le (0 + _)) (Nat.zero_le _)
  exact ((hmarked.append (hrules.type false) (Nat.zero_le _) (by decide)).mono (fun _ _ => id)
    (fun _ => id) (by decide) (Nat.le_refl _)).part rfl

theorem stable_referenceType (hrules : RulesStable rules) :
    Stable rules ParseTree.IsLegible Ends SameHead 1 1 referenceType ts := by
  have hlifetime (ms : List Token) : Stable rules ParseTree.IsLegible SameHead SameHead 0 0
      optLifetime ms :=
    .optional isHeadLook_atLifetime (Stable.lifetime.mono (fun _ _ => id)
      (fun _ => AfterLifetime.sameHead) (Nat.le_refl _) (Nat.le_refl _))
  have hwritable (ms : List Token) : Stable rules ParseTree.IsLegible SameHead SameHead 0 0
      (optWord "mut") ms := .optional (isHeadLook_atWord "mut") .sameHead_word
  have hmark : Stable rules ParseTree.IsLegible SameHead SameHead 1 0 (Language.op "&") ts :=
    .sameHead_op (by decide)
  have hnamed := hmark.append hlifetime (Nat.zero_le (0 + _)) (Nat.zero_le _)
  have hmarked := hnamed.append hwritable (Nat.zero_le (0 + _)) (Nat.zero_le _)
  exact ((hmarked.append (hrules.type false) (Nat.zero_le _) (by decide)).mono (fun _ _ => id)
    (fun _ => id) (by decide) (Nat.le_refl _)).part rfl

/-! ## Sums of bounds -/

theorem stable_objectBounds (hrules : RulesStable rules) :
    Stable rules ParseTree.IsLegible Ends SameHead 1 1 (objectBounds plus) ts :=
  stable_withTrait (stable_boundSum hrules plus false false)

theorem stable_lifetimeObject (hrules : RulesStable rules) :
    Stable rules ParseTree.IsLegible Ends SameHead 1 1 lifetimeObject ts :=
  (stable_objectBounds hrules).part rfl

theorem stable_hiddenType (hrules : RulesStable rules) :
    Stable rules ParseTree.IsLegible Ends SameHead 1 1 (hiddenType plus) ts := by
  have hword : Stable rules ParseTree.IsLegible SameHead SameHead 1 0 (word "impl") ts :=
    .sameHead_word
  exact ((hword.append (fun _ => stable_withTrait (stable_boundSum hrules plus true true))
    (Nat.zero_le _) (by decide)).mono (fun _ _ => id) (fun _ => id) (by decide)
      (Nat.le_refl _)).part rfl

/-- Among the trees of a bound there is no mark of punctuation. -/
theorem yields_bound_marks (constAllowed : Bool) : Yields rules (bound false constAllowed) ts
    fun trees _ => ∀ tree ∈ trees, ∀ c, isMark c tree = false := by
  refine .select_cons (fun _ => .lifetime fun name rest _ => ?_) fun _ =>
    .select_cons (fun _ => .append (Yields.any.mono fun _ _ _ => .take nofun)) fun _ =>
      .select_nil (.labelled (Yields.any.mono fun trees _ _ => ?_))
  · exact List.forall_mem_singleton.mpr fun c => rfl
  · exact List.forall_mem_singleton.mpr fun c => rfl

/-- Among the trees of bounds after plus signs there is no other mark. -/
theorem yields_plusItems_marks {look : Look} {c : Char} (hc : c ≠ '+') : Yields rules
    (.repeated look (Language.op "+" ++ bound false false)) ts
      fun trees _ => ∀ tree ∈ trees, isMark c tree = false := by
  refine .repeated fun ms _ => .append (.mark (c := '+') fun _ => ?_)
  refine (yields_bound_marks false).mono fun trees _ htrees => ?_
  refine List.forall_mem_cons.mpr ⟨?_, fun tree htree => htrees tree htree c⟩
  simpa [isMark] using hc.symm

theorem yields_optPlus_marks {c : Char} (hc : c ≠ '+') :
    Yields rules (optOp "+") ts fun trees _ => ∀ tree ∈ trees, isMark c tree = false :=
  .given (fun _ => .mark (c := '+') fun _ => List.forall_mem_singleton.mpr
    (by simpa [isMark] using hc.symm)) fun _ => nofun

theorem yields_objectBounds_marks {c : Char} (hc : c ≠ '+') : Yields rules (objectBounds plus) ts
    fun trees _ => ∀ tree ∈ trees, isMark c tree = false := by
  have hsum : Yields rules (boundSum plus false false) ts
      fun trees _ => ∀ tree ∈ trees, isMark c tree = false := by
    have hone (ms : List Token) : Yields rules (bound false false) ms
        fun trees _ => ∀ tree ∈ trees, isMark c tree = false :=
      (yields_bound_marks false).mono fun _ _ h tree htree => h tree htree c
    cases plus with
    | false => exact hone ts
    | true =>
      refine .append (.append ((hone ts).mono fun first mid hfirst =>
        (yields_plusItems_marks hc).mono fun later rest hlater =>
          (yields_optPlus_marks hc).mono fun last _ hlast => ?_))
      exact List.forall_mem_append.mpr ⟨List.forall_mem_append.mpr ⟨hfirst, hlater⟩, hlast⟩
  refine .bind (hsum.mono fun trees mid htrees => ?_)
  split
  · exact .empty (by simpa using htrees)
  · exact .take nofun

/-- An object type is stable. One with a star is kept as written and not legible. -/
theorem stable_objectType (hrules : RulesStable rules) :
    Stable rules ParseTree.IsLegible Ends SameHead 1 1 (objectType plus) ts := by
  refine Yields.labelled (.shaped (.append (.append (.word fun line mid hts => ?_))))
  refine .given (fun _ => .markAt (c := '*') fun joint ms hms => ?_) fun hnone => ?_
  · -- the trees hold a star, so the tokens are kept
    subst hts hms
    refine (Yields.isSuffix hrules.suffix _ ms).mono fun trees rest hrest hlegible => ?_
    rw [if_pos (by simp [isMark]), written_cons (hrest.trans (List.suffix_cons _ _)),
      written_cons hrest] at hlegible
    exact absurd (hlegible _ List.mem_cons_self) id
  · intro parsed hparsed hlegible
    have hmarks := yields_objectBounds_marks (c := '*') (by decide) parsed hparsed
    have hstar : ([.leaf (.ident "dyn" line)] ++ [] ++ parsed.trees : Trees).any (isMark '*') =
        false := by
      simpa [isMark] using hmarks
    rw [if_neg fun h => Bool.false_ne_true (hstar.symm.trans h)] at hlegible ⊢
    have hchildren := areLegible_of_node (rfl : isOpen .otherType = true)
      (hlegible _ List.mem_cons_self)
    obtain ⟨hword, hbounds⟩ : IsWord "dyn" ∧ AreLegible parsed.trees := hchildren
    obtain ⟨-, hreads⟩ := stable_objectBounds hrules parsed hparsed
      (areLegible_iff_forall.mp hbounds)
    refine ⟨one_le_sizeOfTokens nofun, ?_⟩
    have hfirst : Rereads (SameHead mid) (SameHead ts) 1 (word "dyn" ++ optOp "*")
        ([.leaf (.ident "dyn" 1)] ++ []) := by
      refine ((rereads_word hword).mono (fun _ _ => trivial) ?_ (Nat.le_refl 1)).append
        (Rereads.given_neg fun us hus => ?_) (Nat.le_refl 1) (Nat.le_add_right 1 _)
      · rintro _ ⟨later, rfl⟩
        exact hts ▸ sameHead_ident "dyn" mid later
      · exact (isHeadLook_atOp "*" rfl mid us hus).symm.trans hnone
    have hall := hfirst.append hreads (Nat.le_add_right _ _) (Nat.le_add_right _ _)
    refine (hall.asWritten ?_).labelled
    rw [List.any_append, any_unlinedTrees (isMark_unlined '*')]
    simpa [isMark] using hmarks

/-! ## Slices -/

/-- A slice is read again if the type of its elements is. -/
theorem rereads_slice {element : ParseTree Part} {front : List Token → Prop}
    (helement : Rereads Nothing front 2 (call (.type true)) [element]) :
    Rereads Anything (AtGroup .bracket) extra sliceType
      [.node .sliceType [.group .bracket [element]]] := by
  have hnone : Rereads Nothing Nothing 0
      (.given (atOp ";") (Language.op ";" ++ call (.expression true))) [] := by
    refine Rereads.given_neg ?_
    rintro _ rfl
    rfl
  have hinside := helement.append hnone (Nat.le_add_right 2 _) (Nat.zero_le _)
  exact (hinside.enclosed (Nat.le_add_left_of_le (by decide))).labelled

/-- An array is read again if the type of its elements and its length are. -/
theorem rereads_array {element : ParseTree Part} {length : Trees} {front : List Token → Prop}
    (helement : Rereads Closes front 2 (call (.type true)) [element])
    (hlength : FillsAgain (call (.expression true)) length) :
    Rereads Anything (AtGroup .bracket) extra sliceType
      [.node .sliceType [.group .bracket
        (element :: .leaf (.punct ';') :: unlinedTrees length)]] := by
  have hplain : ArePlain (.punct ';' :: tokensOf (unlinedTrees length)) :=
    ⟨.inl (by decide), fun h => absurd h Bool.false_ne_true, hlength.plain⟩
  refine (rereads_enclosed ?_ rfl fun depth hdepth => ?_).labelled
  · rw [tokensOf_cons]
    exact arePlain_append (by simpa using helement.plain) hplain
  · have hsize : sizeOfTokens (tokensOf (element :: .leaf (.punct ';') :: unlinedTrees length)) =
        sizeOfTokens (tokensOf [element]) +
          (1 + sizeOfTokens (tokensOf (unlinedTrees length))) := by
      simp [sizeOfTokens_append, sizeOfTokens, Token.size]
    have hmark : Closes (.punct ';' :: tokensOf (unlinedTrees length)) :=
      closes_mark (by decide : ';' ∈ closingMarks) ⟨false, _, rfl⟩
    have hfirst := (helement.reads (spell_tokensOf [element]) hmark).2 depth (by omega)
    have hrest : Reads (language.read depth) (Language.op ";" ++ call (.expression true))
        (.punct ';' :: tokensOf (unlinedTrees length)) ([.leaf (.punct ';')] ++ unlinedTrees length)
        [] := (Reads.mark (c := ';')).append (hlength.reads.mono (by omega))
    rw [tokensOf_cons, tokensOf_cons]
    simpa using hfirst.append (hrest.given_pos rfl)

/-- A slice is stable, and so is an array if its length is read again. -/
theorem stable_sliceType (hrules : RulesStable rules) :
    Stable rules ParseTree.IsLegible Ends SameHead 1 0 sliceType ts := by
  refine Yields.labelled (.enclosed fun content mid hts => .append fun parsed hparsed => ?_)
  obtain ⟨element, helement, -⟩ := hrules.types true content parsed hparsed
  have htype := hrules.type true content parsed hparsed
  rw [helement] at htype ⊢
  have hread (hlegible : element.IsLegible) :
      Rereads Closes _ 2 (call (.type true)) [element.unlined] :=
    (htype (List.forall_mem_singleton.mpr hlegible)).2.mono (fun _ hus => hus.ends _)
      (fun _ => id) (Nat.le_refl _)
  have hall {inside : Trees} (hslice : Rereads Anything (AtGroup .bracket) 0 sliceType
      [.node .sliceType [.group .bracket inside]]) :
      1 ≤ sizeOfTokens (tokensOf [ParseTree.node Part.sliceType [.group .bracket inside]]) ∧
      Rereads (Ends mid) (SameHead ts) 0 sliceType [.node .sliceType [.group .bracket inside]] := by
    refine ⟨by simp [sizeOfTokens, Token.size], hslice.mono (fun _ _ => trivial) ?_ (Nat.le_refl _)⟩
    rintro _ ⟨inside, later, rfl⟩
    exact hts ▸ sameHead_cons (t := .group .bracket content) (u := .group .bracket inside) rfl rfl
      rfl mid later
  refine .given (fun _ => .append (.markAt (c := ';') fun _ ms _ => ?_)) fun _ hlegible => ?_
  · refine Yields.any.mono fun length rest _ hlegible => ?_
    obtain ⟨hone, hlength⟩ : element.IsLegible ∧ FillsAgain (call (.expression true)) length :=
      hlegible _ List.mem_cons_self
    exact hall (rereads_array (hread hone) hlength)
  · obtain ⟨hone, -⟩ : AreLegible [element] ∧ AreLegible [] := hlegible _ List.mem_cons_self
    have helement := hread (areLegible_singleton.mp hone)
    refine hall (rereads_slice (helement.mono ?_ (fun _ => id) (Nat.le_refl _)))
    rintro _ rfl
    exact closes_nil

/-! ## Paths as types -/

theorem isPlainPath_unlined (trees : Trees) :
    isPlainPath (unlinedTrees trees) = isPlainPath trees := by
  match trees with
  | [] | [.leaf _] | [.group _ _] => rfl
  | first :: second :: rest => simp [unlinedTrees, isPlainPath]
  | [.node label children] =>
    cases label <;> try rfl
    rw [unlinedTrees, unlinedTrees, ParseTree.unlined, isPlainPath, isPlainPath,
      unlinedTrees_eq_map, List.all_map]
    refine congrArg _ (funext fun tree => ?_)
    cases tree with
    | leaf | group => rfl
    | node label names =>
      cases label <;> try rfl
      simp only [Function.comp_apply, ParseTree.unlined]
      rw [any_unlinedTrees (isNode_unlined .arguments)]

/-- A path through a type is followed by nothing. -/
theorem afterPath_cases (plus : Bool) (path : Trees) :
    ((∃ children, path = [.node .qualifiedPath children]) ∧ afterPath plus path = .empty) ∨
      (¬ ∃ children, path = [.node .qualifiedPath children]) ∧ afterPath plus path =
        select
          [(atMacroCall path, macroCall),
            (fun tokens => plus && atOp "+" tokens,
              .repeated (fun tokens => atOp "+" tokens && startsBound false (tokens.drop 1))
                (Language.op "+" ++ bound false false) ++ optOp "+")]
          .empty := by
  unfold afterPath
  split
  · exact .inl ⟨⟨_, rfl⟩, rfl⟩
  · next hpath => exact .inr ⟨fun ⟨children, heq⟩ => hpath children heq, rfl⟩

theorem afterPath_unlined (path : Trees) :
    afterPath plus (unlinedTrees path) = afterPath plus path := by
  have hcall : atMacroCall (unlinedTrees path) = atMacroCall path := by
    funext tokens
    rw [atMacroCall, atMacroCall, isPlainPath_unlined]
  rcases afterPath_cases plus path with ⟨⟨_, rfl⟩, -⟩ | ⟨hother, hpath⟩
  · rfl
  · rcases afterPath_cases plus (unlinedTrees path) with ⟨⟨_, heq⟩, -⟩ | ⟨-, hunlined⟩
    · obtain ⟨children, rfl, -⟩ := exists_of_unlinedTrees_eq heq
      exact absurd ⟨children, rfl⟩ hother
    · rw [hpath, hunlined, hcall]

/-- The call of a macro is read again with its input as it stands. -/
theorem stable_macroCall : Stable rules ParseTree.IsLegible Unlike
    (fun _ us => AtMark '!' us ∧ atBang us = true) 1 extra macroCall ts := by
  refine Yields.append (.markAt (c := '!') fun _ mid _ => .take fun group rest hscan hlegible => ?_)
  match mid, hscan with
  | .group d content :: later, hscan =>
    cases hscan
    have hgroup : ArePlain (unlinedTokens content) :=
      hlegible (.leaf (.group d content)) (List.mem_append_right _ List.mem_cons_self)
    refine ⟨Nat.le_add_right 1 _, ?_, fun {us after} hus _ => ?_⟩
    · simpa [unlinedTrees, ParseTree.unlined, Token.unlined, ArePlain, Token.IsPlain,
        Token.isJoint, plainMarks] using hgroup
    · obtain ⟨joint, rfl⟩ : ∃ joint,
          us = [.punct '!' joint, .group d (unlinedTokens content)] := by
        simpa [unlinedTrees, ParseTree.unlined, Token.unlined] using hus
      refine ⟨⟨⟨joint, _, rfl⟩, by simp [atBang, atOp, takeOperator]⟩, fun depth _ => ?_⟩
      exact (Reads.mark (c := '!')).append (.take [.group d (unlinedTokens content)] rfl)

/-- What follows a path is stable. -/
theorem stable_afterPath (hrules : RulesStable rules) (path : Trees) :
    Stable rules ParseTree.IsLegible Ends (fun _ => EndsPath) 0 1 (afterPath plus path) ts := by
  unfold afterPath
  split
  · exact Stable.empty.mono (fun _ _ => id) (fun _ hus => hus.endsPath) (Nat.le_refl _)
      (Nat.le_refl 1)
  · refine Stable.mono (?_ : Stable _ _ _ (fun ts us => EndsPath us ∧ atMacroCall path us =
      atMacroCall path ts ∧ (plus && atOp "+" us) = (plus && atOp "+" ts)) 0 1 _ _)
        (fun _ _ => id) (fun _ hus => hus.1) (Nat.le_refl _) (Nat.le_refl _)
    refine .select_cons (fun _ hus => hus.2.1) (fun hcall => ?_) fun hcall =>
      .select_cons (fun _ hus => hus.2.2) (fun hts => ?_) fun hts => .select_nil ?_
    · obtain ⟨hpath, hbang⟩ := Bool.and_eq_true_iff.mp hcall
      refine stable_macroCall.mono (fun _ _ _ => trivial) ?_ (Nat.zero_le _) (Nat.le_refl 1)
      rintro us ⟨⟨joint, later, rfl⟩, hus⟩
      refine ⟨⟨by simp [atArguments, atOp, takeOperator], by simp [atOp, takeOperator]⟩, ?_, ?_⟩
      · rw [hcall, atMacroCall, hpath, hus]
        rfl
      · obtain ⟨hmark, -⟩ := Bool.and_eq_true_iff.mp hbang
        obtain ⟨_, _, rfl⟩ := exists_of_atOp (c := '!') (by decide) hmark
        simp [atOp, takeOperator]
    · have hitems : Stable rules _ Ends _ 0 1 _ ts :=
        stable_chainEnd hrules.suffix (isHeadLook_endsBounds false) (fun _ _ => ends_plus)
          (fun _ _ h => Ends.endsBounds h false) fun _ => stable_bound hrules false false
      simp only [Bool.not_not] at hitems
      refine hitems.mono (fun _ _ => id) (fun us hus => ?_) (Nat.le_refl _) (Nat.le_refl _)
      obtain ⟨hends, hplus, -⟩ := hus
      refine ⟨hends.endsPath, ?_, by rw [hplus]⟩
      rw [hcall]
      simp [atMacroCall, atBang, hends.bang]
    · refine Stable.empty.mono (fun _ _ => id) (fun us hus => ⟨hus.endsPath, ?_, ?_⟩)
        (Nat.le_refl _) (Nat.le_refl 1)
      · rw [hcall]
        simp [atMacroCall, atBang, hus.bang]
      · rw [hts]
        cases hplus : atOp "+" us with
        | false => simp
        | true => simpa [hus.plus hplus] using hts

theorem stable_pathWith (hrules : RulesStable rules) :
    Stable rules ParseTree.IsLegible (fun _ => EndsPath) SameHead 1 0 (pathWith false) ts := by
  refine (readsPath_pathWith hrules).mono ?_
  rintro _ _ ⟨path, rfl, -, hpath⟩ hlegible
  obtain ⟨hne, hreads⟩ := hpath path (.inl rfl) (hlegible path List.mem_cons_self)
  exact ⟨by simpa [unlinedTrees] using one_le_sizeOfTokens hne, hreads⟩

theorem stable_pathType (hrules : RulesStable rules) :
    Stable rules ParseTree.IsLegible Ends SameHead 1 0 (pathType plus) ts := by
  cases hangle : atOp "<" ts with
  | true =>
    have hpath : Stable rules ParseTree.IsLegible Ends SameHead 1 0 (anyKindOfPath false) ts :=
      .either (fun us hus => (isHeadLook_atOp "<" rfl ts us hus).symm)
        (fun _ => (stable_qualifiedPath hrules).mono (fun _ _ => id) (fun _ hus => hus.1)
          (Nat.le_refl _) (Nat.le_refl _)) fun hnone => absurd hangle (by simp [hnone])
    have hnext : Yields rules (anyKindOfPath false) ts fun trees mid =>
        (∀ tree ∈ trees, tree.IsLegible) → afterPath plus (unlinedTrees trees) =
          afterPath plus trees ∧
            Stable rules ParseTree.IsLegible Ends Ends 0 0 (afterPath plus trees) mid :=
      .either (fun _ => .labelled (Yields.any.mono fun _ _ _ _ => ⟨rfl, .empty⟩)) fun hnone =>
        absurd hangle (by simp [hnone])
    exact hpath.bind hnext (Nat.zero_le _) (Nat.zero_le _)
  | false =>
    have hpath : Stable rules ParseTree.IsLegible (fun _ => EndsPath) SameHead 1 0
        (anyKindOfPath false) ts :=
      .either (fun us hus => (isHeadLook_atOp "<" rfl ts us hus).symm)
        (fun h => absurd hangle (by simp [h])) fun _ => stable_pathWith hrules
    exact hpath.bind (Yields.any.mono fun path _ _ _ =>
      ⟨afterPath_unlined path, stable_afterPath hrules path⟩) (Nat.zero_le _) (by decide)

/-- What begins with a path is read as the path and what follows it. -/
theorem yields_pathTrees : Yields rules (pathType plus) ts fun trees _ => ∃ path more,
    trees = path :: more ∧ isPathNode path = true := by
  have hpath : Yields rules (anyKindOfPath false) ts fun trees _ =>
      ∃ path, trees = [path] ∧ isPathNode path = true :=
    .either (fun _ => .labelled (Yields.any.mono fun _ _ _ => ⟨_, rfl, rfl⟩)) fun _ =>
      .labelled (Yields.any.mono fun _ _ _ => ⟨_, rfl, rfl⟩)
  refine .bind (hpath.mono ?_)
  rintro _ _ ⟨path, rfl, hlabel⟩
  exact Yields.any.mono fun more _ _ => ⟨path, more, rfl, hlabel⟩

/-! ### Labels of paths -/

theorem head_any_unlined {test : ParseTree Part → Bool}
    (h : ∀ tree, test tree.unlined = test tree) (trees : Trees) :
    (unlinedTrees trees).head?.any test = trees.head?.any test := by
  cases trees with
  | nil => rfl
  | cons tree trees => exact h tree

/-- What begins with the path of a type. -/
def fromPath (trees : Trees) : Trees :=
  trees.dropWhile fun tree => !isNode .path tree && !isNode .qualifiedPath tree

theorem fromPath_unlined (trees : Trees) :
    fromPath (unlinedTrees trees) = unlinedTrees (fromPath trees) := by
  rw [fromPath, fromPath, unlinedTrees_eq_map, unlinedTrees_eq_map, List.dropWhile_map]
  refine congrArg _ (congrArg (List.dropWhile · trees) (funext fun tree => ?_))
  simp only [Function.comp_apply, isNode_unlined]

theorem fromPath_append {front more : Trees} {path : ParseTree Part}
    (hfront : ∀ tree ∈ front, isPathNode tree = false) (hpath : isPathNode path = true) :
    fromPath (front ++ path :: more) = path :: more := by
  induction front with
  | nil =>
    have hkept : (!isNode .path path && !isNode .qualifiedPath path) = false := by
      rw [← Bool.not_or, ← isPathNode, hpath]
      rfl
    rw [fromPath, List.nil_append, List.dropWhile_cons, if_neg (by simp [hkept])]
  | cons tree front ih =>
    obtain ⟨htree, hfront⟩ := List.forall_mem_cons.mp hfront
    have hdropped : (!isNode .path tree && !isNode .qualifiedPath tree) = true := by
      rw [← Bool.not_or, ← isPathNode, htree]
      rfl
    rw [fromPath, List.cons_append, List.dropWhile_cons, if_pos hdropped]
    exact ih hfront

/-- A path is labelled by what follows it. -/
theorem labelPath_cases (trees : Trees) :
    (∃ children, fromPath trees = [.node .path children] ∧ labelPath trees =
      if trees.head?.any (isWord "for") then [.node .boundType trees]
      else [.node .pathType [.node .path children]]) ∨
    (∃ path joint rest, fromPath trees = path :: .leaf (.punct '!' joint) :: rest ∧
      labelPath trees = [.node .macroType (macroPath (trees.head?.any (isWord "for")) path ::
        .leaf (.punct '!' joint) :: rest)]) ∨
    (¬ ∃ children, fromPath trees = [.node .path children]) ∧
      (¬ ∃ path joint rest, fromPath trees = path :: .leaf (.punct '!' joint) :: rest) ∧
        labelPath trees = [.node .otherType trees] := by
  unfold labelPath
  dsimp only
  rw [← fromPath]
  split
  · next children heq => exact .inl ⟨children, heq, rfl⟩
  · next path joint rest heq => exact .inr (.inl ⟨path, joint, rest, heq, rfl⟩)
  · next hpath hcall =>
    exact .inr (.inr ⟨fun ⟨children, heq⟩ => hpath children heq,
      fun ⟨path, joint, rest, heq⟩ => hcall path joint rest heq, rfl⟩)

theorem exists_call_of_unlined {trees rest : Trees} {path : ParseTree Part} {joint : Bool}
    (h : unlinedTrees trees = path :: .leaf (.punct '!' joint) :: rest) :
    ∃ path' rest', trees = path' :: .leaf (.punct '!' joint) :: rest' := by
  match trees, h with
  | path' :: .leaf (.punct c joint') :: rest', h =>
    simp only [unlinedTrees, ParseTree.unlined, Token.unlined, List.cons.injEq,
      ParseTree.leaf.injEq, Token.punct.injEq] at h
    obtain ⟨-, ⟨rfl, rfl⟩, -⟩ := h
    exact ⟨path', rest', rfl⟩
  | [], h | [_], h => simp [unlinedTrees] at h
  | _ :: .leaf (.ident _ _) :: _, h | _ :: .leaf (.lifetime _) :: _, h
  | _ :: .leaf (.literal _) :: _, h | _ :: .leaf (.group _ _) :: _, h | _ :: .group _ _ :: _, h
  | _ :: .node _ _ :: _, h => simp [unlinedTrees, ParseTree.unlined, Token.unlined] at h

theorem macroPath_unlined (isBound : Bool) (path : ParseTree Part) :
    macroPath isBound path.unlined = (macroPath isBound path).unlined := by
  cases isBound <;> rfl

theorem labelPath_unlined (trees : Trees) :
    labelPath (unlinedTrees trees) = unlinedTrees (labelPath trees) := by
  have hhead := head_any_unlined (isWord_unlined "for") trees
  have hfrom := fromPath_unlined trees
  rcases labelPath_cases (unlinedTrees trees) with ⟨children, hpath, heq⟩ |
    ⟨path, joint, rest, hcall, heq⟩ | ⟨hpath, hcall, heq⟩
  · rw [heq, hhead]
    rw [hfrom] at hpath
    obtain ⟨children', hpath', rfl⟩ := exists_of_unlinedTrees_eq hpath
    rcases labelPath_cases trees with ⟨_, hone, heq'⟩ | ⟨_, _, _, hone, -⟩ | ⟨hone, -, -⟩
    · obtain rfl : children' = _ := by simpa [hpath'] using hone
      rw [heq']
      split <;> rfl
    · simp [hpath'] at hone
    · exact absurd ⟨children', hpath'⟩ hone
  · rw [heq]
    rw [hfrom] at hcall
    obtain ⟨path', rest', hcall'⟩ := exists_call_of_unlined hcall
    rw [hcall'] at hcall
    rcases labelPath_cases trees with ⟨_, hone, -⟩ | ⟨_, _, _, hone, heq'⟩ | ⟨-, hone, -⟩
    · simp [hcall'] at hone
    · obtain ⟨rfl, rfl, rfl⟩ : path' = _ ∧ joint = _ ∧ rest' = _ := by simpa [hcall'] using hone
      obtain ⟨rfl, rfl⟩ : path'.unlined = path ∧ unlinedTrees rest' = rest := by
        simpa [unlinedTrees, ParseTree.unlined, Token.unlined] using hcall
      rw [heq', hhead, macroPath_unlined]
      rfl
    · exact absurd ⟨path', joint, rest', hcall'⟩ hone
  · rw [heq]
    rcases labelPath_cases trees with ⟨children, hone, -⟩ | ⟨path, joint, rest, hone, -⟩ |
      ⟨-, -, heq'⟩
    · exact absurd ⟨unlinedTrees children, by rw [hfrom, hone]; rfl⟩ hpath
    · exact absurd ⟨path.unlined, joint, unlinedTrees rest, by rw [hfrom, hone]; rfl⟩ hcall
    · rw [heq']
      rfl

/-- What begins with a path, perhaps after binders, is legible only if all of it is labelled. -/
theorem labelPath_legible {front more : Trees} {path : ParseTree Part}
    (hfront : ∀ tree ∈ front, isPathNode tree = false) (hpath : isPathNode path = true)
    (hfor : (front ++ path :: more).head?.any (isWord "for") = false → front = [])
    (hlegible : ∀ tree ∈ labelPath (front ++ path :: more), tree.IsLegible) :
    ∃ label, isOpen label = true ∧
      labelPath (front ++ path :: more) = [.node label (front ++ path :: more)] := by
  have hfrom : fromPath (front ++ path :: more) = path :: more := fromPath_append hfront hpath
  rcases labelPath_cases (front ++ path :: more) with ⟨children, hone, heq⟩ |
    ⟨first, joint, rest, hcall, heq⟩ | ⟨-, -, heq⟩
  · rw [hfrom] at hone
    obtain ⟨rfl, rfl⟩ := List.cons.inj hone
    cases hbound : (front ++ [ParseTree.node Part.path children]).head?.any (isWord "for") with
    | true => exact ⟨.boundType, rfl, by rw [heq, if_pos hbound]⟩
    | false =>
      obtain rfl := hfor hbound
      exact ⟨.pathType, rfl, by rw [heq, hbound]; rfl⟩
  · rw [hfrom] at hcall
    obtain ⟨rfl, rfl⟩ := List.cons.inj hcall
    cases hbound : (front ++ path :: .leaf (.punct '!' joint) :: rest).head?.any
      (isWord "for") with
    | true =>
      rw [heq, hbound] at hlegible
      exact absurd (hlegible _ List.mem_cons_self) id
    | false =>
      obtain rfl := hfor hbound
      exact ⟨.macroType, rfl, by rw [heq, hbound]; rfl⟩
  · exact ⟨.otherType, rfl, heq⟩

/-- A type that begins with a path is stable. -/
theorem stable_labelledPath (hrules : RulesStable rules) :
    Stable rules ParseTree.IsLegible Ends SameHead 1 0 (.edited (pathType plus) labelPath) ts := by
  refine (stable_pathType hrules).relabelled labelPath_unlined (yields_pathTrees.mono ?_)
  rintro _ _ ⟨path, more, rfl, hpath⟩
  exact labelPath_legible (List.forall_mem_nil _) hpath fun _ => rfl

theorem labelBoundByFor_unlined (trees : Trees) :
    labelBoundByFor (unlinedTrees trees) = unlinedTrees (labelBoundByFor trees) := by
  rw [labelBoundByFor, labelBoundByFor, any_unlinedTrees (isNode_unlined .otherType),
    labelPath_unlined]
  split <;> rfl

/-- A type after binders is stable. -/
theorem stable_boundByFor (hrules : RulesStable rules) :
    Stable rules ParseTree.IsLegible Ends SameHead 1 1
      (.edited (boundByFor plus) labelBoundByFor) ts := by
  have hinner (ms : List Token) : Stable rules ParseTree.IsLegible Ends SameHead 1 0
      (select [(atPointer, functionPointer), (atPathName, pathType plus)]
        (noneOf [.name, .word "fn", .word "unsafe", .word "extern", .word "super", .word "self",
          .word "Self", .word "crate"])) ms :=
    .select_cons (fun us hus => (isHeadLook_atAnyWord _ ms us hus).symm)
      (fun _ => stable_functionPointer hrules) fun _ =>
      .select_cons (fun us hus => (isHeadLook_atPathName ms us hus).symm)
        (fun _ => stable_pathType hrules) fun _ => .select_nil .noneOf
  have hbinders : Stable rules ParseTree.IsLegible SameHead SameHead 1 1 (call .binders) ts :=
    (hrules.binders ts).mono (fun _ _ _ => trivial) (fun _ => id) (Nat.le_refl _) (Nat.le_refl _)
  refine ((hbinders.append hinner (Nat.le_add_right _ _) (Nat.zero_le _)).mono (fun _ _ => id)
    (fun _ => id) (by decide) (Nat.le_refl _)).relabelled labelBoundByFor_unlined ?_
  refine .append (.call fun parsed hparsed => ?_)
  obtain ⟨hfor, hnodes⟩ := hrules.bound ts parsed hparsed
  refine .select_cons (fun _ => .labelled (Yields.any.mono fun children _ _ _ => ?_)) fun _ =>
    .select_cons (fun _ => yields_pathTrees.mono ?_) fun _ => .select_nil .noneOf
  · exact ⟨.otherType, rfl, by rw [labelBoundByFor, if_pos (by simp [isNode])]⟩
  · rintro _ _ ⟨path, more, rfl, hpath⟩ hlegible
    rw [labelBoundByFor] at hlegible ⊢
    split at hlegible
    · next hother => exact ⟨.otherType, rfl, if_pos hother⟩
    · next hother =>
      rw [if_neg hother]
      refine labelPath_legible hnodes hpath (fun hnone => ?_) hlegible
      cases htrees : parsed.trees with
      | nil => rfl
      | cons first trees =>
        rw [htrees] at hfor hnone
        exact absurd (hnone.symm.trans hfor) Bool.false_ne_true

/-! ## Round brackets -/

/-- Nothing is ahead where nothing was before, or what begins alike. -/
def SameStart (ts us : List Token) : Prop := ts = [] ∧ us = [] ∨ SameHead ts us

theorem IsHeadLook.of_sameStart {look : Look} (h : IsHeadLook look) {us : List Token}
    (hus : SameStart ts us) : look us = look ts := by
  rcases hus with ⟨rfl, rfl⟩ | hus
  · rfl
  · exact (h ts us hus).symm

/-- A type and further ones are stable where they fill a group. -/
theorem stable_someTypes (hrules : RulesStable rules) :
    Stable rules ParseTree.IsLegible Ended SameHead 1 2 someTypes ts := by
  have hmore (ms : List Token) : Stable rules ParseTree.IsLegible Ended
      (fun ts us => Closes us ∧ atOp "," us = atOp "," ts) 0 2
        (.given (atOp ",") (Language.op "," ++ commaSeparated (call (.type true)))) ms := by
    refine .given (fun _ hus => hus.2) (fun hms => ?_) fun hms us hus => ?_
    · have hmark : Stable rules ParseTree.IsLegible Unlike (AfterMark ',' Unlike) 1 2
          (Language.op ",") ms := Stable.mark (c := ',') (by decide)
      refine (hmark.append (fun _ => stable_types hrules) (Nat.le_add_right _ _)
        (Nat.le_add_right _ _)).mono (fun _ _ => id) (fun us hus => ?_) (Nat.zero_le _)
          (Nat.le_refl _)
      obtain ⟨_, _, joint, rest, _, rfl, _⟩ := hus
      exact ⟨closes_mark (by decide) ⟨joint, rest, rfl⟩, hms.symm ▸ by simp [atOp, takeOperator]⟩
    · obtain rfl : us = [] := hus
      exact ⟨closes_nil, hms.symm⟩
  have htype : Stable rules ParseTree.IsLegible (fun ts us => Closes us ∧ atOp "," us = atOp "," ts)
      SameHead 1 2 (call (.type true)) ts :=
    (hrules.type true ts).mono (fun ts us hus => hus.1.ends ts) (fun _ => id) (Nat.le_refl _)
      (Nat.le_refl _)
  exact htype.append hmore (Nat.le_add_right _ _) (Nat.le_add_right _ _)

theorem ends_of_ended {us : List Token} (h : Ended ts us) : Ends ts us := by
  obtain rfl : us = [] := h
  exact closes_nil.ends ts

/-- What round brackets that begin a type hold is stable. -/
theorem stable_insideParens (hrules : RulesStable rules) :
    Stable rules ParseTree.IsLegible Ended SameStart 0 2 insideParens ts := by
  have hof {p : P} (h : Stable rules ParseTree.IsLegible Ends SameHead 1 1 p ts) :
      Stable rules ParseTree.IsLegible Ended SameStart 0 2 p ts :=
    h.mono (fun _ _ => ends_of_ended) (fun _ => .inr) (Nat.zero_le _) (Nat.le_succ _)
  refine .select_cons (fun _ => isHeadLook_atEnd.of_sameStart) (fun hts => ?_) fun _ =>
    .select_cons (fun _ => isHeadLook_atLifetime.of_sameStart)
      (fun _ => hof ((stable_lifetimeObject hrules).part rfl)) fun _ =>
    .select_cons (fun _ => (isHeadLook_atOp "?" rfl).of_sameStart)
      (fun _ => hof ((stable_traitBound hrules false).part rfl)) fun _ => .select_nil ?_
  · refine Stable.empty.mono (fun _ _ => id) (fun us hus => .inl ⟨by simpa [atEnd] using hts, hus⟩)
      (Nat.le_refl _) (Nat.le_refl 2)
  · exact (stable_someTypes hrules).mono (fun _ _ => id) (fun _ => .inr) (Nat.zero_le _)
      (Nat.le_refl _)

/-- A bound in doubled brackets is read again with one pair. -/
theorem yields_insideBrackets (hrules : RulesStable rules) : Yields rules insideParens ts
    fun trees _ => ∀ inner, trees = [.node .type [.node .boundType [.group .paren inner]]] →
      AreLegible inner → (∃ children, inner = [.node .bound children]) ∧
        Rereads Nothing Anything 2 insideParens (unlinedTrees inner) := by
  refine .select_cons (fun _ => .empty nofun) fun _ =>
    .select_cons (fun _ => .labelled (.labelled (Yields.any.mono fun _ _ _ => ?_))) fun _ =>
    .select_cons (fun _ => .labelled (Yields.any.mono fun _ _ _ => ?_)) fun _ =>
    .select_nil (.append fun parsed hparsed => Yields.any.mono fun later _ _ inner heq => ?_)
  · simp
  · simp
  · obtain ⟨tree, htree, -⟩ := hrules.types true ts parsed hparsed
    rw [htree] at heq
    obtain ⟨rfl, -⟩ := List.cons.inj heq
    exact hrules.brackets true ts parsed inner hparsed htree

/-! ### What stands after the brackets -/

theorem stable_plusBounds (hrules : RulesStable rules) :
    Stable rules ParseTree.IsLegible Ends (fun ts us => Ends ts us ∧ atOp "+" us = atOp "+" ts) 0 1
      plusBounds ts := by
  refine .repeated rfl (fun _ _ hus => hus.2) (fun ts hts us hus => ⟨hus, ?_⟩) (fun ts _ => ?_)
    fun ts _ => .op_append hrules.suffix "+"
  · exact hts ▸ Bool.eq_false_iff.mpr fun hplus => by simp [hus.plus hplus] at hts
  · have hbound (ms : List Token) : Stable rules ParseTree.IsLegible
        (fun ts us => Ends ts us ∧ atOp "+" us = atOp "+" ts) Unlike 1 1 (bound false false) ms :=
      (stable_bound hrules false false).mono (fun _ _ hus => hus.1) (fun _ _ => trivial)
        (Nat.le_refl _) (Nat.le_refl _)
    refine ((Stable.mark (c := '+') (by decide)).append hbound (Nat.le_add_right _ _)
      (Nat.le_add_right _ _)).mono (fun _ _ => id) (fun us hus => ?_) (by decide) (Nat.le_refl _)
    obtain ⟨joint, rest, joint', later, rfl, rfl, -⟩ := hus
    exact ⟨ends_plus ⟨joint, rest, rfl⟩ ⟨joint', later, rfl⟩, by simp [atOp, takeOperator]⟩

/-- What follows round brackets that begin a type. -/
def afterParens (plus : Bool) (trees : Trees) : P :=
  match trees with
  | [.group .paren [.node .bound _]] => plusBounds
  | [.group .paren [tree]] => if plus && isSoleBound tree then plusBounds else .empty
  | _ => .empty

theorem parenType_eq (plus : Bool) :
    parenType plus = .edited (.bind (parens insideParens) (afterParens plus)) labelParens := rfl

theorem isSoleBound_unlined (tree : ParseTree Part) :
    isSoleBound tree.unlined = isSoleBound tree := by
  cases tree with
  | leaf | group => rfl
  | node label children =>
    cases label <;> try rfl
    match children with
    | [] | [.leaf _] | [.group _ _] => rfl
    | [.node label _] => cases label <;> rfl
    | first :: second :: rest => simp [ParseTree.unlined, unlinedTrees, isSoleBound]

theorem afterParens_singleton (tree : ParseTree Part) : afterParens plus [.group .paren [tree]] =
    if isNode .bound tree || plus && isSoleBound tree then plusBounds else .empty := by
  cases tree with
  | leaf | group => simp [afterParens, isNode]
  | node label children => cases label <;> simp [afterParens, isNode]

theorem afterParens_unlined (inside : Trees) :
    afterParens plus [.group .paren (unlinedTrees inside)] =
      afterParens plus [.group .paren inside] := by
  match inside with
  | [] => rfl
  | [tree] =>
    rw [unlinedTrees, unlinedTrees, afterParens_singleton, afterParens_singleton, isNode_unlined,
      isSoleBound_unlined]
  | first :: second :: rest => simp [unlinedTrees, afterParens]

theorem stable_afterParens (hrules : RulesStable rules) (trees : Trees) :
    Stable rules ParseTree.IsLegible Ends Unlike 0 1 (afterParens plus trees) ts := by
  have hplus : Stable rules ParseTree.IsLegible Ends Unlike 0 1 plusBounds ts :=
    (stable_plusBounds hrules).mono (fun _ _ => id) (fun _ _ => trivial) (Nat.le_refl _)
      (Nat.le_refl _)
  have hnone : Stable rules ParseTree.IsLegible Ends Unlike 0 1 .empty ts :=
    Stable.empty.mono (fun _ _ => id) (fun _ _ => trivial) (Nat.le_refl _) (Nat.le_refl _)
  unfold afterParens
  split
  · exact hplus
  · split
    · exact hplus
    · exact hnone
  · exact hnone

/-! ### Labels of brackets -/

/-- Only doubled brackets around a bound are dropped. -/
theorem withoutBrackets_cases (tree : ParseTree Part) :
    (∃ inner, tree = .node .type [.node .boundType [.group .paren inner]] ∧
      withoutBrackets tree = inner) ∨
    (¬ ∃ inner, tree = .node .type [.node .boundType [.group .paren inner]]) ∧
      withoutBrackets tree = [tree] := by
  unfold withoutBrackets
  split
  · next inner => exact .inl ⟨inner, rfl, rfl⟩
  · next hother => exact .inr ⟨fun ⟨inner, heq⟩ => hother inner heq, rfl⟩

theorem exists_group_of_unlined {trees inner : Trees} {d : Delimiter}
    (h : unlinedTrees trees = [.group d inner]) :
    ∃ inner', trees = [.group d inner'] ∧ unlinedTrees inner' = inner := by
  match trees, h with
  | [.group d' inner'], h =>
    simp only [unlinedTrees, ParseTree.unlined, List.cons.injEq, ParseTree.group.injEq] at h
    obtain ⟨⟨rfl, rfl⟩, -⟩ := h
    exact ⟨inner', rfl, rfl⟩
  | [.leaf _], h | [.node _ _], h => simp [unlinedTrees, ParseTree.unlined] at h
  | [], h | _ :: _ :: _, h => simp [unlinedTrees] at h

theorem withoutBrackets_unlined (tree : ParseTree Part) :
    withoutBrackets tree.unlined = unlinedTrees (withoutBrackets tree) := by
  rcases withoutBrackets_cases tree with ⟨inner, rfl, heq⟩ | ⟨hother, heq⟩
  · rw [heq]
    rfl
  · rcases withoutBrackets_cases tree.unlined with ⟨inner, hinner, -⟩ | ⟨-, heq'⟩
    · have hone : unlinedTrees [tree] = [.node .type [.node .boundType [.group .paren inner]]] := by
        rw [unlinedTrees, unlinedTrees, hinner]
      obtain ⟨_, htree, htype⟩ := exists_of_unlinedTrees_eq hone
      obtain ⟨_, rfl, hbound⟩ := exists_of_unlinedTrees_eq htype
      obtain ⟨inner', rfl, -⟩ := exists_group_of_unlined hbound
      exact absurd ⟨inner', List.singleton_inj.mp htree⟩ hother
    · rw [heq, heq', unlinedTrees, unlinedTrees]

/-- The label of brackets around a single tree. -/
theorem labelParens_singleton (tree : ParseTree Part) (after : Trees) :
    labelParens (.group .paren [tree] :: after) =
      if after.isEmpty && isNode .bound tree then [.node .boundType [.group .paren [tree]]]
      else if after.isEmpty && isNode .type tree then [.node .parenType [.group .paren [tree]]]
      else [.node .otherType (.group .paren (withoutBrackets tree) :: after)] := by
  match tree, after with
  | .leaf _, [] | .leaf _, _ :: _ | .group _ _, [] | .group _ _, _ :: _ | .node _ _, _ :: _ =>
    simp [labelParens, isNode]
  | .node label children, [] => cases label <;> simp [labelParens, isNode]

theorem labelParens_unlined (inside after : Trees) :
    labelParens (.group .paren (unlinedTrees inside) :: unlinedTrees after) =
      unlinedTrees (labelParens (.group .paren inside :: after)) := by
  match inside with
  | [] => cases after <;> rfl
  | [tree] =>
    have hempty : (unlinedTrees after).isEmpty = after.isEmpty := by cases after <;> rfl
    rw [unlinedTrees, unlinedTrees, labelParens_singleton, labelParens_singleton, hempty,
      isNode_unlined, isNode_unlined, withoutBrackets_unlined]
    split
    · rfl
    · split <;> rfl
  | first :: second :: rest => simp [unlinedTrees, labelParens, ParseTree.unlined]

/-- A label of what begins with round brackets keeps it, but for doubled brackets. -/
theorem labelParens_cases (inside after : Trees) :
    (∃ label, isOpen label = true ∧ labelParens (.group .paren inside :: after) =
      [.node label (.group .paren inside :: after)]) ∨
    ∃ inner, inside = [.node .type [.node .boundType [.group .paren inner]]] ∧ after ≠ [] ∧
      labelParens (.group .paren inside :: after) =
        [.node .otherType (.group .paren inner :: after)] := by
  match inside with
  | [] =>
    cases after with
    | nil => exact .inl ⟨.unitType, rfl, rfl⟩
    | cons first rest => exact .inl ⟨.otherType, rfl, rfl⟩
  | [tree] =>
    rw [labelParens_singleton]
    split
    · next hbound =>
      obtain ⟨rfl, -⟩ : after = [] ∧ isNode .bound tree = true := by simpa using hbound
      exact .inl ⟨.boundType, rfl, rfl⟩
    · split
      · next htype =>
        obtain ⟨rfl, -⟩ : after = [] ∧ isNode .type tree = true := by simpa using htype
        exact .inl ⟨.parenType, rfl, rfl⟩
      · next htype =>
        rcases withoutBrackets_cases tree with ⟨inner, rfl, heq⟩ | ⟨-, heq⟩
        · refine .inr ⟨inner, rfl, ?_, by rw [heq]⟩
          rintro rfl
          exact htype rfl
        · exact .inl ⟨.otherType, rfl, by rw [heq]⟩
  | first :: second :: rest => exact .inl ⟨.otherType, rfl, by simp [labelParens]⟩

/-- A type that begins with round brackets is stable. -/
theorem stable_parenType (hrules : RulesStable rules) :
    Stable rules ParseTree.IsLegible Ends SameHead 1 1 (parenType plus) ts := by
  rw [parenType_eq]
  refine Yields.edited (Yields.bind (.enclosed fun content mid hts inside hinside more hmore => ?_))
  have hafter := stable_afterParens hrules _ more hmore
  -- the brackets are read again with what they hold now, and then what stands after them
  have hall {kept : Trees} {label : Part} {front : List Token → Prop}
      (hkept : Rereads Nothing front 2 insideParens kept)
      (hlater : Rereads (Ends more.rest) Anything 1 (afterParens plus [.group .paren kept])
        (unlinedTrees more.trees))
      (hlabel : labelParens (.group .paren kept :: unlinedTrees more.trees) =
        [.node label (.group .paren kept :: unlinedTrees more.trees)]) :
      1 ≤ sizeOfTokens (tokensOf
        [ParseTree.node label (.group .paren kept :: unlinedTrees more.trees)]) ∧
      Rereads (Ends more.rest) (SameHead ts) 1
        (.edited (.bind (parens insideParens) (afterParens plus)) labelParens)
        [.node label (.group .paren kept :: unlinedTrees more.trees)] := by
    refine ⟨one_le_sizeOfTokens nofun, Rereads.edited ?_ hlabel (by simp)⟩
    have hgroup := hkept.enclosed (d := .paren) (by decide : 2 ≤ 0 + 64)
    refine (hgroup.bind hlater (Nat.zero_le _) (Nat.le_add_right _ _)).mono (fun _ => id) ?_
      (Nat.le_refl _)
    rintro _ ⟨inside, later, rfl⟩
    exact hts ▸ sameHead_cons (t := .group .paren content) (u := .group .paren inside) rfl rfl rfl
      mid later
  have hunlined := labelParens_unlined inside.trees more.trees
  intro hlegible
  rcases labelParens_cases inside.trees more.trees with ⟨label, hopen, heq⟩ |
    ⟨inner, htrees, hne, heq⟩
  all_goals
    rw [heq] at hunlined
    rw [List.singleton_append, heq] at hlegible ⊢
  · obtain ⟨hgroup, hmany⟩ := areLegible_of_node hopen (hlegible _ List.mem_cons_self)
    obtain ⟨-, hreads⟩ := stable_insideParens hrules inside hinside (legible_of_parens _ hgroup)
    have hlater := (hafter (areLegible_iff_forall.mp hmany)).2
    rw [← afterParens_unlined] at hlater
    exact hall hreads hlater hunlined
  · -- one pair of doubled brackets was dropped
    obtain ⟨hgroup, hmany⟩ := areLegible_of_node (rfl : isOpen .otherType = true)
      (hlegible _ List.mem_cons_self)
    obtain ⟨⟨children, rfl⟩, hreads⟩ := yields_insideBrackets hrules inside hinside inner htrees
      (areLegible_of_group (by decide) hgroup)
    have hplus : afterParens plus [.group .paren inside.trees] = plusBounds := by
      rw [htrees, afterParens_singleton] at hmore ⊢
      split at hmore
      · next hbound => rw [if_pos hbound]
      · cases hmore
        exact absurd rfl hne
    have hlater := (hafter (areLegible_iff_forall.mp hmany)).2
    rw [hplus] at hlater
    refine hall hreads hlater ?_
    have hempty : (unlinedTrees more.trees).isEmpty = false := by
      cases htrees : more.trees with
      | nil => exact absurd htrees hne
      | cons first rest => rfl
    rw [unlinedTrees, unlinedTrees, labelParens_singleton, hempty]
    rfl

/-! ## Any type -/

/-- A type is stable if the rules that it calls are. -/
theorem stable_typeRule (hrules : RulesStable rules) :
    Stable rules ParseTree.IsLegible Ends SameHead 1 1 (Language.type plus) ts := by
  have hlook {look : Look} (h : IsHeadLook look) (us : List Token) (hus : SameHead ts us) :
      look us = look ts := (h ts us hus).symm
  have hplain {p : P} (h : Stable rules ParseTree.IsLegible Ends SameHead 1 0 p ts) :
      Stable rules ParseTree.IsLegible Ends SameHead 1 1 p ts :=
    h.mono (fun _ _ => id) (fun _ => id) (Nat.le_refl _) (Nat.zero_le _)
  -- one line for each choice of the rule, in its order
  refine Stable.part rfl <|
    .select_cons (hlook (isHeadLook_atWord "for")) (fun _ => stable_boundByFor hrules) fun _ =>
    .select_cons (hlook (isHeadLook_atGroup .paren)) (fun _ => stable_parenType hrules) fun _ =>
    .select_cons (hlook (isHeadLook_atAnyWord _)) (fun _ => hplain (stable_functionPointer hrules))
      fun _ =>
    .select_cons (hlook isHeadLook_startsPathType) (fun _ => hplain (stable_labelledPath hrules))
      fun _ =>
    .select_cons (hlook (isHeadLook_atWord "dyn")) (fun _ => stable_objectType hrules) fun _ =>
    .select_cons (hlook (isHeadLook_atGroup .bracket)) (fun _ => hplain (stable_sliceType hrules))
      fun _ =>
    .select_cons (hlook (isHeadLook_atOp "*" rfl)) (fun _ => stable_pointerType hrules)
      fun _ =>
    .select_cons (hlook (isHeadLook_atOp "&" rfl)) (fun _ => stable_referenceType hrules)
      fun _ =>
    .select_cons (hlook (isHeadLook_atOp "!" rfl)) (fun _ => stable_neverType) fun _ =>
    .select_cons (hlook (isHeadLook_atWord "impl")) (fun _ => stable_hiddenType hrules) fun _ =>
    .select_cons (hlook (isHeadLook_atWord "_")) (fun _ => stable_inferType) fun _ =>
    .select_cons (hlook isHeadLook_atLifetime) (fun _ => stable_lifetimeObject hrules) fun _ =>
    .select_nil .noneOf

/-- A path does not begin with round brackets, so it is labelled as what does not either. -/
theorem labelPath_ne {trees inside : Trees} (h : trees ≠ [.group .paren inside]) :
    labelPath trees ≠ [.node .boundType [.group .paren inside]] := by
  intro hlabel
  rcases labelPath_cases trees with ⟨children, -, heq⟩ | ⟨path, joint, rest, -, heq⟩ | ⟨-, -, heq⟩
  all_goals rw [hlabel] at heq
  · split at heq
    · simp only [List.cons.injEq, ParseTree.node.injEq, true_and, and_true] at heq
      exact h heq.symm
    · simp at heq
  · simp at heq
  · simp at heq

/-- Only a bound in round brackets is labelled as a bound that begins with them. -/
theorem exists_bound_of_labelParens {inside after inner : Trees}
    (h : labelParens (.group .paren inside :: after) = [.node .boundType [.group .paren inner]]) :
    inner = inside ∧ ∃ children, inside = [.node .bound children] := by
  match inside with
  | [] => cases after <;> simp [labelParens] at h
  | first :: second :: rest => simp [labelParens] at h
  | [tree] =>
    rw [labelParens_singleton] at h
    split at h
    · next hbound =>
      obtain ⟨-, hnode⟩ : after = [] ∧ isNode .bound tree = true := by simpa using hbound
      match tree, hnode with
      | .node label children, hnode =>
        obtain rfl : label = .bound := by simpa [isNode] using hnode
        simp only [List.cons.injEq, ParseTree.node.injEq, ParseTree.group.injEq, true_and,
          and_true] at h
        exact ⟨h.symm, children, rfl⟩
    · split at h <;> simp at h

/-- Only a bound in round brackets is a bound that begins with them. -/
theorem yields_brackets (hrules : RulesStable rules) : Yields rules (Language.type plus) ts
    fun trees _ => ∀ inside, trees = [.node .type [.node .boundType [.group .paren inside]]] →
      AreLegible inside → (∃ children, inside = [.node .bound children]) ∧
        Rereads Nothing Anything 2 insideParens (unlinedTrees inside) := by
  have hof {p : P} {Q : Trees → Prop} (h : Yields rules p ts fun trees _ =>
      ∀ inside, trees = [.node .boundType [.group .paren inside]] → Q inside) :
      Yields rules p ts fun trees _ =>
        ∀ inside, [.node .type trees] = [ParseTree.node Part.type
          [.node .boundType [.group .paren inside]]] → Q inside :=
    h.mono fun trees _ h inside heq => h inside (by simpa using heq)
  have hother {p : P} {label : Part} {Q : Trees → Prop} (hlabel : label ≠ .boundType) :
      Yields rules (.labelled label p) ts fun trees _ =>
        ∀ inside, trees = [.node .boundType [.group .paren inside]] → Q inside :=
    .labelled (Yields.any.mono fun trees _ _ inside heq => absurd heq (by simp [hlabel]))
  refine .labelled <|
    .select_cons (fun _ => hof ?_) fun _ => .select_cons (fun _ => hof ?_) fun _ =>
    .select_cons (fun _ => hof (hother (by decide))) fun _ =>
    .select_cons (fun _ => hof ?_) fun _ =>
    .select_cons (fun _ => hof (hother (by decide))) fun _ =>
    .select_cons (fun _ => hof (hother (by decide))) fun _ =>
    .select_cons (fun _ => hof (hother (by decide))) fun _ =>
    .select_cons (fun _ => hof (hother (by decide))) fun _ =>
    .select_cons (fun _ => hof (hother (by decide))) fun _ =>
    .select_cons (fun _ => hof (hother (by decide))) fun _ =>
    .select_cons (fun _ => hof (hother (by decide))) fun _ =>
    .select_cons (fun _ => hof (hother (by decide))) fun _ => .select_nil .noneOf
  · refine .edited (.append (.call fun parsed hparsed =>
      Yields.any.mono fun later _ _ inside => ?_))
    obtain ⟨hfor, -⟩ := hrules.bound ts parsed hparsed
    intro heq
    refine absurd heq ?_
    rw [labelBoundByFor]
    split
    · simp
    · refine labelPath_ne fun hgroup => ?_
      cases htrees : parsed.trees with
      | nil => simp [htrees] at hfor
      | cons first trees =>
        rw [htrees] at hfor hgroup
        obtain ⟨rfl, -⟩ := List.cons.inj hgroup
        cases hfor
  · rw [parenType_eq]
    refine .edited (.bind (.enclosed fun content mid hts inside hinside => ?_))
    refine Yields.any.mono fun later _ _ inner heq hlegible => ?_
    obtain ⟨rfl, hbound⟩ := exists_bound_of_labelParens heq
    refine ⟨hbound, ?_⟩
    exact (stable_insideParens hrules inside hinside (areLegible_iff_forall.mp hlegible)).2.mono
      (fun _ => id) (fun _ _ => trivial) (Nat.le_refl _)
  · refine .edited (yields_pathTrees.mono ?_)
    rintro _ _ ⟨path, more, rfl, hpath⟩ inside heq
    refine absurd heq (labelPath_ne fun hgroup => ?_)
    obtain ⟨rfl, -⟩ := List.cons.inj hgroup
    cases hpath

/-! ## The grammar -/

theorem bound_read (depth : Nat) (ts : List Token) (parsed : Parsed Part)
    (h : language.read depth .binders ts = .success parsed) :
    parsed.trees.head?.any (isWord "for") = true ∧
      ∀ tree ∈ parsed.trees, isPathNode tree = false := by
  refine ⟨bindersStart_read depth ts parsed h, ?_⟩
  cases depth with
  | zero => cases h
  | succ depth =>
    have hparams (ms : List Token) : Yields (language.read depth) (separated atAngleEnd
        (Language.op ",") (genericParam (oneOf [(.name, typeParam), (.lifetime, lifetimeParam),
          (.word "const", constParam)]))) ms fun trees _ =>
            ∀ tree ∈ trees, isPathNode tree = false := by
      refine .repeated fun ms _ => .append (.edited (Yields.any.mono fun trees mid _ => ?_))
      have hparam (b : Bool) : isPathNode
          (.node (if b then Part.lifetimeParam else .typeParam) trees) = false := by
        cases b <;> rfl
      refine .either (fun _ => .empty ?_) fun _ => .mark (c := ',') fun _ => ?_
      · simpa using hparam _
      · simpa [isPathNode, isNode] using hparam _
    have hbinders : Yields (language.read depth) Language.binders ts
        fun trees _ => ∀ tree ∈ trees, isPathNode tree = false := by
      refine .append (.append (.append (.word fun line _ _ => .mark (c := '<') fun _ =>
        (hparams _).mono fun params _ hparams => .mark (c := '>') fun _ => ?_)))
      simpa [isPathNode, isNode, or_imp, forall_and] using hparams
    exact hbinders parsed h

/-- The rules of the grammar are stable. -/
theorem rulesStable_read (depth : Nat) : RulesStable (language.read depth) := by
  induction depth with
  | zero =>
    exact {
      suffix := nofun
      types := nofun
      type := fun _ _ => Yields.call nofun
      path := fun _ => Yields.call nofun
      binders := fun _ => Yields.call nofun
      pointerParameters := fun _ _ => Yields.call nofun
      bound := nofun
      brackets := nofun }
  | succ depth ih =>
    have hcall {r : Rule} {legible : ParseTree Part → Prop} {follow front : Likeness}
        {size extra : Nat} {ts : List Token}
        (h : Stable (language.read depth) legible follow front size extra (language r) ts) :
        Stable (language.read (depth + 1)) legible follow front size (extra + 1) (call r) ts :=
      Yields.call fun parsed hparsed hlegible =>
        ⟨(h parsed hparsed hlegible).1, (h parsed hparsed hlegible).2.call⟩
    have htype (plus : Bool) (ts : List Token) : Yields (language.read depth)
        (Language.type plus) ts fun trees _ => ∃ tree, trees = [tree] ∧ isNode .type tree = true :=
      .labelled (Yields.any.mono fun _ _ _ => ⟨_, rfl, rfl⟩)
    exact {
      suffix := fun _ _ _ => isSuffix_of_read language
      types := htype
      type := fun plus ts => hcall (stable_typeRule ih)
      path := fun ts => Yields.call fun parsed hparsed => by
        obtain ⟨path, hpath, hnode, hreads⟩ := readsPath_pathWith ih parsed hparsed
        exact ⟨path, hpath, hnode, fun tree htree hlegible =>
          (hreads tree htree hlegible).imp_right (Rereads.call (r := .path))⟩
      binders := fun ts => hcall (stable_binders ih)
      pointerParameters := fun isFirst ts => hcall (stable_pointerParameters ih isFirst)
      bound := bound_read _
      brackets := fun plus ts parsed inside hparsed => yields_brackets ih parsed hparsed inside }

/-- A type that is legible is read again from tokens that spell those of its tree. -/
theorem rereads_type {depth : Nat} {ts : List Token} {parsed : Parsed Part}
    {tree : ParseTree Part} (h : language.read depth (.type plus) ts = .success parsed)
    (htree : parsed.trees = [tree]) (hlegible : tree.IsLegible) :
    Rereads (Ends parsed.rest) (fun us => SameHead ts us ∧ StartsType us) 2
      (Language.call (.type plus)) [tree.unlined] := by
  have hreads := stable_type (rulesStable_read depth) plus parsed h
  rw [htree] at hreads
  exact (hreads (List.forall_mem_singleton.mpr hlegible)).2

end DaoGen.Code
