import DaoGen.Proofs.Code.StableGenerics

/-!
# Function pointers are read again

A parameter of a function pointer may have a name. One without a name is not taken for one with a
name when it is read again: at a name before a colon a type would end after the name. A writable
receiver is kept as written and so not legible.

## Main results

* `stable_pointerParameters`: the parameters of a function pointer are read again.
* `stable_functionPointer`: so is a function pointer.
-/
namespace DaoGen.Code

open Code.Language

variable {rules : Rule → List Token → Match Part} {ts : List Token} {extra : Nat}

/-! ## Names of parameters -/

/-- Whether a parameter of a function pointer begins with its name. -/
def isNamedParameter (isFirst : Bool) (tokens : List Token) : Bool :=
  (atName tokens || atWord "_" tokens || isFirst && atWord "self" tokens) && second atColon tokens

theorem not_atArguments_of_atColon (h : atColon ts = true) : atArguments false ts = false := by
  obtain ⟨hcolon, hcolons⟩ : atOp ":" ts = true ∧ atOp "::" ts = false := by
    simpa [atColon] using h
  obtain ⟨joint, rest, rfl⟩ := exists_of_atOp (c := ':') (by decide) hcolon
  simp only [atArguments, hcolons]
  simp [atOp, takeOperator]

section Alone

variable {text : String} {line : Nat}

/-- Before a colon a path ends after its first name. -/
theorem yields_pathWith_alone (hts : atColon ts = true) :
    Yields rules (pathWith false) (.ident text line :: ts) fun _ rest => rest = ts := by
  have hcolons := (closes_colon hts).colons
  have hnamed : Yields rules (.given (atArguments false) typeArguments) ts
      fun _ rest => rest = ts :=
    .given (fun h => absurd h (by simp [not_atArguments_of_atColon hts])) fun _ => rfl
  have hsegment : Yields rules (segment false) (.ident text line :: ts)
      fun _ rest => rest = ts := by
    refine .labelled (.either (fun _ => .anyName fun _ _ _ heq => ?_) fun _ => .append (.either
      (fun _ => .anyName fun _ _ _ heq => ?_) fun _ => .name fun _ _ _ heq _ => ?_))
    all_goals obtain ⟨-, rfl⟩ := List.cons.inj heq
    · rfl
    · exact hnamed
    · exact hnamed
  refine .labelled (.append (.append (.given (fun h => absurd h (by simp [atOp, takeOperator]))
    fun _ => hsegment.mono ?_)))
  rintro _ _ rfl
  exact .repeated_neg (by simp [hcolons]) rfl

/-- Before a colon a type that begins with a name ends after the name. -/
theorem yields_type_alone {depth : Nat} {plus : Bool}
    (htext : isPathName text = true ∨ text = "_") (hts : atColon ts = true) :
    Yields (language.read depth) (call (.type plus)) (.ident text line :: ts)
      fun _ rest => rest = ts := by
  refine .call fun parsed hparsed => ?_
  cases depth with
  | zero => cases hparsed
  | succ depth =>
    suffices hall : Yields (language.read depth) (Language.type plus) (.ident text line :: ts)
        fun _ rest => rest = ts from hall parsed hparsed
    have hof {look : Look} {p : P} {post : Trees → List Token → Prop}
        (hlook : look (.ident text line :: ts) = false) (h : look (.ident text line :: ts) = true) :
        Yields (language.read depth) p (.ident text line :: ts) post := absurd h (by simp [hlook])
    have hmark (c : Char) : atOp (String.singleton c) (.ident text line :: ts) = false := by
      simp [atOp, takeOperator]
    rcases htext with hpath | rfl
    · have hpointer : ["fn", "unsafe", "extern"].contains text = false := by
        simp [ne_of_isPathName hpath (by decide : isPathName "fn" = false),
          ne_of_isPathName hpath (by decide : isPathName "unsafe" = false),
          ne_of_isPathName hpath (by decide : isPathName "extern" = false)]
      refine .labelled (.select_cons
        (hof (by simp [atWord, ne_of_isPathName hpath (by decide : isPathName "for" = false)]))
        fun _ => .select_cons (hof rfl) fun _ => .select_cons (hof hpointer) fun _ =>
          .select_cons (fun _ => ?_) fun hno =>
            absurd hno (by simp [startsPathType, atPathName, hpath]))
      refine .edited (.bind (.either (hof (hmark '<')) fun _ =>
        (yields_pathWith_alone hts).mono ?_))
      rintro trees _ rfl
      unfold afterPath
      split
      · exact .empty rfl
      · refine .select_cons (fun h => absurd h ?_) fun _ => .select_cons (fun h => absurd h ?_)
          fun _ => .select_nil (.empty rfl)
        · simp [atMacroCall, atBang, (closes_colon hts).bang]
        · simp [(closes_colon hts).plus_eq_false]
    · refine .labelled <|
        .select_cons (hof rfl) fun _ => .select_cons (hof rfl) fun _ =>
        .select_cons (hof (by simp [atPointer, atAnyWord])) fun _ => .select_cons (hof ?_) fun _ =>
        .select_cons (hof rfl) fun _ => .select_cons (hof rfl) fun _ =>
        .select_cons (hof (hmark '*')) fun _ => .select_cons (hof (hmark '&')) fun _ =>
        .select_cons (hof (hmark '!')) fun _ => .select_cons (hof rfl) fun _ =>
        .select_cons (fun _ => .labelled (.word fun _ _ heq => (List.cons.inj heq).2.symm))
          fun hno => absurd hno (by simp [atWord])
      have hname : isPathName "_" = false := by decide
      simp [startsPathType, atPathName, hname, atOp, takeOperator]

end Alone

/-! ## Parameters -/

/-- What stands after a parameter. -/
def EndsParameter (us : List Token) : Prop := us = [] ∨ AtMark ',' us

theorem EndsParameter.closes {us : List Token} (h : EndsParameter us) : Closes us := by
  rcases h with rfl | h
  · exact closes_nil
  · exact closes_mark (by decide) h

theorem EndsParameter.not_atColon {us : List Token} (h : EndsParameter us) :
    atColon us = false := by
  rcases h with rfl | ⟨joint, rest, rfl⟩
  · rfl
  · simp [atColon, atOp, takeOperator]

theorem isPathName_of_isNamedParameter {isFirst : Bool}
    (h : isNamedParameter isFirst ts = true) :
    ∃ text line rest, ts = .ident text line :: rest ∧ (isPathName text = true ∨ text = "_") ∧
      text ≠ "mut" ∧ atColon rest = true := by
  match ts with
  | [] | .punct _ _ :: _ | .lifetime _ :: _ | .literal _ :: _ | .group _ _ :: _ =>
    simp [isNamedParameter, atName, atWord] at h
  | .ident text line :: rest =>
    simp only [isNamedParameter, atName, atWord, second, Bool.and_eq_true, Bool.or_eq_true,
      beq_iff_eq, List.drop_one, List.tail_cons] at h
    obtain ⟨(hname | rfl) | ⟨-, rfl⟩, hcolon⟩ := h
    · refine ⟨text, line, rest, rfl, .inl (by simp [isPathName, hname]), ?_, hcolon⟩
      rintro rfl
      exact absurd hname (by decide)
    · exact ⟨_, line, rest, rfl, .inr rfl, by decide, hcolon⟩
    · exact ⟨_, line, rest, rfl, .inl (by decide), by decide, hcolon⟩

/-- A type without a name is not taken for one with a name. -/
theorem isNamedParameter_of_reads {isFirst : Bool} {depth : Nat} {trees : Trees}
    {after : List Token} (hread : Reads (language.read depth) (call (.type true)) ts trees after)
    (hafter : EndsParameter after) : isNamedParameter isFirst ts = false := by
  rw [Bool.eq_false_iff]
  intro hnamed
  obtain ⟨text, line, rest, rfl, htext, -, hcolon⟩ := isPathName_of_isNamedParameter hnamed
  obtain rfl : after = rest := yields_type_alone htext hcolon _ hread
  rw [hafter.not_atColon] at hcolon
  cases hcolon

theorem atDots_eq_false (h : StartsType ts) : atOp "..." ts = false := by
  have hdot := h.dot
  rw [atOp, takeOperator, Option.isSome_eq_false_iff, Option.isNone_iff_eq_none] at hdot ⊢
  exact takeCharacters_cons_cons_eq_none hdot

/-- No further parameters are read where a type begins without a name. -/
theorem atFurtherParameters_of_startsType (h : StartsType ts)
    (hnamed : isNamedParameter false ts = false) : atFurtherParameters ts = false := by
  rw [atFurtherParameters, atDots_eq_false h, Bool.false_or, Bool.eq_false_iff]
  intro hfurther
  simp only [Bool.and_eq_true] at hfurther
  obtain ⟨⟨hname, hcolon⟩, hdots⟩ := hfurther
  refine absurd hnamed ?_
  rw [isNamedParameter, Bool.false_and, Bool.or_false, hname, Bool.true_and]
  obtain ⟨joint, rest, hrest⟩ := exists_of_atOp (c := ':') (by decide) hcolon
  -- the second mark is a dot, so the colon is not the first one of two
  obtain ⟨joint', later, hlater⟩ := exists_of_atOp (c := '.') (by decide) hdots
  have hlater : rest = .punct '.' joint' :: later := by
    rw [show 2 = 1 + 1 from rfl, ← List.drop_drop, hrest] at hlater
    exact hlater
  simp [second, hrest, hlater, atColon, atOp, takeOperator]

/-- What is kept as written begins with the first token. -/
theorem written_cons {t : Token} {mid rest : List Token} (h : rest <:+ mid) :
    (Production.written (t :: mid) rest : Trees) = .leaf t :: Production.written mid rest := by
  rw [Production.written, Production.written, List.length_cons, Nat.succ_sub h.length_le,
    List.take_succ_cons, List.map_cons]

theorem mem_written {front mid rest : List Token} {t : Token} (h : rest <:+ mid) :
    .leaf t ∈ (Production.written (front ++ t :: mid) rest : Trees) := by
  induction front with
  | nil => exact written_cons h ▸ List.mem_cons_self
  | cons first front ih =>
    have hlater : rest <:+ front ++ t :: mid := (h.trans (List.suffix_cons _ _)).trans
      (List.suffix_append _ _)
    rw [List.cons_append, written_cons hlater]
    exact List.mem_cons_of_mem _ ih

theorem isWord_ident {word text : String} (h : text ≠ word) (line : Nat) :
    isWord word (.leaf (.ident text line)) = false := by
  simp [isWord, h]

theorem isWord_punct (word : String) (c : Char) : isWord word (.leaf (.punct c)) = false := rfl

/-- A parameter that is no writable receiver is read as its name, if it has one, and its type. -/
theorem reads_pointerParameter {isFirst : Bool} {names later : Trees} {mid after : List Token}
    (hself : (isFirst && atMutSelf ts) = false)
    (hnames : Reads rules (.given (fun _ => isNamedParameter isFirst ts)
      (anyName ++ Language.op ":")) ts names mid)
    (hmid : atMutSelf mid = false) (htype : Reads rules (call (.type true)) mid later after)
    (hmut : (names ++ later).any (isWord "mut") = false) :
    Reads rules (pointerParameter isFirst) ts (names ++ later) after := by
  have hchoice : Reads rules (.choose fun tokens =>
      let isReceiver := isFirst && atWord "self" tokens
      let isNamed := (atName tokens || atWord "_" tokens || isReceiver) && second atColon tokens
      .given (fun _ => isNamed) (anyName ++ Language.op ":") ++
        select
          [(fun tokens => isFirst && !(isNamed && isReceiver) && atMutSelf tokens,
              word "mut" ++ word "self"),
            (fun _ => (isFirst && atMutSelf ts) && !isNamed, word "self")]
          (call (.type true))) ts (names ++ later) after :=
    .choose (hnames.append (.select_neg (by simp [hmid]) (.select_neg (by simp [hself])
      (.select_nil htype))))
  exact .asWritten (.choose ((Reads.given_neg hself).append hchoice)) hmut

theorem StartsType.not_atMutSelf (h : StartsType ts) : atMutSelf ts = false := by
  simp [atMutSelf, h.writable]

variable {tree : ParseTree Part} {isFirst : Bool}

/-- A parameter without a name is read again. -/
theorem rereads_unnamedParameter (hmut : isWord "mut" tree = false)
    (htype : Rereads Closes (fun us => SameHead ts us ∧ StartsType us) 2 (call (.type true))
      [tree]) :
    Rereads EndsParameter (fun us => SameHead ts us ∧ atFurtherParameters us = false) 2
      (pointerParameter isFirst) [tree] where
  plain := htype.plain
  reads hus hafter := by
    obtain ⟨⟨hhead, hstart⟩, hread⟩ := htype.reads hus hafter.closes
    have hnamed (isFirst : Bool) : isNamedParameter isFirst (_ ++ _) = false :=
      isNamedParameter_of_reads (hread _ (Nat.le_refl _)) hafter
    refine ⟨⟨hhead, atFurtherParameters_of_startsType hstart (hnamed false)⟩,
      fun depth hdepth => ?_⟩
    exact reads_pointerParameter (by simp [hstart.not_atMutSelf]) (.given_neg (hnamed isFirst))
      hstart.not_atMutSelf (hread depth hdepth) (by simp [hmut])

/-- A parameter with a name is read again. -/
theorem rereads_namedParameter {text : String} {line : Nat} {rest : List Token}
    (hmut : isWord "mut" tree = false) (hword : IsWord text)
    (hname : isNamedParameter isFirst (.ident text line :: rest) = true)
    (htype : Rereads Closes StartsType 2 (call (.type true)) [tree]) :
    Rereads EndsParameter
      (fun us => SameHead (.ident text line :: rest) us ∧ atFurtherParameters us = false) 2
      (pointerParameter isFirst) [.leaf (.ident text 1), .leaf (.punct ':'), tree] := by
  have hcolon : Rereads EndsParameter (fun us => atColon us = true) 2
      (Language.op ":" ++ call (.type true)) [.leaf (.punct ':'), tree] := by
    refine rereads_colon (htype.mono (fun _ => EndsParameter.closes) (fun _ => id)
      (Nat.le_refl _)) ?_
    rintro _ (rfl | ⟨joint, rest, rfl⟩)
    · rfl
    · simp [atOp, takeOperator]
  have hplain := ((rereads_anyName hword).append (hcolon.mono (fun _ => id) (fun _ _ => trivial)
    (Nat.le_refl _)) (Nat.le_add_right 2 _) (Nat.le_add_right _ _)).plain
  refine ⟨hplain, fun {us after} hus hafter => ?_⟩
  rw [piecesOf_cons, ParseTree.pieces_leaf, List.singleton_append] at hus
  obtain ⟨_, ws, rfl, -, hws, rfl⟩ := hus
  have hahead : atColon (ws ++ after) = true := (hcolon.reads hws hafter).1
  rw [piecesOf_cons, ParseTree.pieces_leaf, List.singleton_append] at hws
  obtain ⟨_, vs, ⟨joint, -, rfl⟩, -, hvs, rfl⟩ := hws
  obtain ⟨hstart, hread⟩ := htype.reads hvs hafter.closes
  have hnamed : isNamedParameter isFirst
      (.ident text 1 :: .punct ':' joint :: (vs ++ after)) = true := by
    simp only [isNamedParameter, second, Bool.and_eq_true] at hname ⊢
    exact ⟨hname.1, hahead⟩
  obtain ⟨_, _, _, heq, -, hne, -⟩ := isPathName_of_isNamedParameter hname
  cases heq
  refine ⟨⟨sameHead_ident text rest _, ?_⟩, fun depth hdepth => ?_⟩
  · have hdots := atDots_eq_false hstart
    simp only [atFurtherParameters, third, List.cons_append, List.drop_succ_cons, List.drop_zero,
      hdots]
    simp [atOp, takeOperator]
  · have hnames : Reads (language.read depth) (.given (fun _ => isNamedParameter isFirst
        (.ident text 1 :: .punct ':' joint :: (vs ++ after))) (anyName ++ Language.op ":"))
        (.ident text 1 :: .punct ':' joint :: (vs ++ after))
        ([.leaf (.ident text 1)] ++ [.leaf (.punct ':')]) (vs ++ after) :=
      .given_pos hnamed (Reads.anyName.append (Reads.mark (c := ':')))
    refine reads_pointerParameter ?_ hnames hstart.not_atMutSelf (hread depth ?_) ?_
    · simp [atMutSelf, atWord, hne]
    · simp only [sizeOfTokens, Token.size] at hdepth
      omega
    · simp [isWord_ident hne, isWord_punct, hmut]

/-- A tree is the type of a parameter, and it is read again. -/
structure IsParameterType (ts : List Token) (tree : ParseTree Part) : Prop where
  writable : isWord "mut" tree = false
  size : tree.IsLegible → 1 ≤ sizeOfTokens (tokensOf [tree.unlined])
  reads : tree.IsLegible →
    Rereads Closes (fun us => SameHead ts us ∧ StartsType us) 2 (call (.type true)) [tree.unlined]

theorem yields_parameterType (hrules : RulesStable rules) :
    Yields rules (call (.type true)) ts fun trees _ =>
      ∃ tree, trees = [tree] ∧ IsParameterType ts tree := by
  intro parsed hparsed
  obtain ⟨tree, htree, hlabel⟩ := hrules.types true ts parsed hparsed
  have htype := stable_type hrules true parsed hparsed
  rw [htree] at htype
  refine ⟨tree, htree, ?_, fun hlegible => ?_, fun hlegible => ?_⟩
  · match tree, hlabel with
    | .node _ _, _ => rfl
  · exact (htype (List.forall_mem_singleton.mpr hlegible)).1
  · exact (htype (List.forall_mem_singleton.mpr hlegible)).2.mono (fun _ hus => hus.ends _)
      (fun _ => id) (Nat.le_refl _)

/-- What a parameter is read as: a writable receiver as it was written, or a type, perhaps after
a name. -/
inductive ParameterCase (isFirst : Bool) (ts : List Token) (trees : Trees) : Prop where
  | written {tree : ParseTree Part} (htree : tree ∈ trees) (hmut : isWord "mut" tree = true)
  | unnamed {tree : ParseTree Part} (htype : IsParameterType ts tree) (htrees : trees = [tree])
  | named {text : String} {line : Nat} {joint : Bool} {rest : List Token} {tree : ParseTree Part}
    (hts : ts = .ident text line :: .punct ':' joint :: rest)
    (hname : isNamedParameter isFirst ts = true) (htype : IsParameterType rest tree)
    (htrees : trees = [.leaf (.ident text line), .leaf (.punct ':'), tree])

/-- A writable receiver is kept as written. -/
theorem ParameterCase.of_mut {trees : Trees} {mid rest : List Token} {line : Nat}
    (front : List Token) (hts : ts = front ++ .ident "mut" line :: mid) (hrest : rest <:+ mid)
    (hmut : .leaf (.ident "mut" line) ∈ trees) : ParameterCase isFirst ts
      (if trees.any (isWord "mut") then Production.written ts rest else trees) := by
  rw [if_pos (List.any_eq_true.mpr ⟨_, hmut, rfl⟩), hts]
  exact .written (mem_written hrest) rfl

theorem yields_pointerParameter (hrules : RulesStable rules) (isFirst : Bool) :
    Yields rules (pointerParameter isFirst) ts fun trees _ => ParameterCase isFirst ts trees := by
  refine Yields.shaped (.choose ?_)
  by_cases hself : (isFirst && atMutSelf ts) = true
  · refine .append (.given (fun _ => ?_) fun hnone => absurd hself (by simp [hnone]))
    refine .word fun line mid hts => (Yields.isSuffix hrules.suffix _ mid).mono ?_
    exact fun trees rest hrest => .of_mut [] hts hrest (by simp)
  refine .append (.given (fun hmut => absurd hmut hself) fun _ => .choose ?_)
  refine .append (.given (fun hname => .append (.anyName fun text line rest hts =>
    .markAt (c := ':') fun joint mid hrest => ?_)) fun _ => ?_)
  · refine .select_cons (fun _ => .append (.word fun line' ms hms => .word fun _ ms' hms' => ?_))
      fun _ => .select_cons (fun hmut => absurd hmut (by simp [hself])) fun _ => .select_nil
        ((yields_parameterType hrules).mono ?_)
    · subst hts hrest hms
      exact .of_mut [_, _] rfl (hms' ▸ List.suffix_cons _ _) (by simp)
    · rintro _ after ⟨tree, rfl, htype⟩
      obtain ⟨_, _, _, heq, -, hne, -⟩ := isPathName_of_isNamedParameter hname
      obtain rfl : text = _ := (Token.ident.inj (List.cons.inj (hts.symm.trans heq)).1).1
      have hnone : ([] ++ ([.leaf (.ident text line)] ++ [.leaf (.punct ':')] ++ [tree]) :
          Trees).any (isWord "mut") = false := by
        simp [htype.writable, isWord_ident hne, isWord_punct]
      rw [if_neg fun h => Bool.false_ne_true (hnone.symm.trans h)]
      exact .named (hrest ▸ hts) hname htype rfl
  · refine .select_cons (fun hmut => absurd ?_ hself) fun _ =>
      .select_cons (fun hmut => absurd hmut (by simp [hself])) fun _ =>
        .select_nil ((yields_parameterType hrules).mono ?_)
    · simp only [Bool.and_eq_true] at hmut ⊢
      exact ⟨hmut.1.1, hmut.2⟩
    · rintro _ after ⟨tree, rfl, htype⟩
      refine .unnamed htype ?_
      simp [htype.writable]

/-- A parameter is stable. A writable receiver is not legible. -/
theorem stable_pointerParameter (hrules : RulesStable rules) (isFirst : Bool) :
    Stable rules IsParameterLegible (fun _ => EndsParameter)
      (fun ts us => SameHead ts us ∧ atFurtherParameters us = false) 1 2
        (pointerParameter isFirst) ts := by
  refine (yields_pointerParameter hrules isFirst).mono ?_
  rintro _ _ (⟨htree, hmut⟩ | ⟨htype, rfl⟩ | ⟨rfl, hname, htype, rfl⟩) hlegible
  · rw [(hlegible _ htree).2] at hmut
    cases hmut
  · have htree := (hlegible _ List.mem_cons_self).1
    exact ⟨htype.size htree, rereads_unnamedParameter ((isWord_unlined _ _).trans htype.writable)
      (htype.reads htree)⟩
  · have htree := (hlegible _ (List.mem_cons_of_mem _ (List.mem_cons_of_mem _
      List.mem_cons_self))).1
    refine ⟨?_, rereads_namedParameter ((isWord_unlined _ _).trans htype.writable)
      (hlegible _ List.mem_cons_self).1 hname ((htype.reads htree).mono (fun _ => id)
        (fun _ hus => hus.2) (Nat.le_refl _))⟩
    exact one_le_sizeOfTokens nofun

/-! ## Lists of parameters -/

/-- A word, and what stands after it. -/
def AfterIdent (after : Likeness) (ts us : List Token) : Prop :=
  ∃ text line rest line' later, ts = .ident text line :: rest ∧
    us = .ident text line' :: later ∧ after rest later

theorem stable_anyNameThen {follow : Likeness} :
    Stable rules ParseTree.IsLegible follow (AfterIdent follow) 1 extra anyName ts := by
  refine Yields.anyName fun text line rest hts htree => ⟨Nat.le_refl _, ?_⟩
  have hword : IsWord text := htree _ List.mem_cons_self
  have hname : Rereads Anything (AtIdent text) extra anyName [.leaf (.ident text 1)] :=
    rereads_anyName hword
  refine ⟨hname.plain, fun {us after} hus hafter => ⟨?_, (hname.reads hus trivial).2⟩⟩
  obtain rfl : us = [.ident text 1] := by
    simpa [unlinedTrees, ParseTree.unlined, Token.unlined] using hus
  exact ⟨text, line, rest, 1, after, hts, rfl, hafter⟩

/-- The mark of further parameters is stable, with a name before it or without. -/
theorem stable_furtherParameters (hts : atFurtherParameters ts = true) :
    Stable rules ParseTree.IsLegible Ended
      (fun ts us => SameHead ts us ∧ atFurtherParameters us = true) 0 0 furtherParameters ts := by
  have hdots (ms : List Token) : Stable rules ParseTree.IsLegible Unlike
      (fun ts us => SameHead ts us ∧ atOp "..." us = true) 1 0 (Language.op "...") ms :=
    Stable.op (by decide)
  have hcomma (ms : List Token) : Stable rules ParseTree.IsLegible Ended Unlike 0 0
      (optOp ",") ms := by
    refine Stable.mono (?_ : Stable _ _ _ (fun ts us => atOp "," us = atOp "," ts) 0 0 _ _)
      (fun _ _ => id) (fun _ _ => trivial) (Nat.le_refl _) (Nat.le_refl _)
    refine .given (fun _ => id) (fun hms => ?_) fun hms us hus => ?_
    · exact (Stable.op (by decide)).mono (fun _ _ _ => trivial)
        (fun us hus => hus.2.trans hms.symm) (Nat.zero_le _) (Nat.le_refl _)
    · obtain rfl : us = [] := hus
      exact hms.symm
  have hname : Stable rules ParseTree.IsLegible (fun ts us => SameHead ts us ∧ atOp "..." us = true)
      (fun ts us => SameHead ts us ∧ atFurtherParameters us = true) 0 0
        (.given (fun tokens => atName tokens || atWord "_" tokens) (anyName ++ Language.op ":"))
          ts := by
    have hlook : IsHeadLook fun tokens => atName tokens || atWord "_" tokens :=
      isHeadLook_atName.or (isHeadLook_atWord "_")
    refine .given (fun us hus => (hlook ts us hus.1).symm) (fun hnamed => ?_) fun _ us hus =>
      ⟨hus.1, by simp [atFurtherParameters, hus.2]⟩
    refine (stable_anyNameThen.append (fun _ => Stable.mark (c := ':') (by decide))
      (Nat.zero_le _) (Nat.zero_le _)).mono (fun _ _ => id) (fun us hus => ?_) (Nat.zero_le _)
        (Nat.le_refl _)
    obtain ⟨text, line, rest, line', _, rfl, rfl, joint, later, joint', after, rfl, rfl, -,
      hdots⟩ := hus
    refine ⟨sameHead_ident text _ _, ?_⟩
    have hnamed : (atName (.ident text line' :: .punct ':' joint' :: after) ||
        atWord "_" (.ident text line' :: .punct ':' joint' :: after)) = true := hnamed
    have hcolon : atOp ":" (.punct ':' joint' :: after) = true := by simp [atOp, takeOperator]
    simp [atFurtherParameters, hnamed, second, third, hcolon, hdots]
  have hmarked := hname.append hdots (Nat.zero_le (0 + _)) (Nat.zero_le _)
  exact (hmarked.append hcomma (Nat.zero_le (0 + _)) (Nat.zero_le _)).mono (fun _ _ => id)
    (fun _ => id) (Nat.zero_le _) (Nat.le_refl _)

/-- The parameters of a function pointer are stable. -/
theorem stable_pointerParameters (hrules : RulesStable rules) (isFirst : Bool) :
    Stable rules IsParameterLegible Ended Unlike 0 2 (Language.pointerParameters isFirst) ts := by
  have hlater (ms : List Token) : Stable rules IsParameterLegible Ended
      (fun _ => EndsParameter) 0 2
        (unlessEnd (Language.op "," ++ call (.pointerParameters false))) ms := by
    refine Stable.mono
      (?_ : Stable _ _ _ (fun ts us => EndsParameter us ∧ atEnd us = atEnd ts) 0 2 _ _)
      (fun _ _ => id) (fun _ hus => hus.1) (Nat.le_refl _) (Nat.le_refl _)
    refine .either (fun _ hus => hus.2) (fun hms => ?_) fun hms => ?_
    · refine Stable.empty.mono (fun _ _ => id) (fun us hus => ?_) (Nat.le_refl _) (Nat.le_refl 2)
      obtain rfl : us = [] := hus
      exact ⟨.inl rfl, hms.symm⟩
    · have hmark : Stable rules IsParameterLegible Unlike (AfterMark ',' Unlike) 1 0
          (Language.op ",") ms := Stable.mark (c := ',') (by decide)
      refine (hmark.append (hrules.pointerParameters false) (Nat.zero_le _) (by decide)).mono
        (fun _ _ => id) (fun us hus => ?_) (by decide) (Nat.le_refl _)
      obtain ⟨_, _, joint, rest, _, rfl, _⟩ := hus
      exact ⟨.inr ⟨joint, rest, rfl⟩, hms.symm⟩
  have hone (ms : List Token) : Stable rules IsParameterLegible Ended
      (fun ts us => SameHead ts us ∧ atFurtherParameters us = atFurtherParameters ts) 0 2
        (.either atFurtherParameters furtherParameters (pointerParameter isFirst ++
          unlessEnd (Language.op "," ++ call (.pointerParameters false)))) ms := by
    refine .either (fun _ hus => hus.2) (fun hms => ?_) fun hms => ?_
    · exact ((stable_furtherParameters hms).weaken fun _ h => h.1).mono (fun _ _ => id)
        (fun us hus => ⟨hus.1, hus.2.trans hms.symm⟩) (Nat.le_refl _) (Nat.zero_le _)
    · exact ((stable_pointerParameter hrules isFirst).append hlater (Nat.le_add_right _ _)
        (Nat.le_add_right _ _)).mono (fun _ _ => id)
          (fun us hus => ⟨hus.1, hus.2.trans hms.symm⟩) (Nat.zero_le _) (Nat.le_refl _)
  have hall (ms : List Token) : Stable rules IsParameterLegible Ended SameHead 0 2
      (attributes ++ .either atFurtherParameters furtherParameters (pointerParameter isFirst ++
          unlessEnd (Language.op "," ++ call (.pointerParameters false)))) ms :=
    ((stable_attributes.weaken fun _ h => h.1).append hone (Nat.zero_le _)
      (Nat.le_add_right _ _)).mono (fun _ _ => id) (fun _ hus => hus.1) (Nat.le_refl _)
        (Nat.le_refl _)
  refine Stable.mono (?_ : Stable _ _ _ (fun ts us => atEnd us = atEnd ts) 0 2 _ _)
    (fun _ _ => id) (fun _ _ => trivial) (Nat.le_refl _) (Nat.le_refl _)
  refine .either (fun _ => id) (fun hts => ?_) fun _ => ?_
  · refine Stable.empty.mono (fun _ _ => id) (fun us hus => ?_) (Nat.le_refl _) (Nat.le_refl 2)
    obtain rfl : us = [] := hus
    exact hts.symm
  · exact (hall ts).mono (fun _ _ => id) (fun us hus => (isHeadLook_atEnd ts us hus).symm)
      (Nat.le_refl _) (Nat.le_refl _)

/-! ## Function pointers -/

theorem stable_convention : Stable rules ParseTree.IsLegible
    (fun ts us => SameHead ts us ∧ AtIdent "fn" us) SameHead 0 extra convention ts := by
  have hstring (ms : List Token) : Stable rules ParseTree.IsLegible
      (fun ts us => SameHead ts us ∧ AtIdent "fn" us) Unlike 0 extra
        (.given atString literal) ms := by
    refine Stable.mono (?_ : Stable _ _ _ (fun ts us => atString us = atString ts) 0 extra _ _)
      (fun _ _ => id) (fun _ _ => trivial) (Nat.le_refl _) (Nat.le_refl _)
    refine .given (fun _ => id) (fun _ => ?_) fun hms us hus => ?_
    · refine Stable.literal.mono (fun _ _ _ => trivial) (fun us hus => ?_) (Nat.zero_le _)
        (Nat.le_refl _)
      simp only [atString, hus.2.2]
    · obtain ⟨-, rest, rfl⟩ := hus
      rw [hms]
      simp [atString, literalAhead?, takeLiteral]
  exact .given (fun us hus => (isHeadLook_atWord "extern" ts us hus).symm)
    (fun _ => (Stable.sameHead_word.append hstring (Nat.le_add_right _ _)
      (Nat.le_add_right _ _)).mono (fun _ _ => id) (fun _ => id) (Nat.zero_le _) (Nat.le_refl _))
    fun _ _ hus => hus.1

/-- A function pointer is stable. -/
theorem stable_functionPointer (hrules : RulesStable rules) :
    Stable rules ParseTree.IsLegible Ends SameHead 1 0 functionPointer ts := by
  have hunsafe : Stable rules ParseTree.IsLegible SameHead SameHead 0 0 (optWord "unsafe") ts :=
    Stable.optional (isHeadLook_atWord "unsafe") Stable.sameHead_word
  have hword (ms : List Token) : Stable rules ParseTree.IsLegible Unlike
      (fun ts us => SameHead ts us ∧ AtIdent "fn" us) 1 0 (word "fn") ms := Stable.word
  have hparams (ms : List Token) : Stable rules ParseTree.IsLegible
      (fun ts us => atOp "->" us = atOp "->" ts) Unlike 1 0
        (parens (call (.pointerParameters true))) ms := by
    refine (Stable.enclosed (fun trees htrees tree htree => ?_)
      (hrules.pointerParameters true) (by decide)).mono (fun _ _ _ => trivial)
        (fun _ _ => trivial) (Nat.le_refl _) (Nat.le_refl _)
    refine ⟨areLegible_iff_forall.mp htrees.2 tree htree, ?_⟩
    exact Bool.eq_false_iff.mpr fun hmut =>
      absurd (List.any_eq_true.mpr ⟨tree, htree, hmut⟩) (by simp [htrees.1])
  have hcalled := hunsafe.append (fun _ => stable_convention) (Nat.zero_le (0 + _))
    (Nat.zero_le _)
  have hnamed := hcalled.append hword (Nat.zero_le (0 + _)) (Nat.zero_le _)
  have hlisted := hnamed.append hparams (Nat.zero_le (0 + _)) (Nat.zero_le _)
  exact ((hlisted.append (fun _ => stable_result hrules) (Nat.zero_le _) (Nat.zero_le _)).mono
    (fun _ _ => id) (fun _ => id) (by decide) (Nat.le_refl _)).part rfl

end DaoGen.Code
