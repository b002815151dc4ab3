import DaoGen.Proofs.Code.StableBound

/-!
# Paths are read again

Paths with their arguments are read again, if the rules that they call are stable.

## Main results

* `stable_typeArgument`: an argument between angle brackets is read again.
* `readsPath_pathWith`: so is a path, also without an empty list of arguments.
* `stable_qualifiedPath`: so is a path through a type.
-/
namespace DaoGen.Code

open Code.Language

variable {rules : Rule → List Token → Match Part} {ts : List Token} {extra : Nat}

/-! ## Constants -/

/-- A constant is ahead just if one was there before. -/
def LikeConst (ts us : List Token) : Prop := SameHead ts us ∧ atLiteral us = atLiteral ts

theorem likeConst_of_ident {us : List Token} (h : SameHead ts us) (hts : atAnyName ts = true) :
    LikeConst ts us := by
  refine ⟨h, ?_⟩
  obtain ⟨t, u, rest, later, rfl, rfl, hshape⟩ := h.shape
  match t, u, hshape with
  | .ident text line, .ident text' line', hshape =>
    obtain rfl : text = text' := (Token.ident.inj hshape).1
    simp only [atLiteral, takeLiteral]
    split <;> rfl

theorem likeConst_of_group {d : Delimiter} {us : List Token} (h : SameHead ts us)
    (hts : atGroup d ts = true) : LikeConst ts us := by
  refine ⟨h, ?_⟩
  obtain ⟨t, u, rest, later, rfl, rfl, hshape⟩ := h.shape
  match t, u, hshape with
  | .group _ _, .group _ _, _ => rfl

theorem LikeConst.atConstArgument_eq {us : List Token} (h : LikeConst ts us) :
    atConstArgument us = atConstArgument ts := by
  rw [atConstArgument, atConstArgument, h.2, isHeadLook_atGroup .brace ts us h.1]

/-- A block is read again if what fills it is. -/
theorem stable_block : Stable rules ParseTree.IsLegible Unlike SameHead 1 extra block ts := by
  refine Yields.enclosed fun content rest hts => Yields.any.mono fun trees _ _ hlegible => ?_
  have hfills : FillsAgain (innerAttributes ++ call .statements) trees :=
    hlegible _ List.mem_cons_self
  refine ⟨by simp [unlinedTrees, ParseTree.unlined, sizeOfTokens, Token.size], ?_⟩
  refine (hfills.enclosed rfl).mono (fun _ _ => trivial) ?_ (Nat.le_refl _)
  rintro _ ⟨inside, later, rfl⟩
  exact hts ▸ sameHead_cons (t := .group .brace content) (u := .group .brace inside) rfl rfl rfl _ _

theorem stable_constArgument :
    Stable rules ParseTree.IsLegible Unlike LikeConst 1 extra constArgument ts := by
  refine .select_cons (fun us hus => hus.2) (fun hts => ?_) fun _ =>
    .select_cons (fun us hus => (isHeadLook_atName ts us hus.1).symm) (fun hts => ?_) fun _ =>
      .select_cons (fun us hus => (isHeadLook_atGroup .brace ts us hus.1).symm) (fun hts => ?_)
        fun _ => .select_nil .missing
  · exact Stable.literal.mono (fun _ _ => id) (fun us hus => ⟨hus.1, hus.2.1.trans hts.symm⟩)
      (Nat.le_refl _) (Nat.le_refl _)
  · have hident : atAnyName ts = true := by
      match ts, hts with
      | .ident _ _ :: _, _ => rfl
    exact Stable.name.mono (fun _ _ => id) (fun us hus => likeConst_of_ident hus hident)
      (Nat.le_refl _) (Nat.le_refl _)
  · exact stable_block.mono (fun _ _ => id) (fun us hus => likeConst_of_group hus hts)
      (Nat.le_refl _) (Nat.le_refl _)

/-! ## Arguments -/

/-- An argument ends before a comma and before the bracket that closes the list. -/
def EndsArgument (us : List Token) : Prop := AtMark ',' us ∨ AtMark '>' us

theorem EndsArgument.closes {us : List Token} (h : EndsArgument us) : Closes us := by
  rcases h with h | h <;> exact closes_mark (by decide) h

theorem EndsArgument.marks {us : List Token} (h : EndsArgument us) :
    atOp "=" us = false ∧ atOp ":" us = false ∧
      (atComma us || atAngleEnd us) = true := by
  rcases h with ⟨joint, rest, rfl⟩ | ⟨joint, rest, rfl⟩ <;>
    simp [atComma, atAngleEnd, atOp, takeOperator]

/-- A type is read again where one begins. -/
theorem Rereads.startsType {follow front : List Token → Prop} {plus : Bool} {trees : Trees}
    (h : Rereads follow front extra (Language.call (.type plus)) trees) :
    Rereads follow (fun ts => front ts ∧ StartsType ts) extra (Language.call (.type plus))
      trees where
  plain := h.plain
  reads hus hafter :=
    have hread := h.reads hus hafter
    ⟨⟨hread.1, startsType_of_read (hread.2 _ (Nat.le_refl _))⟩, hread.2⟩

theorem stable_type (hrules : RulesStable rules) (plus : Bool) :
    Stable rules ParseTree.IsLegible Ends (fun ts us => SameHead ts us ∧ StartsType us) 1 2
      (call (.type plus)) ts :=
  Yields.mono (hrules.type plus ts) fun _ _ h htrees => ⟨(h htrees).1, (h htrees).2.startsType⟩

/-- What stands after a type that is an argument. -/
structure AfterType (ts us : List Token) : Prop where
  closes : Closes us
  equals : atOp "=" us = atOp "=" ts
  colon : atOp ":" us = atOp ":" ts

theorem AfterMark.atOp_eq {c : Char} {after : Likeness} {us : List Token}
    (h : AfterMark c after ts us) {text : String} {d : Char} (htext : text.toList = [d]) :
    atOp text us = atOp text ts := by
  obtain ⟨joint, rest, joint', later, rfl, rfl, -⟩ := h
  simp only [atOp, takeOperator, htext, takeCharacters_single]
  split <;> rfl

/-- The value or the bounds of an associated item. -/
theorem stable_associated (hrules : RulesStable rules) :
    Stable rules ParseTree.IsLegible (fun _ => EndsArgument) AfterType 0 2 associated ts := by
  refine .select_cons (fun us hus => hus.equals) (fun hts => ?_) fun hequals =>
    .select_cons (fun us hus => hus.colon) (fun hts => ?_) fun hcolon => .select_nil ?_
  · have hvalue (ms : List Token) : Stable rules ParseTree.IsLegible (fun _ => EndsArgument)
        Unlike 1 2 (.either atConstArgument constArgument (call (.type true))) ms := by
      have hchoice : Stable rules ParseTree.IsLegible (fun _ => EndsArgument)
          (fun ts us => atConstArgument us = atConstArgument ts) 1 2
            (.either atConstArgument constArgument (call (.type true))) ms := by
        refine .either (fun _ => id) (fun _ => ?_) fun hms => ?_
        · exact stable_constArgument.mono (fun _ _ _ => trivial)
            (fun us hus => hus.atConstArgument_eq) (Nat.le_refl _) (Nat.le_refl _)
        · exact (stable_type hrules true).mono (fun ts us hus => hus.closes.ends ts)
            (fun us hus => hus.2.const.trans hms.symm) (Nat.le_refl _) (Nat.le_refl _)
      exact hchoice.mono (fun _ _ => id) (fun _ _ => trivial) (Nat.le_refl _) (Nat.le_refl _)
    refine ((Stable.mark (c := '=') (by decide)).append hvalue (Nat.le_add_right _ _)
      (by decide)).mono (fun _ _ => id) (fun us hus => ?_) (Nat.zero_le _) (Nat.le_refl _)
    exact ⟨closes_mark (by decide) hus.atMark, hus.atOp_eq (d := '=') rfl,
      hus.atOp_eq (d := ':') rfl⟩
  · have hbounds (ms : List Token) : Stable rules ParseTree.IsLegible (fun _ => EndsArgument)
        Unlike 0 1 (chainUpTo "+" (fun tokens => atComma tokens || atAngleEnd tokens)
          declaredBound) ms := by
      refine (stable_chainUpTo hrules.suffix ?_ (fun _ _ => ends_plus) (fun ts us hus => ?_)
        fun _ => stable_bound hrules false true).mono (fun _ _ => id) (fun _ _ => trivial)
          (Nat.le_refl _) (Nat.le_refl _)
      · exact (isHeadLook_atOp "," rfl).or (isHeadLook_atOp ">" rfl)
      · exact ⟨hus.closes.ends ts, fun h => absurd h (by simp [hus.closes.plus_eq_false]),
          fun _ => hus.marks.2.2⟩
    refine (Stable.colon_append hbounds fun _ us hus => hus.marks.2.1).mono (fun _ _ => id)
      (fun us hus => ?_) (Nat.zero_le _) (by decide)
    have hcolon : atOp ":" us = true := by
      simp only [atColon, Bool.and_eq_true] at hus
      exact hus.1
    obtain ⟨joint, rest, rfl⟩ := exists_of_atOp (c := ':') (by decide) hcolon
    exact ⟨closes_colon hus, by simpa [atOp, takeOperator] using hequals, hcolon.trans hts.symm⟩
  · exact Stable.empty.mono (fun _ _ => id) (fun us hus =>
      ⟨hus.closes, hus.marks.1.trans hequals.symm, hus.marks.2.1.trans hcolon.symm⟩)
        (Nat.le_refl _) (Nat.le_refl 2)

/-- What stands at the front of an argument. -/
structure StartsArgument (ts us : List Token) : Prop where
  head : SameHead ts us
  equals : atOp "=" us = false
  less : atOp "<=" us = false
  lifetime : (atLifetime us && !second (atOp "+") us) = (atLifetime ts && !second (atOp "+") ts)
  const : atConstArgument us = atConstArgument ts

theorem isSingleName_iff {trees : Trees} : isSingleName trees = true ↔ ∃ names,
    trees = [.node .type [.node .pathType [.node .path [.node .segment names]]]] := by
  constructor
  · intro h
    unfold isSingleName at h
    split at h
    · exact ⟨_, rfl⟩
    · cases h
  · rintro ⟨names, rfl⟩
    rfl

theorem isSingleName_unlined (trees : Trees) :
    isSingleName (unlinedTrees trees) = isSingleName trees := by
  rw [Bool.eq_iff_iff, isSingleName_iff, isSingleName_iff]
  constructor
  · rintro ⟨names, h⟩
    obtain ⟨_, htrees, htype⟩ := exists_of_unlinedTrees_eq h
    obtain ⟨_, rfl, hpathType⟩ := exists_of_unlinedTrees_eq htype
    obtain ⟨_, rfl, hpath⟩ := exists_of_unlinedTrees_eq hpathType
    obtain ⟨names', rfl, -⟩ := exists_of_unlinedTrees_eq hpath
    exact ⟨names', htrees⟩
  · rintro ⟨names, rfl⟩
    exact ⟨unlinedTrees names, rfl⟩

/-- No constant begins with a lifetime, an equals sign or an angle bracket. -/
theorem looks_of_atConstArgument (h : atConstArgument ts = true) :
    atLifetime ts = false ∧ atOp "=" ts = false ∧ atOp "<" ts = false := by
  match ts, h with
  | .ident _ _ :: _, _ | .literal _ :: _, _ | .group _ _ :: _, _ =>
    simp [atLifetime, atOp, takeOperator]
  | .lifetime _ :: _, h => cases h
  | .punct c joint :: rest, h =>
    have hc : c = '-' := by
      by_contra hne
      have hnone : takeLiteral (.punct c joint :: rest) = none := by
        unfold takeLiteral
        split <;> simp_all
      simp [atConstArgument, atLiteral, hnone, atGroup] at h
    subst hc
    simp [atLifetime, atOp, takeOperator]

/-- An argument of a type is stable. -/
theorem stable_typeArgument (hrules : RulesStable rules) :
    Stable rules ParseTree.IsLegible (fun _ => EndsArgument) StartsArgument 1 2 typeArgument
      ts := by
  refine .select_cons (fun us hus => hus.lifetime) (fun hts => ?_) fun hlifetime =>
    .select_cons (fun us hus => hus.const) (fun hts => ?_) fun hconst => .select_nil ?_
  · refine (Stable.lifetime.part rfl).mono (fun _ _ => id) (fun us hus => ?_) (Nat.le_refl _)
      (Nat.le_refl _)
    obtain ⟨name, rest, later, rfl, rfl, hlater⟩ := hus
    refine ⟨sameHead_cons (t := .lifetime name) rfl rfl rfl rest later, ?_, ?_, ?_, rfl⟩
    · simp [atOp, takeOperator]
    · simp [atOp, takeOperator]
    · rw [hts]
      simp [atLifetime, second, hlater.closes.plus_eq_false]
  · refine (stable_constArgument.part rfl).mono (fun _ _ _ => trivial) (fun us hus => ?_)
      (Nat.le_refl _) (Nat.le_refl _)
    obtain ⟨hnone, hequals, hangle⟩ := looks_of_atConstArgument hts
    have hless : atOp "<" us = false :=
      (isHeadLook_atOp "<" rfl ts us hus.1).symm.trans hangle
    refine ⟨hus.1, (isHeadLook_atOp "=" rfl ts us hus.1).symm.trans hequals, ?_, ?_,
      hus.atConstArgument_eq⟩
    · rw [atOp, takeOperator, Option.isSome_eq_false_iff, Option.isNone_iff_eq_none] at hless ⊢
      exact takeCharacters_cons_cons_eq_none hless
    · rw [isHeadLook_atLifetime ts us hus.1] at hnone
      rw [hlifetime, hnone]
      rfl
  · have hnext (isSingle : Bool) (ms : List Token) : Stable rules ParseTree.IsLegible
        (fun _ => EndsArgument) (fun _ => Closes) 0 2 (if isSingle then associated else .empty)
          ms := by
      cases isSingle with
      | true =>
        exact (stable_associated hrules).mono (fun _ _ => id) (fun us hus => hus.closes)
          (Nat.le_refl _) (Nat.le_refl _)
      | false =>
        exact Stable.empty.mono (fun _ _ => id) (fun us hus => hus.closes) (Nat.le_refl _)
          (Nat.le_refl 2)
    have htype : Stable rules ParseTree.IsLegible (fun _ => Closes) StartsArgument 1 2
        (call (.type true)) ts := by
      refine (stable_type hrules true).mono (fun ts us hus => hus.ends ts) (fun us hus => ?_)
        (Nat.le_refl _) (Nat.le_refl _)
      obtain ⟨hhead, hstart⟩ := hus
      refine ⟨hhead, hstart.equals, hstart.less, ?_, hstart.const.trans hconst.symm⟩
      rw [hlifetime]
      cases hus : atLifetime us with
      | false => rfl
      | true => simp [hstart.lifetime hus]
    refine (htype.bind (Yields.any.mono fun trees ms _ _ =>
      ⟨by rw [isSingleName_unlined], hnext (isSingleName trees) ms⟩) (Nat.le_add_right _ _)
        (Nat.le_add_right _ _)).part rfl

/-! ## Lists of arguments -/

theorem yields_typeArgument_member :
    Yields rules typeArgument ts fun trees _ => ∃ tree, trees = [tree] ∧ isMark ',' tree = false :=
  .select_cons (fun _ => .labelled (Yields.any.mono fun _ _ _ => ⟨_, rfl, rfl⟩)) fun _ =>
    .select_cons (fun _ => .labelled (Yields.any.mono fun _ _ _ => ⟨_, rfl, rfl⟩)) fun _ =>
      .select_nil (.labelled (Yields.any.mono fun _ _ _ => ⟨_, rfl, rfl⟩))

/-- What stands after the bracket that opens a list of arguments. -/
def OpensArguments (us : List Token) : Prop :=
  AtMark '>' us ∨ atOp "=" us = false ∧ atOp "<=" us = false

theorem atArguments_of_markThen {us : List Token} (h : MarkThen '<' OpensArguments us) :
    atArguments false us = true ∧ atOp "::" us = false := by
  obtain ⟨joint, rest, rfl, hrest⟩ := h
  have hequals : atOp "=" rest = false ∧ atOp "<=" rest = false := by
    rcases hrest with ⟨joint, rest, rfl⟩ | hrest
    · simp [atOp, takeOperator]
    · exact hrest
  cases joint with
  | false => simp [atArguments, atOp, takeOperator]
  | true => simpa [atArguments, atOp, takeOperator] using hequals

/-- Arguments between angle brackets are stable. -/
theorem stable_typeArguments (hrules : RulesStable rules) :
    Stable rules ParseTree.IsLegible Unlike (fun _ us => atArguments false us = true) 2 0
      typeArguments ts := by
  have hmembers (ts : List Token) : Stable rules ParseTree.IsLegible (fun _ => AtMark '>')
      (fun _ => OpensArguments) 0 2
        (.edited (separated (atOp ">") (Language.op ",") typeArgument) lifetimesFirst) ts := by
    refine stable_lifetimesFirst rereads_comma (fun _ _ => yields_comma) fun ts hts => ?_
    refine readsMember_of_stable yields_typeArgument_member (stable_typeArgument hrules)
      (fun _ _ => id) fun us hus => ⟨?_, hus.equals, hus.less⟩
    exact (isHeadLook_atOp ">" rfl ts us hus.head).symm.trans hts
  have hclose (ms : List Token) : Stable rules ParseTree.IsLegible Unlike (fun _ => AtMark '>') 1 0
      (Language.op ">") ms :=
    .closing (c := '>') (by decide)
  have hangled (ms : List Token) : Stable rules ParseTree.IsLegible Unlike
      (fun _ => MarkThen '<' OpensArguments) 2 0 (Language.angled typeArgument) ms := by
    have hopen : Stable rules ParseTree.IsLegible (fun _ => OpensArguments)
        (fun _ => MarkThen '<' OpensArguments) 1 0 (Language.op "<") ms :=
      (Stable.mark (c := '<') (by decide)).mono (fun _ _ => id) (fun _ => AfterMark.markThen)
        (Nat.le_refl _) (Nat.le_refl _)
    exact (hopen.append hmembers (Nat.le_add_right _ _) (by decide)).append hclose
      (Nat.le_add_right _ _) (Nat.le_add_right _ _)
  have hcolons : Stable rules ParseTree.IsLegible (fun _ => MarkThen '<' OpensArguments)
      (fun ts us => atArguments false us = true ∧ atOp "::" us = atOp "::" ts) 0 0 (optOp "::")
        ts := by
    refine .given (fun us hus => hus.2) (fun _ => ?_) fun hts us hus =>
      ⟨(atArguments_of_markThen hus).1, (atArguments_of_markThen hus).2.trans hts.symm⟩
    refine Stable.colons.mono (fun _ _ => id) (fun us hus => ⟨?_, hus.sameHead.colons.symm⟩)
      (Nat.zero_le _) (Nat.le_refl _)
    obtain ⟨_, _, joint, _, -, rfl, joint', rest, rfl, -⟩ := hus
    simp [atArguments, third, atOp, takeOperator]
  exact ((hcolons.append hangled (Nat.le_add_right _ _) (Nat.le_add_right _ _)).mono
    (fun _ _ => id) (fun _ hus => hus.1) (Nat.le_refl _) (Nat.le_refl _)).part rfl

/-! ## Names of paths -/

/-- No arguments are ahead. -/
def NoArguments (us : List Token) : Prop := atArguments false us = false

theorem atAnyWord_of_atIdent {text : String} {words : List String} {us : List Token}
    (h : AtIdent text us) : atAnyWord words us = words.contains text := by
  obtain ⟨rest, rfl⟩ := h
  rfl

/-- A name that can take arguments, with what follows it. -/
theorem rereads_named {text : String} {follow : List Token → Prop} {later : Trees}
    (hword : IsWord text) (h : isName text = true ∨ text = "Self")
    (hlater : Rereads follow Anything extra (.given (atArguments false) typeArguments) later) :
    Rereads follow (AtIdent text) extra (segment false)
      [.node .segment (.leaf (.ident text 1) :: later)] := by
  have hfirst : Rereads Anything (AtIdent text) extra (.either (atWord "Self") anyName name)
      [.leaf (.ident text 1)] := by
    by_cases hself : text = "Self"
    · refine (rereads_anyName hword).either_pos ?_
      rintro _ ⟨rest, rfl⟩
      simp [atWord, hself]
    · refine (rereads_name hword (h.resolve_right hself)).either_neg ?_
      rintro _ ⟨rest, rfl⟩
      simp [atWord, hself]
  have hkeyword : ["super", "self", "crate", "try"].contains text = false := by
    rw [Bool.eq_false_iff, ne_eq, List.contains_iff_mem]
    intro hmem
    have hnone : ∀ word ∈ ["super", "self", "crate", "try"],
        ¬ (isName word = true ∨ word = "Self") := by decide
    exact hnone text hmem h
  refine ((hfirst.append hlater (Nat.le_add_right _ _) (Nat.le_add_right _ _)).either_neg
    fun us hus => ?_).labelled
  rw [atAnyWord_of_atIdent hus, hkeyword]

/-- A name without arguments. -/
theorem rereads_plainSegment {text : String} (hword : IsWord text)
    (h : isPathName text = true ∨ text = "try") :
    Rereads NoArguments (AtIdent text) extra (segment false)
      [.node .segment [.leaf (.ident text 1)]] := by
  by_cases hkeyword : ["super", "self", "crate", "try"].contains text = true
  · refine (((rereads_anyName hword).mono (fun _ _ => trivial) (fun _ => id)
      (Nat.le_refl _)).either_pos fun us hus => ?_).labelled
    rw [atAnyWord_of_atIdent hus, hkeyword]
  · refine rereads_named hword ?_ ((Rereads.given_neg fun _ => id).mono (fun _ => id)
      (fun _ _ => trivial) (Nat.le_refl _))
    simp only [isPathName, Bool.or_eq_true, List.contains_iff_mem, List.mem_cons, List.not_mem_nil,
      or_false, not_or] at h hkeyword
    tauto

/-- A name with arguments. -/
theorem rereads_genericSegment {text : String} {args : ParseTree Part} (hword : IsWord text)
    (h : isName text = true ∨ text = "Self")
    (hargs : Rereads Anything (fun us => atArguments false us = true) extra typeArguments [args]) :
    Rereads Anything (AtIdent text) extra (segment false)
      [.node .segment [.leaf (.ident text 1), args]] :=
  rereads_named hword h ((hargs.either_pos fun _ => id).mono (fun _ => id) (fun _ _ => trivial)
    (Nat.le_refl _))

/-- A name is read again with the arguments that are kept of it. -/
def ReadsSegment (text : String) (names : Trees) : Prop :=
  ∀ kept, kept = names ∨ kept = names.filter (fun tree => !isEmptyArguments tree) →
    (ParseTree.node .segment kept).IsLegible →
      Rereads NoArguments (AtIdent text) 0 (segment false) [.node .segment (unlinedTrees kept)]

theorem legible_head {tree : ParseTree Part} {trees : Trees}
    (h : (ParseTree.node .segment (tree :: trees)).IsLegible) :
    tree.IsLegible ∧ AreLegible trees := areLegible_of_node (rfl : isOpen .segment = true) h

theorem filter_leaf_cons (token : Token) (trees : Trees) :
    (.leaf token :: trees : Trees).filter (fun tree => !isEmptyArguments tree) =
      .leaf token :: trees.filter fun tree => !isEmptyArguments tree := rfl

theorem readsSegment_plain {text : String} (line : Nat)
    (h : isPathName text = true ∨ text = "try") : ReadsSegment text [.leaf (.ident text line)] := by
  rintro kept hkept hlegible
  obtain rfl : kept = [.leaf (.ident text line)] := hkept.elim id id
  exact rereads_plainSegment (legible_head hlegible).1 h

/-- What stands at the front of a path, and how each of its names is read again. -/
theorem yields_rereadSegment (hrules : RulesStable rules) :
    Yields rules (segment false) ts fun trees _ => ∃ text line rest names,
      ts = .ident text line :: rest ∧ trees = [.node .segment names] ∧ ReadsSegment text names := by
  -- a name that can take arguments
  have hnamed {text : String} {line : Nat} {later ms : List Token}
      (hts : ts = .ident text line :: later) (h : isName text = true ∨ text = "Self") :
      Yields rules (.given (atArguments false) typeArguments) ms fun trees _ =>
        ∃ word place rest names, ts = .ident word place :: rest ∧
          [.node .segment ([.leaf (.ident text line)] ++ trees)] =
            [ParseTree.node .segment names] ∧ ReadsSegment word names := by
    refine .given (fun _ => ?_) fun _ =>
      ⟨text, line, later, _, hts, rfl, readsSegment_plain line (.inl (isPathName_of_isName h))⟩
    have hone : Yields rules typeArguments ms fun trees _ =>
        ∃ children, trees = [.node .arguments children] :=
      .labelled (Yields.any.mono fun children _ _ => ⟨children, rfl⟩)
    intro parsed hparsed
    obtain ⟨children, htrees⟩ := hone parsed hparsed
    have hargs := stable_typeArguments hrules parsed hparsed
    rw [htrees] at hargs ⊢
    refine ⟨text, line, later, _, hts, rfl, fun kept hkept hlegible => ?_⟩
    have hplain : ReadsSegment text [.leaf (.ident text line)] :=
      readsSegment_plain line (.inl (isPathName_of_isName h))
    have hall : kept = [.leaf (.ident text line), .node .arguments children] ∨
        kept = [.leaf (.ident text line)] := by
      refine hkept.elim .inl fun hkept => ?_
      rw [hkept, List.singleton_append, filter_leaf_cons, List.filter_cons,
        List.filter_nil]
      cases isEmptyArguments (.node .arguments children)
      · exact .inl rfl
      · exact .inr rfl
    rcases hall with rfl | rfl
    · obtain ⟨hword, hlegible⟩ := legible_head hlegible
      exact (rereads_genericSegment hword h
        (hargs (areLegible_iff_forall.mp hlegible)).2).mono (fun _ _ => trivial) (fun _ => id)
          (Nat.le_refl _)
    · exact hplain _ (.inl rfl) hlegible
  refine .labelled (.either (fun hlook => .anyName fun text line rest hts => ?_) fun _ => .append
    (.either (fun hlook => .anyName fun text line rest hts => ?_) fun _ =>
      .name fun text line rest hts hname => ?_))
  · have hword : text ∈ ["super", "self", "crate", "try"] := by simpa [hts, atAnyWord] using hlook
    have hwords : ∀ text ∈ ["super", "self", "crate", "try"],
        isPathName text = true ∨ text = "try" := by decide
    exact ⟨text, line, rest, _, hts, rfl, readsSegment_plain line (hwords text hword)⟩
  · exact hnamed hts (.inr (by simpa [hts, atWord] using hlook))
  · exact hnamed hts (.inl hname)

/-! ## Paths -/

theorem unlinedTrees_laterSegments (later : List Trees) :
    unlinedTrees (later.flatMap fun names => colonTrees ++ [.node .segment names]) =
      (later.map unlinedTrees).flatMap fun names => colonTrees ++ [.node .segment names] := by
  induction later with
  | nil => rfl
  | cons names later ih =>
    rw [List.flatMap_cons, List.map_cons, List.flatMap_cons, unlinedTrees_append, ih]
    rfl

theorem unlinedTrees_pathTrees (absolute : Bool) (first : Trees) (later : List Trees) :
    unlinedTrees (pathTrees absolute first later) =
      pathTrees absolute (unlinedTrees first) (later.map unlinedTrees) := by
  rw [pathTrees, unlinedTrees_append, unlinedTrees, unlinedTrees_laterSegments]
  cases absolute <;> rfl

theorem legible_of_pathTrees {absolute : Bool} {first : Trees} {later : List Trees}
    (h : AreLegible (pathTrees absolute first later)) :
    (ParseTree.node .segment first).IsLegible ∧
      ∀ names ∈ later, (ParseTree.node .segment names).IsLegible := by
  obtain ⟨-, hfirst, hlater⟩ := areLegible_append.mp h
  refine ⟨hfirst, fun names hnames => areLegible_iff_forall.mp hlater _ ?_⟩
  exact List.mem_flatMap.mpr ⟨names, hnames, List.mem_append_right _ List.mem_cons_self⟩

/-- Without an empty list of arguments at its end a path is one of the same names. -/
theorem dropEmptyArguments_pathTrees (absolute : Bool) (first : Trees) (later : List Trees) :
    (later = [] ∧ dropEmptyArguments (.node .path (pathTrees absolute first later)) =
      .node .path (pathTrees absolute (first.filter fun tree => !isEmptyArguments tree) [])) ∨
    ∃ front last, later = front ++ [last] ∧
      dropEmptyArguments (.node .path (pathTrees absolute first later)) =
        .node .path (pathTrees absolute first
          (front ++ [last.filter fun tree => !isEmptyArguments tree])) := by
  rcases List.eq_nil_or_concat later with rfl | ⟨front, last, rfl⟩
  · exact .inl ⟨rfl, dropEmptyArguments_concat _ _⟩
  · refine .inr ⟨front, last, List.concat_eq_append, ?_⟩
    have hconcat (names : Trees) : pathTrees absolute first (front ++ [names]) =
        (pathTrees absolute first front ++ colonTrees) ++ [.node .segment names] := by
      simp [pathTrees, List.flatMap_append]
    rw [List.concat_eq_append, hconcat, hconcat, dropEmptyArguments_concat]

/-- What stands at the front of a path. -/
def StartsPath (absolute : Bool) (text : String) (us : List Token) : Prop :=
  if absolute then ColonsThen (AtIdent text) us else AtIdent text us

/-- The end of a path is ahead, or a further name. -/
def AfterName (us : List Token) : Prop :=
  EndsPath us ∨ ∃ text, ColonsThen (AtIdent text) us

theorem AfterName.noArguments {us : List Token} (h : AfterName us) : NoArguments us := by
  rcases h with h | ⟨text, joint, _, rfl, rest, rfl⟩
  · exact h.arguments
  · simp [NoArguments, atArguments, third, atOp, takeOperator]

/-- Names are read again, each after colons. -/
theorem rereads_laterSegments {later : List Trees} (h : ∀ names ∈ later, ∃ text,
      Rereads NoArguments (AtIdent text) extra (segment false) [.node .segment names]) :
    RereadsMany EndsPath AfterName extra
      (fun tokens => atOp "::" tokens && !third (atGroup .paren) tokens)
      (Language.op "::" ++ segment false)
      (later.flatMap fun names => colonTrees ++ [.node .segment names]) := by
  induction later with
  | nil => exact (RereadsMany.nil fun _ hus => hus.names).mono (fun _ => id) fun _ => .inl
  | cons names later ih =>
    obtain ⟨⟨text, hnames⟩, hlater⟩ := List.forall_mem_cons.mp h
    have hname : Rereads AfterName (AtIdent text) extra (segment false) [.node .segment names] :=
      hnames.mono (fun _ => AfterName.noArguments) (fun _ => id) (Nat.le_refl _)
    have hcolons : Rereads (AtIdent text) (ColonsThen (AtIdent text)) extra (Language.op "::")
        colonTrees := rereads_colons
    have hnext := hcolons.append hname (Nat.le_add_right _ _) (Nat.le_add_right _ _)
    refine (RereadsMany.cons hnext ?_ ?_ (ih hlater)).mono (fun _ => id) fun us hus =>
      .inr ⟨text, hus⟩
    · rintro _ ⟨joint, _, rfl, rest, rfl⟩
      simp [atOp, takeOperator, third, atGroup]
    · simp [colonTrees]

/-- A path is read again if each of its names is. -/
theorem rereads_pathWith {absolute : Bool} {text : String} {first : Trees} {later : List Trees}
    (hfirst : Rereads NoArguments (AtIdent text) extra (segment false) [.node .segment first])
    (hlater : ∀ names ∈ later, ∃ text,
      Rereads NoArguments (AtIdent text) extra (segment false) [.node .segment names]) :
    Rereads EndsPath (StartsPath absolute text) extra (pathWith false)
      [.node .path (pathTrees absolute first later)] := by
  have hcolons : Rereads (AtIdent text) (StartsPath absolute text) extra (optOp "::")
      (optColons absolute) := by
    cases absolute with
    | true =>
      refine rereads_colons.either_pos ?_
      rintro _ ⟨joint, rest, rfl, -⟩
      simp [atOp, takeOperator]
    | false =>
      refine Rereads.given_neg ?_
      rintro _ ⟨rest, rfl⟩
      simp [atOp, takeOperator]
  have hname : Rereads AfterName (AtIdent text) extra (segment false) [.node .segment first] :=
    hfirst.mono (fun _ => AfterName.noArguments) (fun _ => id) (Nat.le_refl _)
  have hall := (hcolons.append hname (Nat.le_add_right _ _) (Nat.le_add_right _ _)).append
    (rereads_laterSegments hlater).rereads (Nat.le_add_right _ _) (Nat.le_add_right _ _)
  rw [List.append_assoc] at hall
  exact hall.labelled

/-- The names that are kept of a path are read again. -/
theorem rereads_keptPath {absolute : Bool} {text : String} {first kept : Trees}
    {later : List Trees} (hfirst : ReadsSegment text first)
    (hkept : kept = first ∨ kept = first.filter fun tree => !isEmptyArguments tree)
    (hlater : ∀ keptNames ∈ later, ∃ text names, ReadsSegment text names ∧
      (keptNames = names ∨ keptNames = names.filter fun tree => !isEmptyArguments tree))
    (hlegible : (ParseTree.node .path (pathTrees absolute kept later)).IsLegible) :
    Rereads EndsPath (StartsPath absolute text) 0 (pathWith false)
      [(ParseTree.node .path (pathTrees absolute kept later)).unlined] := by
  obtain ⟨hone, hothers⟩ :=
    legible_of_pathTrees (areLegible_of_node (rfl : isOpen .path = true) hlegible)
  rw [ParseTree.unlined, unlinedTrees_pathTrees]
  refine rereads_pathWith (hfirst kept hkept hone) ?_
  rw [List.forall_mem_map]
  intro names hnames
  obtain ⟨text, whole, hwhole, hkept⟩ := hlater names hnames
  exact ⟨text, hwhole names hkept (hothers names hnames)⟩

/-- A path is read again, as it is or without an empty list of arguments at its end. -/
theorem rereads_legiblePath {absolute : Bool} {text : String} {first : Trees} {later : List Trees}
    (hfirst : ReadsSegment text first) (hlater : ∀ names ∈ later, ∃ text, ReadsSegment text names)
    {tree : ParseTree Part} (htree : tree = .node .path (pathTrees absolute first later) ∨
      tree = dropEmptyArguments (.node .path (pathTrees absolute first later)))
    (hlegible : tree.IsLegible) :
    Rereads EndsPath (StartsPath absolute text) 0 (pathWith false) [tree.unlined] := by
  have hwhole : ∀ names ∈ later, ∃ text whole, ReadsSegment text whole ∧
      (names = whole ∨ names = whole.filter fun tree => !isEmptyArguments tree) := by
    intro names hnames
    obtain ⟨text, hreads⟩ := hlater names hnames
    exact ⟨text, names, hreads, .inl rfl⟩
  rcases htree with rfl | rfl
  · exact rereads_keptPath hfirst (.inl rfl) hwhole hlegible
  · rcases dropEmptyArguments_pathTrees absolute first later with
      ⟨-, hdrop⟩ | ⟨front, last, rfl, hdrop⟩
    · rw [hdrop] at hlegible ⊢
      exact rereads_keptPath hfirst (.inr rfl) nofun hlegible
    · rw [hdrop] at hlegible ⊢
      refine rereads_keptPath hfirst (.inl rfl) (fun names hnames => ?_) hlegible
      rcases List.mem_append.mp hnames with hfront | hlast
      · exact hwhole names (List.mem_append_left _ hfront)
      · obtain ⟨text, hreads⟩ := hlater last (List.mem_append_right _ List.mem_cons_self)
        exact ⟨text, last, hreads, .inr (List.mem_singleton.mp hlast)⟩

/-- The names after the first one of a path. -/
theorem yields_laterNames (hrules : RulesStable rules) :
    Yields rules (.repeated (fun tokens => atOp "::" tokens && !third (atGroup .paren) tokens)
      (Language.op "::" ++ segment false)) ts fun trees _ => ∃ later : List Trees,
        (∀ names ∈ later, ∃ text, ReadsSegment text names) ∧
          trees = later.flatMap fun names => colonTrees ++ [.node .segment names] := by
  refine .repeated_flatMap fun ts _ => .append (.colons fun _ => ?_)
  refine (yields_rereadSegment hrules).mono ?_
  rintro _ _ ⟨text, _, _, names, -, rfl, hnames⟩
  exact ⟨names, ⟨text, hnames⟩, rfl⟩

theorem readsPath_pathWith (hrules : RulesStable rules) :
    ReadsPath rules 0 (pathWith false) ts := by
  have hpath (absolute : Bool) {ms : List Token}
      (hstart : ∀ text line rest us, ms = .ident text line :: rest →
        StartsPath absolute text us → SameHead ts us) :
      Yields rules (segment false) ms fun trees mid =>
        Yields rules (.repeated (fun tokens => atOp "::" tokens && !third (atGroup .paren) tokens)
          (Language.op "::" ++ segment false)) mid fun later _ => ∃ path,
            [.node .path ((optColons absolute ++ trees) ++ later)] = [path] ∧
              isNode .path path = true ∧
              ∀ tree, tree = path ∨ tree = dropEmptyArguments path → tree.IsLegible →
                tree.unlined.tokens ≠ [] ∧
                  Rereads EndsPath (SameHead ts) 0 (pathWith false) [tree.unlined] := by
    refine (yields_rereadSegment hrules).mono ?_
    rintro _ mid ⟨text, line, rest, first, hms, rfl, hfirst⟩
    refine (yields_laterNames hrules).mono ?_
    rintro _ _ ⟨later, hlater, rfl⟩
    refine ⟨.node .path (pathTrees absolute first later), by simp [pathTrees], rfl, ?_⟩
    intro tree htree hlegible
    have hagain := (rereads_legiblePath hfirst hlater htree hlegible).mono (fun _ => id)
      (fun us => hstart text line rest us hms) (Nat.le_refl _)
    have hne := hagain.tokens_ne_nil closes_nil.endsPath fun hnone => hnone.ne_nil.2 rfl
    exact ⟨by simpa using hne, hagain⟩
  refine .labelled (.append (.append (.given (fun _ => ?_) fun _ => ?_)))
  · refine .colonsAt fun joint ms hts => hpath true ?_
    rintro text line rest us rfl ⟨joint', later, rfl, -⟩
    subst hts
    exact ⟨⟨_, _, _, _, rfl, rfl, rfl⟩, by simp [atOp, takeOperator]⟩
  · refine hpath false ?_
    rintro text line rest us rfl ⟨later, rfl⟩
    exact sameHead_ident text rest later

/-! ## Paths through a type -/

theorem stable_path (hrules : RulesStable rules) :
    Stable rules ParseTree.IsLegible (fun _ => EndsPath) SameHead 1 1 (call .path) ts := by
  refine (hrules.path ts).mono ?_
  rintro _ _ ⟨path, rfl, -, hpath⟩ hlegible
  obtain ⟨hne, hreads⟩ := hpath path (.inl rfl) (hlegible path List.mem_cons_self)
  exact ⟨by simpa [unlinedTrees] using one_le_sizeOfTokens hne, hreads⟩

theorem stable_segment (hrules : RulesStable rules) :
    Stable rules ParseTree.IsLegible (fun _ => NoArguments)
      (fun ts us => SameHead ts us ∧ atAnyName us = true) 1 0 (segment false) ts := by
  refine (yields_rereadSegment hrules).mono ?_
  rintro _ _ ⟨text, line, rest, names, hts, rfl, hnames⟩ hlegible
  have hstart (us : List Token) (hus : AtIdent text us) :
      SameHead ts us ∧ atAnyName us = true := by
    obtain ⟨later, rfl⟩ := hus
    exact ⟨hts ▸ sameHead_ident text rest later, rfl⟩
  have hagain := (hnames names (.inl rfl) (hlegible _ List.mem_cons_self)).mono (fun _ => id) hstart
    (Nat.le_refl _)
  have hne := hagain.tokens_ne_nil closes_nil.endsPath.arguments fun hnone => hnone.1.ne_nil.2 rfl
  exact ⟨one_le_sizeOfTokens hne, hagain⟩

/-- The names after the first one of a path through a type. -/
theorem stable_qualifiedNames (hrules : RulesStable rules) :
    Stable rules ParseTree.IsLegible Ends
      (fun ts us => atOp "::" us = atOp "::" ts ∧ NoArguments us) 0 0
        (.repeated (atOp "::") (Language.op "::" ++ segment false)) ts := by
  refine .repeated rfl (fun _ _ h => h.1) (fun ts hts us hus => ?_) (fun ts _ => ?_) fun ts _ =>
    .op_append hrules.suffix "::"
  · exact ⟨hus.colons.trans hts.symm, hus.endsPath.arguments⟩
  · have hname (ms : List Token) : Stable rules ParseTree.IsLegible
        (fun ts us => atOp "::" us = atOp "::" ts ∧ NoArguments us)
        (fun ts us => SameHead ts us ∧ atAnyName us = true) 1 0 (segment false) ms :=
      (stable_segment hrules).mono (fun _ _ h => h.2) (fun _ => id) (Nat.le_refl _) (Nat.le_refl _)
    refine (Stable.colons.append hname (Nat.le_add_right _ _) (Nat.le_add_right _ _)).mono
      (fun _ _ => id) (fun us hus => ⟨hus.sameHead.colons.symm, ?_⟩) (by decide) (Nat.le_refl _)
    obtain ⟨_, _, joint, later, -, rfl, -, hname⟩ := hus
    match later, hname with
    | .ident _ _ :: _, _ => simp [NoArguments, atArguments, third, atOp, takeOperator]

/-- A path through a type is stable. -/
theorem stable_qualifiedPath (hrules : RulesStable rules) :
    Stable rules ParseTree.IsLegible Ends (fun ts us => SameHead ts us ∧ atOp "<" us = true) 1 0
      (qualifiedPath false) ts := by
  have htrait (ms : List Token) : Stable rules ParseTree.IsLegible (fun _ => AtMark '>')
      (fun ts us => Ends ts us ∧ atWord "as" us = atWord "as" ts) 0 0
        (.given (atWord "as") (word "as" ++ call .path)) ms := by
    refine .given (fun _ h => h.2) (fun hms => ?_) fun hms us hus => ?_
    · have hpath (rest : List Token) :
          Stable rules ParseTree.IsLegible (fun _ => AtMark '>') Unlike 1 1 (call .path) rest :=
        (stable_path hrules).mono (fun _ _ h => (closes_mark (by decide) h).endsPath)
          (fun _ _ => trivial) (Nat.le_refl _) (Nat.le_refl _)
      have hword : Stable rules ParseTree.IsLegible Unlike
          (fun ts us => SameHead ts us ∧ AtIdent "as" us) 1 0 (word "as") ms := .word
      refine (hword.append hpath (Nat.le_add_right 0 _) (by decide)).mono (fun _ _ => id)
        (fun us hus => ?_) (Nat.zero_le _) (Nat.le_refl _)
      refine ⟨?_, (isHeadLook_atWord "as" ms us hus.1).symm⟩
      obtain ⟨hhead, rest, rfl⟩ := hus
      obtain ⟨line, later, rfl⟩ := exists_of_atWord hms
      exact ends_of_sameHead hhead ⟨by simp [atOp, takeOperator], by simp [atOp, takeOperator],
        by simp [atOp, takeOperator], rfl⟩ (by simp [atOp, takeOperator])
    · refine ⟨(closes_mark (by decide) hus).ends ms, ?_⟩
      obtain ⟨_, _, rfl⟩ := hus
      exact hms.symm
  have hopen : Stable rules ParseTree.IsLegible SameHead
      (fun ts us => SameHead ts us ∧ atOp "<" us = true) 1 0 (Language.op "<") ts :=
    (Stable.op (by decide)).mono (fun _ _ _ => trivial) (fun _ => id) (Nat.le_refl _)
      (Nat.le_refl _)
  have htype (ms : List Token) : Stable rules ParseTree.IsLegible
      (fun ts us => Ends ts us ∧ atWord "as" us = atWord "as" ts) SameHead 1 2
        (call (.type true)) ms :=
    (hrules.type true ms).mono (fun _ _ h => h.1) (fun _ => id) (Nat.le_refl _) (Nat.le_refl _)
  have hclose (ms : List Token) : Stable rules ParseTree.IsLegible (AfterColons Unlike)
      (fun _ => AtMark '>') 1 0 (Language.op ">") ms :=
    .closing (c := '>') (by decide)
  have hcolons (ms : List Token) : Stable rules ParseTree.IsLegible
      (fun ts us => SameHead ts us ∧ atAnyName us = true) (AfterColons Unlike) 2 0
        (Language.op "::") ms := by
    refine Stable.colons.mono (fun _ _ => id) ?_ (Nat.le_refl _) (Nat.le_refl _)
    rintro _ ⟨joint, rest, joint', later, rfl, rfl, -⟩
    exact ⟨joint, rest, joint', later, rfl, rfl, trivial⟩
  have hname (ms : List Token) : Stable rules ParseTree.IsLegible
      (fun ts us => atOp "::" us = atOp "::" ts ∧ NoArguments us)
      (fun ts us => SameHead ts us ∧ atAnyName us = true) 1 0 (segment false) ms :=
    (stable_segment hrules).mono (fun _ _ h => h.2) (fun _ => id) (Nat.le_refl _) (Nat.le_refl _)
  -- each part reads on where the part before it ends
  have hopened := hopen.append htype (Nat.le_add_right 0 _) (by decide)
  have hselected := hopened.append htrait (Nat.le_add_right 0 _) (Nat.le_add_right 0 _)
  have hclosed := hselected.append hclose (Nat.le_add_right 0 _) (Nat.le_add_right 0 _)
  have hdescended := hclosed.append hcolons (Nat.le_add_right 0 _) (Nat.le_add_right 0 _)
  have hnamed := hdescended.append hname (Nat.le_add_right 0 _) (Nat.le_add_right 0 _)
  have hall := hnamed.append (fun _ => stable_qualifiedNames hrules) (Nat.le_add_right 0 _)
    (Nat.le_add_right 0 _)
  exact (hall.mono (fun _ _ => id) (fun _ => id) (by decide) (Nat.le_refl _)).part rfl

end DaoGen.Code
