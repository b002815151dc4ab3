import DaoGen.Proofs.Code.StablePath

/-!
# Generic parameters are read again

The parameters that a `for` binds are read again, with their attributes, bounds and default values.

## Main results

* `stable_attributes`: attributes are read again if their contents are.
* `stable_binders`: the parameters that a `for` binds are read again.
-/
namespace DaoGen.Code

open Code.Language

variable {rules : Rule → List Token → Match Part} {ts : List Token} {extra : Nat}

/-! ## Attributes -/

/-- The content of an attribute is no type. -/
theorem isSliceOf_attributeContent {d : Delimiter} {trees : Trees} {rest : List Token}
    (h : Reads rules attributeContent ts trees rest) : isSliceOf d trees = false := by
  have hyields : Yields rules attributeContent ts fun trees _ => isSliceOf d trees = false := by
    refine .append (.labelled (Yields.any.mono fun path mid _ =>
      Yields.any.mono fun later _ _ => ?_))
    cases d with
    | paren | brace => rfl
    | bracket => cases later <;> rfl
  exact hyields _ h

/-- An attribute is legible if its content is read again. -/
theorem stable_attribute :
    Stable rules ParseTree.IsLegible Unlike SameHead 1 0
      (.labelled .attribute (Language.op "#" ++ brackets attributeContent)) ts := by
  refine Yields.labelled (.append (.markAt (c := '#') fun joint mid hts => ?_))
  refine .enclosed fun content rest _ => Yields.any.mono fun trees _ _ hlegible => ?_
  obtain ⟨inside, heq, hfills⟩ : ∃ inside : Trees,
      ([.leaf (.punct '#'), .group .bracket trees] : Trees) =
        [.leaf (.punct '#'), .group .bracket inside] ∧ FillsAgain attributeContent inside :=
    hlegible _ List.mem_cons_self
  obtain rfl : trees = inside := by simpa using heq
  refine ⟨by simp [unlinedTrees, ParseTree.unlined, Token.unlined, sizeOfTokens, Token.size], ?_⟩
  have hgroup : Rereads Anything Anything 0 (brackets attributeContent)
      [.group .bracket (unlinedTrees trees)] :=
    (hfills.enclosed (isSliceOf_attributeContent hfills.reads)).mono (fun _ => id)
      (fun _ _ => trivial) (Nat.zero_le 0)
  refine (((rereads_mark (c := '#') (by decide)).append hgroup (Nat.le_add_right _ _)
    (Nat.le_add_right _ _)).labelled).mono (fun _ _ => trivial) ?_ (Nat.le_refl _)
  rintro _ ⟨joint', later, rfl, -⟩
  exact hts ▸ sameHead_cons (t := .punct '#' joint) (u := .punct '#' joint') rfl rfl rfl mid later

/-- What is ahead before attributes. -/
def BeforeAttributes (after : Likeness) : Likeness := fun ts us =>
  SameHead ts us ∧ (atOp "#" ts = false → after ts us)

/-- Attributes are read again if what stands after them begins as before. -/
theorem stable_attributes {after : Likeness} :
    Stable rules ParseTree.IsLegible (fun ts us => SameHead ts us ∧ after ts us)
      (BeforeAttributes after) 0 0 attributes ts := by
  refine .repeated rfl (fun ts us hus => ?_) (fun ts hts us hus => ⟨hus.1, fun _ => hus.2⟩)
    (fun ts hts => ?_) fun ts _ => .labelled (.append ?_)
  · exact (isHeadLook_atOp "#" rfl ts us hus.1).symm
  · exact stable_attribute.mono (fun _ _ _ => trivial)
      (fun us hus => ⟨hus, fun hnone => absurd hts (by simp [hnone])⟩) (Nat.le_refl _)
      (Nat.le_refl _)
  · refine .op fun taken mid htake => .enclosed fun content rest hmid =>
      Yields.any.mono fun _ _ _ => ?_
    have hless := length_lt_of_takeCharacters htake
    rw [hmid, List.length_cons] at hless
    omega

/-! ## Bounds and values -/

theorem length_unlinedTrees (trees : Trees) : (unlinedTrees trees).length = trees.length := by
  rw [unlinedTrees_eq_map, List.length_map]

/-- The bounds of a parameter are read again; a colon without bounds is not written. -/
theorem stable_parameterBounds {inside : P} {follow : List Token → Prop}
    (h : ∀ ms, Stable rules ParseTree.IsLegible (fun _ => follow) Unlike 0 1 inside ms)
    (hfollow : ∀ us, follow us → atOp ":" us = false) :
    Stable rules ParseTree.IsLegible (fun _ => follow) Unlike 0 1 (parameterBounds inside) ts := by
  have hnone : Rereads follow Anything 1 (parameterBounds inside) [] :=
    (Rereads.given_neg hfollow).mono (fun _ => id) (fun _ _ => trivial) (Nat.le_refl 1)
  refine Yields.given (fun _ => Yields.edited fun parsed hparsed hlegible => ?_) fun _ _ =>
    ⟨Nat.zero_le _, hnone⟩
  by_cases hfew : parsed.trees.length ≤ 1
  · rw [if_pos hfew]
    exact ⟨Nat.zero_le _, hnone⟩
  · rw [if_neg hfew] at hlegible ⊢
    have hbounds := areLegible_of_node (rfl : isOpen .bounds = true)
      (hlegible _ List.mem_cons_self)
    obtain ⟨-, hreads⟩ := Stable.colon_append h (fun _ us => hfollow us) parsed hparsed
      (areLegible_iff_forall.mp hbounds)
    have hedit : (if (unlinedTrees parsed.trees).length ≤ 1 then []
        else [ParseTree.node Part.bounds (unlinedTrees parsed.trees)]) =
          [.node .bounds (unlinedTrees parsed.trees)] := by
      rw [length_unlinedTrees, if_neg hfew]
    have hpieces : piecesOf [ParseTree.node Part.bounds (unlinedTrees parsed.trees)] =
        piecesOf (unlinedTrees parsed.trees) := by simp
    refine ⟨Nat.zero_le _, ((hreads.edited hedit hpieces).either_pos fun us hus => ?_).mono
      (fun _ => id) (fun _ _ => trivial) (Nat.le_refl 1)⟩
    simp only [atColon, Bool.and_eq_true] at hus
    exact hus.1

/-- A default value is read again. -/
theorem stable_value {inside : P}
    (h : ∀ ms, Stable rules ParseTree.IsLegible (fun _ => EndsArgument) Unlike 1 2 inside ms) :
    Stable rules ParseTree.IsLegible (fun _ => EndsArgument)
      (fun ts us => (AtMark '=' us ∨ EndsArgument us) ∧ atOp "=" us = atOp "=" ts) 0 0
        (Language.value inside) ts := by
  refine .given (fun _ hus => hus.2) (fun hts => ?_) fun hts us hus =>
    ⟨.inr hus, hus.marks.1.trans hts.symm⟩
  refine Stable.part rfl (((Stable.mark (c := '=') (by decide)).append h (Nat.le_add_right _ _)
    (by decide)).mono (fun _ _ => id) (fun us hus => ?_) (Nat.zero_le _) (Nat.le_refl _))
  obtain ⟨joint, rest, rfl⟩ := hus.atMark
  exact ⟨.inl ⟨joint, rest, rfl⟩, hts.symm ▸ by simp [atOp, takeOperator]⟩

/-! ## Parameters -/

/-- What stands after the bounds of a parameter. -/
def EndsBounds (us : List Token) : Prop := AtMark '=' us ∨ EndsArgument us

theorem EndsBounds.closes {us : List Token} (h : EndsBounds us) : Closes us :=
  h.elim (closes_mark (by decide)) EndsArgument.closes

theorem EndsBounds.marks {us : List Token} (h : EndsBounds us) :
    atOp ":" us = false ∧ (atComma us || atAngleEnd us || atOp "=" us) = true := by
  rcases h with ⟨joint, rest, rfl⟩ | ⟨joint, rest, rfl⟩ | ⟨joint, rest, rfl⟩ <;>
    simp [atComma, atAngleEnd, atOp, takeOperator]

/-- A type is read again where it is closed. -/
theorem stable_closedType (hrules : RulesStable rules) {follow : List Token → Prop}
    (hfollow : ∀ us, follow us → Closes us) (plus : Bool) (ts : List Token) :
    Stable rules ParseTree.IsLegible (fun _ => follow) Unlike 1 2 (call (.type plus)) ts :=
  (hrules.type plus ts).mono (fun ts _ hus => (hfollow _ hus).ends ts) (fun _ _ => trivial)
    (Nat.le_refl _) (Nat.le_refl _)

theorem stable_lifetimeParam (hrules : RulesStable rules) :
    Stable rules ParseTree.IsLegible (fun _ => EndsArgument) SameHead 1 0 lifetimeParam ts := by
  have hlifetime {extra : Nat} (ts : List Token) :
      Stable rules ParseTree.IsLegible Unlike SameHead 1 extra lifetime ts :=
    Stable.lifetime.mono (fun _ _ => id) (fun _ => AfterLifetime.sameHead) (Nat.le_refl _)
      (Nat.le_refl _)
  have hbounds (ms : List Token) : Stable rules ParseTree.IsLegible (fun _ => EndsArgument)
      Unlike 0 1 (chainUpTo "+" (fun tokens => atEnd tokens || atComma tokens || atAngleEnd tokens)
        lifetime) ms := by
    refine (stable_chainUpTo hrules.suffix ?_ (fun _ _ _ _ => trivial) (fun ts us hus => ?_)
      hlifetime).mono (fun _ _ => id) (fun _ _ => trivial) (Nat.le_refl _) (Nat.le_refl _)
    · exact (isHeadLook_atEnd.or (isHeadLook_atOp "," rfl)).or
        (isHeadLook_atOp ">" rfl)
    · exact ⟨trivial, fun h => absurd h (by simp [hus.closes.plus_eq_false]), fun _ => by
        simp [Bool.or_assoc, hus.marks.2.2]⟩
  exact (hlifetime ts).append (fun _ => stable_parameterBounds hbounds
    fun _ hus => hus.marks.2.1) (Nat.le_refl 0) (by decide)

theorem stable_typeParam (hrules : RulesStable rules) :
    Stable rules ParseTree.IsLegible (fun _ => EndsArgument) SameHead 1 0 typeParam ts := by
  have hbounds (ms : List Token) : Stable rules ParseTree.IsLegible (fun _ => EndsBounds) Unlike 0 1
      (chainUpTo "+" (fun tokens => atComma tokens || atAngleEnd tokens || atOp "=" tokens)
        declaredBound) ms := by
    refine (stable_chainUpTo hrules.suffix ?_ (fun _ _ => ends_plus) (fun ts us hus => ?_)
      fun _ => stable_bound hrules false true).mono (fun _ _ => id) (fun _ _ => trivial)
        (Nat.le_refl _) (Nat.le_refl _)
    · exact ((isHeadLook_atOp "," rfl).or (isHeadLook_atOp ">" rfl)).or
        (isHeadLook_atOp "=" rfl)
    · exact ⟨hus.closes.ends ts, fun h => absurd h (by simp [hus.closes.plus_eq_false]),
        fun _ => hus.marks.2⟩
  have hname : Stable rules ParseTree.IsLegible Unlike SameHead 1 0 name ts := Stable.name
  have hbounded := hname.append (fun _ => stable_parameterBounds hbounds
    fun _ hus => hus.marks.1) (Nat.le_refl 0) (by decide)
  have hvalue (ms : List Token) : Stable rules ParseTree.IsLegible (fun _ => EndsArgument)
      (fun _ => EndsBounds) 0 0 (Language.value (call (.type true))) ms :=
    (stable_value (stable_closedType hrules (fun _ => EndsArgument.closes) true)).mono
      (fun _ _ => id) (fun _ hus => hus.1) (Nat.le_refl _) (Nat.le_refl _)
  exact hbounded.append hvalue (Nat.zero_le _) (Nat.zero_le _)

theorem stable_constParam (hrules : RulesStable rules) :
    Stable rules ParseTree.IsLegible (fun _ => EndsArgument) SameHead 1 0 constParam ts := by
  have hcolon (ms : List Token) : Stable rules ParseTree.IsLegible Unlike Unlike 1 0
      (Language.op ":") ms :=
    (Stable.mark (c := ':') (by decide)).mono (fun _ _ => id) (fun _ _ => trivial) (Nat.le_refl _)
      (Nat.le_refl _)
  have hvalue (ms : List Token) : Stable rules ParseTree.IsLegible (fun _ => EndsArgument)
      (fun _ => EndsBounds) 0 0 (Language.value constArgument) ms :=
    (stable_value fun _ => stable_constArgument.mono (fun _ _ _ => trivial) (fun _ _ => trivial)
      (Nat.le_refl _) (Nat.le_succ _)).mono (fun _ _ => id) (fun _ hus => hus.1) (Nat.le_refl _)
        (Nat.le_refl _)
  have hname (ms : List Token) : Stable rules ParseTree.IsLegible Unlike Unlike 1 0 name ms :=
    Stable.name.mono (fun _ _ => id) (fun _ _ => trivial) (Nat.le_refl _) (Nat.le_refl _)
  have hword : Stable rules ParseTree.IsLegible Unlike SameHead 1 0 (word "const") ts :=
    .sameHead_word
  have hnamed := hword.append hname (Nat.zero_le (0 + _)) (Nat.zero_le _)
  have hcolons := hnamed.append hcolon (Nat.zero_le (0 + _)) (Nat.zero_le _)
  have htyped := hcolons.append (stable_closedType hrules (fun _ => EndsBounds.closes) true)
    (Nat.zero_le (0 + _)) (by decide)
  exact (htyped.append hvalue (Nat.zero_le _) (Nat.zero_le _)).mono (fun _ _ => id) (fun _ => id)
    (by decide) (Nat.le_refl _)

/-! ## Lists of parameters -/

theorem any_filter_head_unlined (trees : Trees) :
    ((unlinedTrees trees).filter fun tree => !isNode .attribute tree).head?.any isLifetimeTree =
      (trees.filter fun tree => !isNode .attribute tree).head?.any isLifetimeTree := by
  induction trees with
  | nil => rfl
  | cons tree trees ih =>
    rw [unlinedTrees, List.filter_cons, List.filter_cons, isNode_unlined]
    split
    · simp [isLifetimeTree_unlined]
    · exact ih

/-- A parameter with its attributes is stable if its productions are. -/
theorem stable_genericParam {alternatives : P}
    (h : ∀ ms, Stable rules ParseTree.IsLegible (fun _ => EndsArgument) SameHead 1 0 alternatives
      ms) :
    Stable rules ParseTree.IsLegible (fun _ => EndsArgument) SameHead 1 0
      (genericParam alternatives) ts := by
  have hattributes : Stable rules ParseTree.IsLegible SameHead SameHead 0 0 attributes ts :=
    stable_attributes.mono (fun _ _ hus => ⟨hus, trivial⟩)
      (fun us (hus : BeforeAttributes Unlike ts us) => hus.1) (Nat.le_refl _) (Nat.le_refl _)
  refine (hattributes.append h (Nat.zero_le _) (Nat.zero_le _)).relabelled (fun trees => ?_)
    (Yields.any.mono fun trees _ _ _ => ⟨_, ?_, rfl⟩)
  · rw [any_filter_head_unlined]
    rfl
  · split <;> rfl

/-- The parameters that a `for` binds are stable. -/
theorem stable_binders (hrules : RulesStable rules) :
    Stable rules ParseTree.IsLegible Unlike SameHead 1 0 Language.binders ts := by
  have hparam (ts : List Token) : Stable rules ParseTree.IsLegible (fun _ => EndsArgument) SameHead
      1 0 (genericParam (oneOf
        [(.name, typeParam), (.lifetime, lifetimeParam), (.word "const", constParam)])) ts := by
    refine stable_genericParam fun ms => ?_
    exact .select_cons (fun us hus => (isHeadLook_atName ms us hus).symm)
      (fun _ => stable_typeParam hrules) fun _ =>
      .select_cons (fun us hus => (isHeadLook_atLifetime ms us hus).symm)
        (fun _ => stable_lifetimeParam hrules) fun _ =>
      .select_cons (fun us hus => (isHeadLook_atWord "const" ms us hus).symm)
        (fun _ => stable_constParam hrules) fun _ => .select_nil .noneOf
  have hmembers (ms : List Token) : Stable rules ParseTree.IsLegible (fun _ => AtMark '>') Unlike 0
      0 (separated atAngleEnd (Language.op ",") (genericParam (oneOf
        [(.name, typeParam), (.lifetime, lifetimeParam), (.word "const", constParam)]))) ms := by
    refine (stable_separated rereads_comma (fun _ _ => yields_comma) ?_ ?_ fun ts hts => ?_).mono
      (fun _ _ => id) (fun us (_ : AtMark '>' us ∨ Anything us) => trivial) (Nat.le_refl _)
      (Nat.le_refl _)
    · rintro _ ⟨joint, rest, rfl⟩
      simp [atAngleEnd, atOp, takeOperator]
    · rintro _ ⟨joint, rest, rfl⟩
      simp [atAngleEnd, atOp, takeOperator]
    · refine readsMember_of_stable (.edited (Yields.any.mono fun _ _ _ => ⟨_, rfl, ?_⟩))
        (hparam ts) (fun _ _ => id) fun us hus => ⟨?_, trivial⟩
      · rfl
      · exact (isHeadLook_atOp ">" rfl ts us hus).symm.trans hts
  have hopen (ms : List Token) : Stable rules ParseTree.IsLegible Unlike Unlike 1 0
      (Language.op "<") ms :=
    (Stable.mark (c := '<') (by decide)).mono (fun _ _ => id) (fun _ _ => trivial) (Nat.le_refl _)
      (Nat.le_refl _)
  have hclose (ms : List Token) : Stable rules ParseTree.IsLegible Unlike (fun _ => AtMark '>') 1 0
      (Language.op ">") ms :=
    .closing (c := '>') (by decide)
  have hword : Stable rules ParseTree.IsLegible Unlike SameHead 1 0 (word "for") ts :=
    .sameHead_word
  have hopened := hword.append hopen (Nat.zero_le (0 + _)) (Nat.zero_le _)
  have hfilled := hopened.append hmembers (Nat.zero_le (0 + _)) (Nat.zero_le _)
  exact (hfilled.append hclose (Nat.zero_le _) (Nat.zero_le _)).mono (fun _ _ => id) (fun _ => id)
    (by decide) (Nat.le_refl _)

end DaoGen.Code
