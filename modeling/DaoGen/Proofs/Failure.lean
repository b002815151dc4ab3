import Mathlib.Data.List.Forall2

/-!
# Computations that may fail

What is known about the result of a computation once it has succeeded, and about the error once
it has failed. `Except.FailsOnly` bounds the errors of a computation by those of its parts. The
results for the items of a list are related to these one by one.
-/
namespace List.Forall₂

variable {α β γ : Type} {R : α → β → Prop} {S : β → γ → Prop} {as : List α} {bs : List β}
  {cs : List γ}

/-- Every item has a result. -/
theorem exists_right (h : Forall₂ R as bs) {a : α} (ha : a ∈ as) : ∃ b ∈ bs, R a b := by
  obtain ⟨i, hi, rfl⟩ := getElem_of_mem ha
  exact ⟨_, getElem_mem (h.length_eq ▸ hi), h.get hi (h.length_eq ▸ hi)⟩

/-- Every result is that of an item. -/
theorem exists_left (h : Forall₂ R as bs) {b : β} (hb : b ∈ bs) : ∃ a ∈ as, R a b := by
  obtain ⟨i, hi, rfl⟩ := getElem_of_mem hb
  exact ⟨_, getElem_mem (h.length_eq ▸ hi), h.get (h.length_eq ▸ hi) hi⟩

/-- Results of results are related through the items between. -/
theorem comp (h : Forall₂ R as bs) (h' : Forall₂ S bs cs) :
    Forall₂ (fun a c => ∃ b, R a b ∧ S b c) as cs := by
  induction h generalizing cs with
  | nil =>
    cases h'
    exact .nil
  | cons hab _ ih =>
    cases h' with
    | cons hbc hrest => exact .cons ⟨_, hab, hbc⟩ (ih hrest)

/-- The result at the place of an item is that of the item. -/
theorem exists_getElem? (h : Forall₂ R as bs) {i : Nat} {a : α} (ha : as[i]? = some a) :
    ∃ b, bs[i]? = some b ∧ R a b := by
  obtain ⟨hi, rfl⟩ := getElem?_eq_some_iff.mp ha
  have hi' : i < bs.length := h.length_eq ▸ hi
  exact ⟨bs[i], getElem?_eq_getElem hi', h.get hi hi'⟩

end List.Forall₂

/-- The items of three lists are related one by one. -/
inductive List.Forall₃ {α β γ : Type} (R : α → β → γ → Prop) : List α → List β → List γ → Prop where
  | nil : Forall₃ R [] [] []
  | cons {a : α} {b : β} {c : γ} {as : List α} {bs : List β} {cs : List γ} (h : R a b c)
    (hrest : Forall₃ R as bs cs) : Forall₃ R (a :: as) (b :: bs) (c :: cs)

namespace Except

variable {ε ε' α β : Type}

theorem bind_eq_ok {x : Except ε α} {f : α → Except ε β} {b : β} :
    x >>= f = .ok b ↔ ∃ a, x = .ok a ∧ f a = .ok b := by
  cases x <;> simp [bind, Except.bind]

/-- A composition fails where its first step does, or where the second one does on its result. -/
theorem bind_eq_error {x : Except ε α} {f : α → Except ε β} {e : ε} :
    x >>= f = .error e ↔ x = .error e ∨ ∃ a, x = .ok a ∧ f a = .error e := by
  cases x <;> simp [bind, Except.bind]

theorem pure_eq_ok {a b : α} : (pure a : Except ε α) = .ok b ↔ a = b := by
  simp [pure, Except.pure]

theorem map_eq_ok {x : Except ε α} {f : α → β} {b : β} :
    x.map f = .ok b ↔ ∃ a, x = .ok a ∧ f a = b := by
  cases x <;> simp [Except.map]

theorem map_eq_error {x : Except ε α} {f : α → β} {e : ε} :
    x.map f = .error e ↔ x = .error e := by
  cases x <;> simp [Except.map]

theorem mapError_eq_ok {x : Except ε α} {f : ε → ε'} {a : α} :
    x.mapError f = .ok a ↔ x = .ok a := by
  cases x <;> simp [Except.mapError]

theorem mapError_eq_error {x : Except ε α} {f : ε → ε'} {e : ε'} :
    x.mapError f = .error e ↔ ∃ e', x = .error e' ∧ f e' = e := by
  cases x <;> simp [Except.mapError]

/-- The error of a computation that fails. -/
def error? : Except ε α → Option ε
  | .ok _ => none
  | .error e => some e

theorem toOption_eq_some {x : Except ε α} {a : α} : x.toOption = some a ↔ x = .ok a := by
  cases x <;> simp [Except.toOption]

/-- What a result is checked to have, it has. -/
theorem exists_of_any {x : Except ε α} {p : α → Bool} (h : x.toOption.any p = true) :
    ∃ a, x = .ok a ∧ p a = true := by
  cases x with
  | ok a => exact ⟨a, rfl, by simpa [Except.toOption] using h⟩
  | error e => simp [Except.toOption] at h

theorem error?_eq_some {x : Except ε α} {e : ε} : x.error? = some e ↔ x = .error e := by
  cases x <;> simp [error?]

/-- A computation that succeeds for every item of a list gives the results in order. -/
theorem forall₂_of_mapM {f : α → Except ε β} {as : List α} {bs : List β}
    (h : as.mapM f = .ok bs) : List.Forall₂ (fun a b => f a = .ok b) as bs := by
  induction as generalizing bs with
  | nil =>
    rw [List.mapM_nil, pure_eq_ok] at h
    exact h ▸ .nil
  | cons a as ih =>
    rw [List.mapM_cons] at h
    obtain ⟨b, hb, h⟩ := bind_eq_ok.mp h
    obtain ⟨bs', hbs, h⟩ := bind_eq_ok.mp h
    rw [pure_eq_ok] at h
    exact h ▸ .cons hb (ih hbs)

/-- A computation succeeds for a list just if it does for every item. -/
theorem mapM_eq_ok {f : α → Except ε β} {as : List α} {bs : List β} :
    as.mapM f = .ok bs ↔ List.Forall₂ (fun a b => f a = .ok b) as bs := by
  refine ⟨forall₂_of_mapM, fun h => ?_⟩
  induction h with
  | nil => rfl
  | cons hb _ ih =>
    rw [List.mapM_cons]
    exact bind_eq_ok.mpr ⟨_, hb, bind_eq_ok.mpr ⟨_, ih, rfl⟩⟩

/-- If a computation fails, its error has a property. -/
def FailsOnly (P : ε → Prop) (x : Except ε α) : Prop := ∀ e, x = .error e → P e

namespace FailsOnly

variable {P : ε → Prop} {x : Except ε α}

theorem ok (a : α) : FailsOnly P (.ok a) := by
  intro e h
  cases h

theorem pure (a : α) : FailsOnly P (Pure.pure a) := ok a

theorem error {e : ε} (h : P e) : FailsOnly P (.error e : Except ε α) := by
  intro e' he
  cases he
  exact h

theorem bind {f : α → Except ε β} (hx : FailsOnly P x) (hf : ∀ a, FailsOnly P (f a)) :
    FailsOnly P (x >>= f) := by
  intro e h
  cases x with
  | ok a => exact hf a e h
  | error e' =>
    cases h
    exact hx _ rfl

theorem map (hx : FailsOnly P x) (f : α → β) : FailsOnly P (x.map f) := by
  intro e h
  cases x with
  | ok a => cases h
  | error e' =>
    cases h
    exact hx _ rfl

theorem mapError {Q : ε' → Prop} {f : ε → ε'} (hx : FailsOnly P x) (hf : ∀ e, P e → Q (f e)) :
    FailsOnly Q (x.mapError f) := by
  intro e h
  obtain ⟨e', he, rfl⟩ := mapError_eq_error.mp h
  exact hf e' (hx e' he)

/-- An error that is made from another one. -/
theorem of_mapError {Q : ε' → Prop} {f : ε → ε'} (hf : ∀ e, Q (f e)) :
    FailsOnly Q (x.mapError f) := by
  have hx : FailsOnly (fun _ => True) x := fun _ _ => trivial
  exact hx.mapError fun e _ => hf e

/-- A computation that has just one error, and does not succeed. -/
theorem eq_error {e : ε} (h : FailsOnly (· = e) x) (hok : ∀ a, x ≠ .ok a) : x = .error e := by
  cases hx : x with
  | ok a => exact absurd hx (hok a)
  | error e' => rw [h e' hx]

theorem mapM {f : α → Except ε β} {as : List α} (h : ∀ a ∈ as, FailsOnly P (f a)) :
    FailsOnly P (as.mapM f) := by
  induction as with
  | nil => exact pure []
  | cons a as ih =>
    rw [List.mapM_cons]
    refine (h a List.mem_cons_self).bind fun b => ?_
    exact (ih fun a' ha => h a' (List.mem_cons_of_mem a ha)).bind fun bs => pure (b :: bs)

end FailsOnly

/-- Computations agree: they fail with the same error, or succeed with results that are related. -/
inductive Agree (R : α → β → Prop) : Except ε α → Except ε β → Prop where
  | ok {a : α} {b : β} (h : R a b) : Agree R (.ok a) (.ok b)
  | error (e : ε) : Agree R (.error e) (.error e)

namespace Agree

variable {γ δ : Type} {R : α → β → Prop} {x : Except ε α} {y : Except ε β}

theorem imp {S : α → β → Prop} (h : Agree R x y) (hS : ∀ a b, R a b → S a b) : Agree S x y := by
  cases h with
  | ok h => exact .ok (hS _ _ h)
  | error e => exact .error e

theorem pure {a : α} {b : β} (h : R a b) : Agree R (Pure.pure a : Except ε α) (Pure.pure b) := ok h

theorem bind {S : γ → δ → Prop} {f : α → Except ε γ} {g : β → Except ε δ} (h : Agree R x y)
    (hf : ∀ a b, R a b → Agree S (f a) (g b)) : Agree S (x >>= f) (y >>= g) := by
  cases h with
  | ok h => exact hf _ _ h
  | error e => exact .error e

/-- Two computations that go on from one result. -/
theorem bind_left {S : γ → δ → Prop} (x : Except ε α) {f : α → Except ε γ} {g : α → Except ε δ}
    (hf : ∀ a, x = .ok a → Agree S (f a) (g a)) : Agree S (x >>= f) (x >>= g) := by
  cases x with
  | ok a => exact hf a rfl
  | error e => exact .error e

/-- The first items whose results fail have the same place and the same error. -/
theorem mapM {R : α → β → γ → Prop} {f : α → Except ε β} {g : α → Except ε γ} {as : List α}
    (h : ∀ a ∈ as, Agree (R a) (f a) (g a)) :
    Agree (List.Forall₃ R as) (as.mapM f) (as.mapM g) := by
  induction as with
  | nil => exact pure .nil
  | cons a as ih =>
    rw [List.mapM_cons, List.mapM_cons]
    refine (h a List.mem_cons_self).bind fun b c hbc => ?_
    refine (ih fun a' ha => h a' (List.mem_cons_of_mem a ha)).bind fun bs cs hrest => ?_
    exact pure (.cons hbc hrest)

/-- Computations agree if they have the same errors. -/
theorem of_error? (h : x.error? = y.error?) (hR : ∀ a b, x = .ok a → y = .ok b → R a b) :
    Agree R x y := by
  cases x <;> cases y <;> simp only [Except.error?, reduceCtorEq, Option.some.injEq] at h
  · exact h ▸ .error _
  · exact .ok (hR _ _ rfl rfl)

end Agree

/-- A computation for every item of a list fails at the first one for which it does. -/
theorem error?_mapM {f : α → Except ε β} (as : List α) :
    (as.mapM f).error? = as.findSome? fun a => (f a).error? := by
  induction as with
  | nil => rfl
  | cons a as ih =>
    rw [List.mapM_cons, List.findSome?_cons, ← ih]
    cases f a with
    | error e => rfl
    | ok b => cases as.mapM f <;> rfl

/-- A fold whose steps fail whatever they start from fails at the first item for which one does. -/
theorem foldlM_eq_error_iff {f : β → α → Except ε β} {P : α → ε → Prop}
    (h : ∀ b a e, f b a = .error e ↔ P a e) {as : List α} {b : β} {e : ε} :
    as.foldlM f b = .error e ↔ ∃ before a after, as = before ++ a :: after ∧
      (∀ earlier ∈ before, ∀ e', ¬ P earlier e') ∧ P a e := by
  induction as generalizing b with
  | nil => simp [pure, Except.pure]
  | cons a as ih =>
    rw [List.foldlM_cons, bind_eq_error]
    constructor
    · rintro (herror | ⟨b', hb', hrest⟩)
      · exact ⟨[], a, as, rfl, List.forall_mem_nil _, (h b a e).mp herror⟩
      · obtain ⟨before, a', after, rfl, hbefore, herror⟩ := ih.mp hrest
        refine ⟨a :: before, a', after, rfl, List.forall_mem_cons.mpr ⟨?_, hbefore⟩, herror⟩
        intro e' herror'
        rw [(h b a e').mpr herror'] at hb'
        cases hb'
    · rintro ⟨before, a', after, heq, hbefore, herror⟩
      cases before with
      | nil =>
        obtain ⟨rfl, rfl⟩ := List.cons.inj heq
        exact .inl ((h b a e).mpr herror)
      | cons first before =>
        obtain ⟨rfl, rfl⟩ := List.cons.inj heq
        obtain ⟨hfirst, hbefore⟩ := List.forall_mem_cons.mp hbefore
        cases hb' : f b a with
        | error e' => exact absurd ((h b a e').mp hb') (hfirst e')
        | ok b' => exact .inr ⟨b', rfl, ih.mpr ⟨before, a', after, rfl, hbefore, herror⟩⟩

end Except
