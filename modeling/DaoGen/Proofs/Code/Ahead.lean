import DaoGen.Proofs.Code.Reading

/-!
# What is seen ahead

Most tests of the tokens ahead look at the first token, and of this at its kind and text alone. So
they say the same of two sequences of tokens that begin alike, whatever lines, joints and contents
of groups there are.

## Main definitions

* `SameHead`: tokens that begin alike.
* `IsHeadLook`: tests that say the same of such tokens.
-/
namespace DaoGen.Code

open Code.Language

/-! ## Tokens that begin alike -/

/-- A token without its line, its joint and what is inside it. -/
def Token.shape : Token → Token
  | .ident text _ => .ident text
  | .lifetime name => .lifetime name
  | .punct ch _ => .punct ch
  | .literal text => .literal text
  | .group d _ => .group d []

/-- Whether two sequences of tokens begin with tokens of one shape, or both with the colons of a
path. -/
structure SameHead (ts us : List Token) : Prop where
  shape : ∃ t u later later', ts = t :: later ∧ us = u :: later' ∧ t.shape = u.shape
  colons : atOp "::" ts = atOp "::" us

/-- Whether a test says the same of tokens that begin alike. -/
def IsHeadLook (look : Look) : Prop := ∀ ts us, SameHead ts us → look ts = look us

theorem SameHead.ne_nil {ts us : List Token} (h : SameHead ts us) : ts ≠ [] ∧ us ≠ [] := by
  obtain ⟨_, _, _, _, rfl, rfl, _⟩ := h.shape
  exact ⟨nofun, nofun⟩

theorem atColons_eq_false {t : Token} (h : t.isColon = false) (rest : List Token) :
    atOp "::" (t :: rest) = false := by
  match t with
  | .ident _ _ | .lifetime _ | .literal _ | .group _ _ => simp [atOp, takeOperator]
  | .punct ch joint =>
    have hch : ':' ≠ ch := by
      rintro rfl
      cases h
    simp [atOp, takeOperator, hch]

/-- Anything but a colon is seen by the first token. -/
theorem sameHead_cons {t u : Token} (h : t.shape = u.shape) (ht : t.isColon = false)
    (hu : u.isColon = false) (rest later : List Token) : SameHead (t :: rest) (u :: later) where
  shape := ⟨t, u, rest, later, rfl, rfl, h⟩
  colons := by rw [atColons_eq_false ht, atColons_eq_false hu]

theorem SameHead.trans {ts us vs : List Token} (h : SameHead ts us) (h' : SameHead us vs) :
    SameHead ts vs := by
  obtain ⟨t, u, later, later', rfl, rfl, htu⟩ := h.shape
  obtain ⟨_, v, _, later'', heq, rfl, huv⟩ := h'.shape
  obtain ⟨rfl, rfl⟩ := List.cons.inj heq
  exact ⟨⟨t, v, later, later'', rfl, rfl, htu.trans huv⟩, h.colons.trans h'.colons⟩

/-- A test of the shape of the first token says the same of tokens that begin alike. -/
theorem isHeadLook_of_shape {look : Look} (f : Token → Bool)
    (h : ∀ t rest, look (t :: rest) = f t.shape) : IsHeadLook look := by
  intro ts us hsame
  obtain ⟨t, u, later, later', rfl, rfl, hshape⟩ := hsame.shape
  rw [h, h, hshape]

theorem isHeadLook_colons : IsHeadLook (atOp "::") := fun _ _ h => h.colons

section Looks

variable {look look' : Look}

theorem IsHeadLook.or (h : IsHeadLook look) (h' : IsHeadLook look') :
    IsHeadLook fun tokens => look tokens || look' tokens := fun _ _ hsame => by
  simp only [h _ _ hsame, h' _ _ hsame]

theorem IsHeadLook.and (h : IsHeadLook look) (h' : IsHeadLook look') :
    IsHeadLook fun tokens => look tokens && look' tokens := fun _ _ hsame => by
  simp only [h _ _ hsame, h' _ _ hsame]

theorem isHeadLook_const (b : Bool) : IsHeadLook fun _ => b := fun _ _ _ => rfl

theorem isHeadLook_atEnd : IsHeadLook atEnd := isHeadLook_of_shape (fun _ => false) fun _ _ => rfl

theorem isHeadLook_atWord (word : String) : IsHeadLook (atWord word) :=
  isHeadLook_of_shape (fun t => atWord word [t]) fun t _ => by cases t <;> rfl

theorem isHeadLook_atAnyWord (words : List String) : IsHeadLook (atAnyWord words) :=
  isHeadLook_of_shape (fun t => atAnyWord words [t]) fun t _ => by cases t <;> rfl

theorem isHeadLook_atAnyName : IsHeadLook atAnyName :=
  isHeadLook_of_shape (fun t => atAnyName [t]) fun t _ => by cases t <;> rfl

theorem isHeadLook_atName : IsHeadLook atName :=
  isHeadLook_of_shape (fun t => atName [t]) fun t _ => by cases t <;> rfl

theorem isHeadLook_atPathName : IsHeadLook atPathName :=
  isHeadLook_of_shape (fun t => atPathName [t]) fun t _ => by cases t <;> rfl

theorem isHeadLook_atLifetime : IsHeadLook atLifetime :=
  isHeadLook_of_shape (fun t => atLifetime [t]) fun t _ => by cases t <;> rfl

theorem isHeadLook_atGroup (d : Delimiter) : IsHeadLook (atGroup d) :=
  isHeadLook_of_shape (fun t => atGroup d [t]) fun t _ => by cases t <;> rfl

/-- An operator of a single character is seen by the first token. -/
theorem isHeadLook_atOp (text : String) {c : Char} (h : text.toList = [c]) :
    IsHeadLook (atOp text) :=
  isHeadLook_of_shape (fun t => atOp text [t]) fun t _ => by
    cases t <;> simp [atOp, takeOperator, h, Token.shape, apply_ite Option.isSome]

end Looks

theorem isHeadLook_startsPathType : IsHeadLook startsPathType :=
  (isHeadLook_atPathName.or isHeadLook_colons).or (isHeadLook_atOp "<" rfl)

theorem isHeadLook_startsBound (constAllowed : Bool) : IsHeadLook (startsBound constAllowed) :=
  ((((isHeadLook_atAnyName.or isHeadLook_colons).or (isHeadLook_atOp "?" rfl)).or
    isHeadLook_atLifetime).or (isHeadLook_atGroup .paren)).or
      ((isHeadLook_const constAllowed).and
        ((isHeadLook_atGroup .bracket).or (isHeadLook_atWord "const")))

end DaoGen.Code
