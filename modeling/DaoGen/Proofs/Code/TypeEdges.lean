import DaoGen.Proofs.Code.CommaList

/-!
# Where types begin and end

Whether a type goes on is decided by the tokens after it, and whether a type is read at all by the
ones at its front.

## Main definitions

* `Ends`: what can stand after a type, if something else stood there when it was read.
* `StartsType`: what is seen where a type is read.

## Main results

* `startsType_of_reads`: a type is read only where one begins.
-/
namespace DaoGen.Code

open Code.Language

/-! ## What stands after a type -/

/-- No type goes on with the tokens ahead: not as a path or the input of a macro, not as a function
with a result, and as a sum of bounds only where it would have gone on with the tokens that stood
there before. -/
structure Ends (rest after : List Token) : Prop where
  colons : atOp "::" after = false
  angle : atOp "<" after = false
  bang : atOp "!" after = false
  arrow : atOp "->" after = false
  parens : atGroup .paren after = false
  plus : atOp "+" after = true → atOp "+" rest = true
  bound : ∀ constAllowed, startsBound constAllowed after = true →
    startsBound constAllowed rest = true

/-- No type goes on with the tokens ahead, whatever stood there before. -/
abbrev Closes (after : List Token) : Prop := Ends [] after

theorem Closes.ends {after : List Token} (h : Closes after) (rest : List Token) :
    Ends rest after :=
  { h with
    plus := fun hplus => nomatch h.plus hplus
    bound := fun constAllowed hbound => by
      have hnone := h.bound constAllowed hbound
      cases constAllowed <;> cases hnone }

theorem Closes.plus_eq_false {after : List Token} (h : Closes after) : atOp "+" after = false :=
  Bool.eq_false_iff.mpr fun hplus => nomatch h.plus hplus

theorem closes_nil : Closes [] :=
  ⟨rfl, rfl, rfl, rfl, rfl, nofun, fun constAllowed h => by cases constAllowed <;> cases h⟩

/-- Marks that close a type. -/
def closingMarks : List Char := [',', '>', ';', '=']

theorem closes_mark {c : Char} (hc : c ∈ closingMarks) {after : List Token} (h : AtMark c after) :
    Closes after := by
  obtain ⟨joint, later, rfl⟩ := h
  simp only [closingMarks, List.mem_cons, List.not_mem_nil, or_false] at hc
  rcases hc with rfl | rfl | rfl | rfl <;>
    exact ⟨by simp [atOp, takeOperator], by simp [atOp, takeOperator],
      by simp [atOp, takeOperator], by simp [atOp, takeOperator], rfl,
      by simp [atOp, takeOperator], by
        simp [startsBound, atOp, takeOperator, atAnyName, atLifetime, atGroup, atWord]⟩

theorem exists_of_atWord {word : String} {ts : List Token} (h : atWord word ts = true) :
    ∃ line rest, ts = .ident word line :: rest := by
  cases ts with
  | nil => cases h
  | cons t rest =>
    cases t with
    | ident text line =>
      obtain rfl : text = word := by simpa [atWord] using h
      exact ⟨line, rest, rfl⟩
    | lifetime | punct | literal | group => cases h

theorem exists_of_atOp {text : String} {c : Char} (h : text.toList.head? = some c)
    {ts : List Token} (hts : atOp text ts = true) : AtMark c ts := by
  obtain ⟨split, hsplit⟩ := Option.isSome_iff_exists.mp hts
  obtain ⟨d, joint, later, hd, rfl⟩ := (takeCharacters_eq_some hsplit).2
  obtain rfl : c = d := Option.some.inj (h.symm.trans hd)
  exact ⟨joint, later, rfl⟩

/-- A colon that is no part of a path closes a type. -/
theorem closes_colon {after : List Token} (h : atColon after = true) : Closes after := by
  obtain ⟨hcolon, hcolons⟩ : atOp ":" after = true ∧ atOp "::" after = false := by
    simpa [atColon] using h
  obtain ⟨joint, later, rfl⟩ := exists_of_atOp (c := ':') (by decide) hcolon
  exact ⟨hcolons, by simp [atOp, takeOperator], by simp [atOp, takeOperator],
    by simp [atOp, takeOperator], rfl, by simp [atOp, takeOperator], fun constAllowed hbound => by
      rw [startsBound, hcolons] at hbound
      simp [atOp, takeOperator, atAnyName, atLifetime, atGroup, atWord] at hbound⟩

/-- What begins as before ends a type as before. -/
theorem ends_of_sameHead {rest after : List Token} (h : SameHead rest after)
    (hrest : atOp "::" rest = false ∧ atOp "<" rest = false ∧ atOp "!" rest = false ∧
      atGroup .paren rest = false) (harrow : atOp "->" after = false) : Ends rest after where
  colons := h.colons ▸ hrest.1
  angle := (isHeadLook_atOp "<" rfl _ _ h) ▸ hrest.2.1
  bang := (isHeadLook_atOp "!" rfl _ _ h) ▸ hrest.2.2.1
  arrow := harrow
  parens := (isHeadLook_atGroup .paren _ _ h) ▸ hrest.2.2.2
  plus hplus := (isHeadLook_atOp "+" rfl _ _ h).trans hplus
  bound constAllowed hbound := (isHeadLook_startsBound constAllowed _ _ h).trans hbound

/-! ## What stands at the front of a type -/

/-- What is seen where a type is read. A type that begins with a lifetime is a sum. -/
structure StartsType (ts : List Token) : Prop where
  equals : atOp "=" ts = false
  less : atOp "<=" ts = false
  greater : atOp ">" ts = false
  dot : atOp "." ts = false
  writable : atWord "mut" ts = false
  const : atConstArgument ts = false
  lifetime : atLifetime ts = true → second (atOp "+") ts = true

theorem startsType_ident {text : String} (h : text ≠ "mut" ∧ text ≠ "true" ∧ text ≠ "false")
    (line : Nat) (rest : List Token) : StartsType (.ident text line :: rest) where
  equals := by simp [atOp, takeOperator]
  less := by simp [atOp, takeOperator]
  greater := by simp [atOp, takeOperator]
  dot := by simp [atOp, takeOperator]
  writable := by simp [atWord, h.1]
  const := by simp [atConstArgument, atLiteral, takeLiteral, atGroup, h.2]
  lifetime := nofun

theorem startsType_mark {c : Char} (h : c ≠ '=' ∧ c ≠ '<' ∧ c ≠ '>' ∧ c ≠ '.' ∧ c ≠ '-')
    (joint : Bool) (rest : List Token) : StartsType (.punct c joint :: rest) where
  equals := by simp [atOp, takeOperator, Ne.symm h.1]
  less := by simp [atOp, takeOperator, Ne.symm h.2.1]
  greater := by simp [atOp, takeOperator, Ne.symm h.2.2.1]
  dot := by simp [atOp, takeOperator, Ne.symm h.2.2.2.1]
  writable := rfl
  const := by
    have hnone : takeLiteral (.punct c joint :: rest) = none := by
      unfold takeLiteral
      split <;> simp_all
    simp [atConstArgument, atLiteral, hnone, atGroup]
  lifetime := nofun

theorem startsType_group {d : Delimiter} (h : d ≠ .brace) (content rest : List Token) :
    StartsType (.group d content :: rest) where
  equals := by simp [atOp, takeOperator]
  less := by simp [atOp, takeOperator]
  greater := by simp [atOp, takeOperator]
  dot := by simp [atOp, takeOperator]
  writable := rfl
  const := by cases d <;> simp_all [atConstArgument, atLiteral, takeLiteral, atGroup]
  lifetime := nofun

section Starts

variable {rules : Rule → List Token → Match Part} {ts : List Token} {plus : Bool} {p : P}

theorem startsType_of_atWord {word : String}
    (hword : word ≠ "mut" ∧ word ≠ "true" ∧ word ≠ "false") (h : atWord word ts = true) :
    StartsType ts := by
  obtain ⟨line, rest, rfl⟩ := exists_of_atWord h
  exact startsType_ident hword line rest

theorem startsType_of_atAnyWord {words : List String}
    (hwords : ∀ word ∈ words, word ≠ "mut" ∧ word ≠ "true" ∧ word ≠ "false")
    (h : atAnyWord words ts = true) : StartsType ts := by
  match ts, h with
  | .ident text line :: rest, h =>
    exact startsType_ident (hwords text (List.contains_iff_mem.mp h)) line rest

theorem startsType_of_atOp {text : String} {c : Char} (htext : text.toList.head? = some c)
    (hc : c ≠ '=' ∧ c ≠ '<' ∧ c ≠ '>' ∧ c ≠ '.' ∧ c ≠ '-') (h : atOp text ts = true) :
    StartsType ts := by
  obtain ⟨joint, rest, rfl⟩ := exists_of_atOp htext h
  exact startsType_mark hc joint rest

theorem startsType_of_atGroup {d : Delimiter} (hd : d ≠ .brace) (h : atGroup d ts = true) :
    StartsType ts := by
  match ts, h with
  | .group e content :: rest, h =>
    obtain rfl : d = e := by simpa [atGroup] using h
    exact startsType_group hd content rest

/-- No type is read at an equals sign. -/
theorem yields_type_of_equals (hts : atOp "=" ts = true) {post : Trees → List Token → Prop} :
    Yields rules (Language.type plus) ts post := by
  obtain ⟨joint, rest, rfl⟩ := exists_of_atOp (c := '=') (by decide) hts
  have hnone (look : Look) (h : look (.punct '=' joint :: rest) = false) {p : P}
      {post : Trees → List Token → Prop} (hlook : look (.punct '=' joint :: rest) = true) :
      Yields rules p (.punct '=' joint :: rest) post := absurd hlook (by simp [h])
  have hmark (c : Char) (hc : c ≠ '=') :
      atOp (String.singleton c) (.punct '=' joint :: rest) = false := by
    simp [atOp, takeOperator, hc]
  refine .labelled <|
    .select_cons (hnone _ rfl) fun _ => .select_cons (hnone _ rfl) fun _ =>
    .select_cons (hnone _ rfl) fun _ =>
    .select_cons (hnone _ (by simp [startsPathType, atPathName, atOp, takeOperator])) fun _ =>
    .select_cons (hnone _ rfl) fun _ => .select_cons (hnone _ rfl) fun _ =>
    .select_cons (hnone _ (hmark '*' (by decide))) fun _ =>
    .select_cons (hnone _ (hmark '&' (by decide))) fun _ =>
    .select_cons (hnone _ (hmark '!' (by decide))) fun _ => .select_cons (hnone _ rfl) fun _ =>
    .select_cons (hnone _ rfl) fun _ => .select_cons (hnone _ rfl) fun _ => .select_nil .noneOf

/-- What begins with a lifetime and is read as an object type goes on with a plus sign. -/
theorem yields_lifetimeObject (hts : atLifetime ts = true) :
    Yields rules lifetimeObject ts fun _ _ => second (atOp "+") ts = true := by
  match ts, hts with
  | .lifetime name :: rest, hts =>
    by_cases hplus : atOp "+" rest = true
    · exact Yields.any.mono fun _ _ _ => hplus
    · -- without one there is no bound but the lifetime, which is not enough
      have hplus : atOp "+" rest = false := by simpa using hplus
      have hfirst : Yields rules (boundSum true false false) (.lifetime name :: rest)
          fun trees _ => trees = [.leaf (.lifetime name)] := by
        refine .append (.append (.select_cons (fun _ => .lifetime fun _ _ heq => ?_) nofun))
        cases heq
        refine .repeated_neg (by simp [hplus]) ?_
        exact .given (fun h => absurd h (by simp [hplus])) fun _ => rfl
      refine .labelled (.bind (hfirst.mono ?_))
      rintro _ _ rfl
      exact Yields.take nofun

/-- A word that begins a path is none of the words that cannot. -/
theorem ne_of_isPathName {name word : String} (h : isPathName name = true)
    (hword : isPathName word = false) : name ≠ word := by
  rintro rfl
  rw [h] at hword
  cases hword

/-- The type inside a path through a type does not begin with an equals sign. -/
theorem yields_pathType_of_angle {depth : Nat} (hts : atOp "<" ts = true) :
    Yields (language.read depth) (.edited (pathType plus) labelPath) ts
      fun _ _ => StartsType ts := by
  obtain ⟨joint, rest, rfl⟩ := exists_of_atOp (c := '<') (by decide) hts
  by_cases hless : atOp "<=" (.punct '<' joint :: rest) = true
  · have hrest : atOp "=" rest = true := by
      cases joint with
      | false => cases hless
      | true => simpa [atOp, takeOperator] using hless
    refine .edited (.bind (.either (fun _ => ?_) fun h => absurd h (by simp [hts])))
    refine .labelled (.append (.append (.append (.append (.append (.append (.op ?_)))))))
    intro taken later htake
    obtain ⟨-, rfl⟩ : [Token.punct '<'] = taken ∧ rest = later := by
      simpa [takeOperator] using htake
    refine .call fun parsed hparsed => ?_
    cases depth with
    | zero => cases hparsed
    | succ depth =>
      have hnone : Yields (language.read depth) (Language.type true) rest fun _ _ => False :=
        yields_type_of_equals hrest
      exact (hnone parsed hparsed).elim
  · refine Yields.any.mono fun _ _ _ => ⟨by simp [atOp, takeOperator], by simpa using hless,
      by simp [atOp, takeOperator], by simp [atOp, takeOperator], rfl, ?_, ?_⟩
    · simp [atConstArgument, atLiteral, takeLiteral, atGroup]
    · exact fun h => absurd h Bool.false_ne_true

/-- A type is read only where one begins. -/
theorem startsType_of_read {depth : Nat} {parsed : Parsed Part}
    (h : language.read depth (.type plus) ts = .success parsed) : StartsType ts := by
  cases depth with
  | zero => cases h
  | succ depth =>
    suffices hall : Yields (language.read depth) (Language.type plus) ts fun _ _ => StartsType ts
      from hall parsed h
    have hof {p : P} (h : StartsType ts) :
        Yields (language.read depth) p ts fun _ _ => StartsType ts :=
      Yields.any.mono fun _ _ _ => h
    refine .labelled <|
      .select_cons (fun h => hof (startsType_of_atWord (by decide) h)) fun _ =>
      .select_cons (fun h => hof (startsType_of_atGroup (by decide) h)) fun _ =>
      .select_cons (fun h => hof (startsType_of_atAnyWord (by decide) h)) fun _ =>
      .select_cons (fun h => ?_) fun _ =>
      .select_cons (fun h => hof (startsType_of_atWord (by decide) h)) fun _ =>
      .select_cons (fun h => hof (startsType_of_atGroup (by decide) h)) fun _ =>
      .select_cons (fun h => hof (startsType_of_atOp (c := '*') (by decide) (by decide) h)) fun _ =>
      .select_cons (fun h => hof (startsType_of_atOp (c := '&') (by decide) (by decide) h)) fun _ =>
      .select_cons (fun h => hof (startsType_of_atOp (c := '!') (by decide) (by decide) h)) fun _ =>
      .select_cons (fun h => hof (startsType_of_atWord (by decide) h)) fun _ =>
      .select_cons (fun h => hof (startsType_of_atWord (by decide) h)) fun _ =>
      .select_cons (fun h => (yields_lifetimeObject h).mono fun _ _ hplus => ?_) fun _ =>
      .select_nil .noneOf
    · rcases Bool.or_eq_true_iff.mp h with h | hangle
      · rcases Bool.or_eq_true_iff.mp h with hname | hcolons
        · match ts, hname with
          | .ident text line :: rest, hname =>
            exact hof (startsType_ident ⟨ne_of_isPathName hname (by decide),
            ne_of_isPathName hname (by decide), ne_of_isPathName hname (by decide)⟩ line rest)
        · exact hof (startsType_of_atOp (c := ':') (by decide) (by decide) hcolons)
      · exact yields_pathType_of_angle hangle
    · match ts, h with
      | .lifetime name :: rest, _ =>
        exact ⟨by simp [atOp, takeOperator], by simp [atOp, takeOperator],
          by simp [atOp, takeOperator], by simp [atOp, takeOperator], rfl, rfl, fun _ => hplus⟩

end Starts

end DaoGen.Code
