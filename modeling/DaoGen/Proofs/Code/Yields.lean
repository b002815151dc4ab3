import DaoGen.Proofs.Code.Reading

/-!
# What productions can read

`Yields` bounds what a production can read: if it reads something, the trees and the tokens after
them have a property. As for `Reads`, there is one law for each way to build a production, and one
for each production of single tokens.

## Main results

* `Yields.isSuffix`: what a production leaves is an end of what it was given.
* `Yields.repeated_stops`: where repetitions end, the test does not hold.
* `read_mono`: a larger bound changes nothing that was read.
-/
namespace DaoGen.Code

open Code.Language

/-- Both parts of what succeeds have succeeded. -/
theorem Match.andThen_eq_success {L : Type} {first : Match L} {next : Parsed L → Match L}
    {parsed : Parsed L} : first.andThen next = .success parsed ↔
      ∃ a b, first = .success a ∧ next a = .success b ∧ a.followedBy b = parsed := by
  cases first with
  | success a => cases h : next a <;> simp [Match.andThen, h]
  | failure fault => simp [Match.andThen]
  | exhausted => simp [Match.andThen]

section Yields

variable (rules : Rule → List Token → Match Part)

/-- If a production reads something, the trees and the tokens after them have a property. -/
def Yields (p : P) (ts : List Token) (post : Trees → List Token → Prop) : Prop :=
  ∀ parsed, p.run rules ts = .success parsed → post parsed.trees parsed.rest

variable {rules} {p q : P} {ts : List Token} {post post' : Trees → List Token → Prop} {look : Look}

theorem Yields.mono (h : Yields rules p ts post)
    (hpost : ∀ trees rest, post trees rest → post' trees rest) : Yields rules p ts post' :=
  fun parsed hparsed => hpost _ _ (h parsed hparsed)

theorem Yields.any : Yields rules p ts fun _ _ => True := fun _ _ => trivial

theorem Yields.empty (h : post [] ts) : Yields rules .empty ts post := by
  rintro parsed hparsed
  cases hparsed
  exact h

theorem Yields.take {scan : Scan}
    (h : ∀ taken rest, scan.split ts = .ok (taken, rest) → post (taken.map .leaf) rest) :
    Yields rules (.take scan) ts post := by
  intro parsed hparsed
  rw [Production.run] at hparsed
  split at hparsed
  · next taken rest hscan =>
    cases hparsed
    exact h taken rest hscan
  · cases hparsed

theorem Yields.call {r : Rule}
    (h : ∀ parsed, rules r ts = .success parsed → post parsed.trees parsed.rest) :
    Yields rules (call r) ts post := h

theorem Yields.bind {next : Trees → P}
    (h : Yields rules p ts fun trees mid =>
      Yields rules (next trees) mid fun later rest => post (trees ++ later) rest) :
    Yields rules (.bind p next) ts post := by
  intro parsed hparsed
  rw [Production.run] at hparsed
  obtain ⟨first, more, hfirst, hmore, rfl⟩ := Match.andThen_eq_success.mp hparsed
  exact h first hfirst more hmore

theorem Yields.append
    (h : Yields rules p ts fun trees mid =>
      Yields rules q mid fun later rest => post (trees ++ later) rest) :
    Yields rules (p ++ q) ts post := .bind h

theorem run_shaped_eq_success {shape : List Token → List Token → Trees → Trees}
    {parsed : Parsed Part} : (Production.shaped p shape).run rules ts = .success parsed ↔
      ∃ inner, p.run rules ts = .success inner ∧
        { inner with trees := shape ts inner.rest inner.trees } = parsed := by
  rw [Production.run]
  cases p.run rules ts <;> simp

theorem Yields.shaped {shape : List Token → List Token → Trees → Trees}
    (h : Yields rules p ts fun trees rest => post (shape ts rest trees) rest) :
    Yields rules (.shaped p shape) ts post := by
  intro parsed hparsed
  obtain ⟨inner, hinner, rfl⟩ := run_shaped_eq_success.mp hparsed
  exact h inner hinner

theorem Yields.labelled {label : Part}
    (h : Yields rules p ts fun trees rest => post [.node label trees] rest) :
    Yields rules (.labelled label p) ts post := .shaped h

theorem Yields.edited {edit : Trees → Trees}
    (h : Yields rules p ts fun trees rest => post (edit trees) rest) :
    Yields rules (.edited p edit) ts post := .shaped h

theorem Yields.either (hyes : look ts = true → Yields rules p ts post)
    (hno : look ts = false → Yields rules q ts post) :
    Yields rules (.either look p q) ts post := by
  intro parsed hparsed
  rw [Production.either, Production.run] at hparsed
  cases hlook : look ts with
  | true =>
    rw [hlook, if_pos rfl] at hparsed
    exact hyes hlook parsed hparsed
  | false =>
    rw [hlook, if_neg Bool.false_ne_true] at hparsed
    exact hno hlook parsed hparsed

theorem Yields.given (hyes : look ts = true → Yields rules p ts post)
    (hno : look ts = false → post [] ts) : Yields rules (.given look p) ts post :=
  .either hyes fun h => .empty (hno h)

theorem Yields.select_cons {alternatives : List (Look × P)}
    (hyes : look ts = true → Yields rules p ts post)
    (hno : look ts = false → Yields rules (select alternatives q) ts post) :
    Yields rules (select ((look, p) :: alternatives) q) ts post := .either hyes hno

theorem Yields.select_nil (h : Yields rules q ts post) : Yields rules (select [] q) ts post := h

theorem run_enclosed_eq_success {d : Delimiter} {parsed : Parsed Part} :
    (Production.enclosed d p).run rules ts = .success parsed ↔ ∃ content rest inner,
      ts = .group d content :: rest ∧ p.run rules content = .success inner ∧
        { trees := [.group d inner.trees], rest := rest, leftover := inner.leftover <|>
          if inner.rest.isEmpty then none else some d } = parsed := by
  rw [Production.run]
  cases ts with
  | nil => simp [openGroup]
  | cons t rest =>
    cases t with
    | ident | lifetime | punct | literal => simp [openGroup]
    | group e content =>
      by_cases hd : d = e
      · subst hd
        cases hinner : p.run rules content <;> simp [openGroup, hinner]
      · have hother : e ≠ d := fun h => hd h.symm
        simp [openGroup, hd, hother]

theorem Yields.enclosed {d : Delimiter}
    (h : ∀ content rest, ts = .group d content :: rest →
      Yields rules p content fun trees _ => post [.group d trees] rest) :
    Yields rules (.enclosed d p) ts post := by
  intro parsed hparsed
  obtain ⟨content, rest, inner, hts, hinner, rfl⟩ := run_enclosed_eq_success.mp hparsed
  exact h content rest hts inner hinner

/-- Where the test does not hold, nothing is repeated. -/
theorem Yields.repeated_neg (hlook : look ts = false) (h : post [] ts) :
    Yields rules (.repeated look p) ts post := by
  intro parsed hparsed
  rw [Production.run] at hparsed
  cases hlength : ts.length <;>
    · rw [hlength] at hparsed
      simp only [repeatMatch, hlook, Bool.false_eq_true, if_false] at hparsed
      cases hparsed
      exact h

/-- What the first repetition gives stands at the front. -/
theorem Yields.repeated_pos (hnil : look [] = false) (hlook : look ts = true)
    (h : Yields rules p ts fun trees _ => ∀ later rest, post (trees ++ later) rest) :
    Yields rules (.repeated look p) ts post := by
  intro parsed hparsed
  match ts with
  | [] =>
    rw [hnil] at hlook
    cases hlook
  | t :: rest =>
    rw [Production.run, List.length_cons, repeatMatch, if_pos hlook] at hparsed
    obtain ⟨first, more, hfirst, -, rfl⟩ := Match.andThen_eq_success.mp hparsed
    exact h first hfirst more.trees more.rest

/-- What holds of the trees of every repetition holds of all of them. A property of the tokens may
be used that every repetition keeps. -/
theorem Yields.repeatedWithin {P : ParseTree Part → Prop} {I : List Token → Prop} (hts : I ts)
    (h : ∀ ts, I ts → look ts = true →
      Yields rules p ts fun trees rest => (∀ tree ∈ trees, P tree) ∧ I rest) :
    Yields rules (.repeated look p) ts fun trees rest => (∀ tree ∈ trees, P tree) ∧ I rest := by
  have hfuel : ∀ fuel ts parsed, I ts → repeatMatch look (p.run rules) fuel ts = .success parsed →
      (∀ tree ∈ parsed.trees, P tree) ∧ I parsed.rest := by
    intro fuel
    induction fuel with
    | zero =>
      intro ts parsed hts hparsed
      cases hparsed
      exact ⟨List.forall_mem_nil _, hts⟩
    | succ fuel ih =>
      intro ts parsed hts hparsed
      rw [repeatMatch] at hparsed
      split at hparsed
      · next hlook =>
        obtain ⟨first, more, hfirst, hmore, rfl⟩ := Match.andThen_eq_success.mp hparsed
        obtain ⟨hall, hrest⟩ := h ts hts hlook first hfirst
        have hlater : (∀ tree ∈ more.trees, P tree) ∧ I more.rest := by
          split at hmore
          · exact ih _ _ hrest hmore
          · cases hmore
            exact ⟨List.forall_mem_nil _, hrest⟩
        exact ⟨List.forall_mem_append.mpr ⟨hall, hlater.1⟩, hlater.2⟩
      · cases hparsed
        exact ⟨List.forall_mem_nil _, hts⟩
  intro parsed hparsed
  rw [Production.run] at hparsed
  exact hfuel _ _ _ hts hparsed

theorem Yields.repeated {P : ParseTree Part → Prop}
    (h : ∀ ts, look ts = true → Yields rules p ts fun trees _ => ∀ tree ∈ trees, P tree) :
    Yields rules (.repeated look p) ts fun trees _ => ∀ tree ∈ trees, P tree := by
  have hall : Yields rules (.repeated look p) ts fun trees _ => (∀ tree ∈ trees, P tree) ∧ True :=
    .repeatedWithin (I := fun _ => True) trivial fun ts _ hlook =>
      (h ts hlook).mono fun _ _ htrees => ⟨htrees, trivial⟩
  exact hall.mono fun _ _ htrees => htrees.1

/-- Where repetitions that consume tokens end, the test does not hold. -/
theorem Yields.repeated_stops (hnil : look [] = false)
    (hless : ∀ ts, look ts = true → Yields rules p ts fun _ rest => rest.length < ts.length) :
    Yields rules (.repeated look p) ts fun _ rest => look rest = false := by
  have hfuel : ∀ fuel ts parsed, ts.length ≤ fuel →
      repeatMatch look (p.run rules) fuel ts = .success parsed → look parsed.rest = false := by
    intro fuel
    induction fuel with
    | zero =>
      intro ts parsed hfuel hparsed
      obtain rfl : ts = [] := by simpa using hfuel
      cases hparsed
      exact hnil
    | succ fuel ih =>
      intro ts parsed hfuel hparsed
      rw [repeatMatch] at hparsed
      split at hparsed
      · next hlook =>
        obtain ⟨first, more, hfirst, hmore, rfl⟩ := Match.andThen_eq_success.mp hparsed
        have hshorter := hless ts hlook first hfirst
        rw [if_pos hshorter] at hmore
        exact ih first.rest more (by omega) hmore
      · next hlook =>
        cases hparsed
        simpa using hlook
  intro parsed hparsed
  rw [Production.run] at hparsed
  exact hfuel _ ts parsed (Nat.le_refl _) hparsed

/-- The trees of repetitions, one repetition after the other. -/
theorem Yields.repeated_flatMap {α : Type} {f : α → Trees} {Q : α → Prop}
    (h : ∀ ts, look ts = true → Yields rules p ts fun trees _ => ∃ a, Q a ∧ trees = f a) :
    Yields rules (.repeated look p) ts fun trees _ =>
      ∃ as : List α, (∀ a ∈ as, Q a) ∧ trees = as.flatMap f := by
  have hfuel : ∀ fuel ts parsed, repeatMatch look (p.run rules) fuel ts = .success parsed →
      ∃ as : List α, (∀ a ∈ as, Q a) ∧ parsed.trees = as.flatMap f := by
    have hnone : ∃ as : List α, (∀ a ∈ as, Q a) ∧ [] = as.flatMap f := ⟨[], nofun, rfl⟩
    intro fuel
    induction fuel with
    | zero =>
      intro ts parsed hparsed
      cases hparsed
      exact hnone
    | succ fuel ih =>
      intro ts parsed hparsed
      rw [repeatMatch] at hparsed
      split at hparsed
      · next hlook =>
        obtain ⟨first, more, hfirst, hmore, rfl⟩ := Match.andThen_eq_success.mp hparsed
        obtain ⟨a, ha, hfirst⟩ := h ts hlook first hfirst
        obtain ⟨as, has, hmore⟩ : ∃ as : List α, (∀ a ∈ as, Q a) ∧
            more.trees = as.flatMap f := by
          split at hmore
          · exact ih _ _ hmore
          · cases hmore
            exact hnone
        exact ⟨a :: as, List.forall_mem_cons.mpr ⟨ha, has⟩, by
          rw [Parsed.followedBy, hfirst, hmore, List.flatMap_cons]⟩
      · cases hparsed
        exact hnone
  intro parsed hparsed
  rw [Production.run] at hparsed
  exact hfuel _ ts parsed hparsed

theorem Yields.missing {things : List String} : Yields rules (missing things) ts post :=
  .take nofun

theorem Yields.choose {next : List Token → P} (h : Yields rules (next ts) ts post) :
    Yields rules (.choose next) ts post := h

theorem Yields.noneOf {choices : List Choice} : Yields rules (noneOf choices) ts post :=
  .choose .missing

/-! ## Single tokens -/

theorem Yields.op {text : String}
    (h : ∀ taken rest, takeOperator text ts = some (taken, rest) → post (taken.map .leaf) rest) :
    Yields rules (Language.op text) ts post := by
  refine .take fun taken rest hscan => h taken rest ?_
  dsimp only at hscan
  split at hscan
  · next split hsplit =>
    cases hscan
    exact hsplit
  · cases hscan

theorem takeCharacters_single_eq_some {c : Char} {taken rest : List Token}
    (h : takeCharacters [c] ts = some (taken, rest)) : taken = [.punct c] := by
  match ts with
  | [] | .ident _ _ :: _ | .lifetime _ :: _ | .literal _ :: _ | .group _ _ :: _ => simp at h
  | .punct ch joint :: later =>
    obtain ⟨_, rfl, _⟩ : c = ch ∧ [Token.punct c] = taken ∧ later = rest := by simpa using h
    rfl

theorem Yields.mark {c : Char} (h : ∀ rest, post [.leaf (.punct c)] rest) :
    Yields rules (Language.op (String.singleton c)) ts post := by
  refine .op fun taken rest htaken => ?_
  have htaken : takeCharacters [c] ts = some (taken, rest) := by simpa [takeOperator] using htaken
  rw [takeCharacters_single_eq_some htaken]
  exact h rest

theorem Yields.colons (h : ∀ rest, post [.leaf (.punct ':' true), .leaf (.punct ':')] rest) :
    Yields rules (Language.op "::") ts post := by
  refine .op fun taken rest htaken => ?_
  have htaken : takeCharacters [':', ':'] ts = some (taken, rest) := htaken
  match ts with
  | [] | .ident _ _ :: _ | .lifetime _ :: _ | .literal _ :: _ | .group _ _ :: _ =>
    simp at htaken
  | .punct ch joint :: later =>
    rw [takeCharacters_cons_cons] at htaken
    split at htaken
    · obtain ⟨⟨second, _⟩, hsecond, heq⟩ := Option.map_eq_some_iff.mp htaken
      rw [takeCharacters_single_eq_some hsecond] at heq
      cases heq
      exact h rest
    · cases htaken

theorem Yields.word {text : String} (h : ∀ line rest, ts = .ident text line :: rest →
    post [.leaf (.ident text line)] rest) : Yields rules (word text) ts post := by
  refine .take fun taken rest hscan => ?_
  match ts with
  | [] | .punct _ _ :: _ | .lifetime _ :: _ | .literal _ :: _ | .group _ _ :: _ => cases hscan
  | .ident w line :: later =>
    dsimp only at hscan
    split at hscan
    · next hw =>
      cases hscan
      rw [hw]
      exact h line _ (by rw [hw])
    · cases hscan

theorem Yields.name (h : ∀ text line rest, ts = .ident text line :: rest → isName text = true →
    post [.leaf (.ident text line)] rest) : Yields rules name ts post := by
  refine .take fun taken rest hscan => ?_
  match ts with
  | [] | .punct _ _ :: _ | .lifetime _ :: _ | .literal _ :: _ | .group _ _ :: _ => cases hscan
  | .ident text line :: later =>
    dsimp only at hscan
    split at hscan
    · next hname =>
      cases hscan
      exact h text line _ rfl hname
    · cases hscan

theorem Yields.anyName (h : ∀ text line rest, ts = .ident text line :: rest →
    post [.leaf (.ident text line)] rest) : Yields rules anyName ts post := by
  refine .take fun taken rest hscan => ?_
  match ts with
  | [] | .punct _ _ :: _ | .lifetime _ :: _ | .literal _ :: _ | .group _ _ :: _ => cases hscan
  | .ident text line :: later =>
    cases hscan
    exact h text line _ rfl

theorem Yields.lifetime (h : ∀ name rest, ts = .lifetime name :: rest →
    post [.leaf (.lifetime name)] rest) : Yields rules lifetime ts post := by
  refine .take fun taken rest hscan => ?_
  match ts with
  | [] | .punct _ _ :: _ | .ident _ _ :: _ | .literal _ :: _ | .group _ _ :: _ => cases hscan
  | .lifetime name :: later =>
    cases hscan
    exact h name _ rfl

/-! ## What productions leave -/

/-- If rules leave an end of the tokens, so does every production. -/
theorem Yields.isSuffix
    (hrules : ∀ r ts parsed, rules r ts = .success parsed → parsed.rest <:+ ts) (p : P)
    (ts : List Token) : Yields rules p ts fun _ rest => rest <:+ ts := by
  induction p generalizing ts with
  | empty => exact .empty List.suffix_rfl
  | take scan => exact .take fun taken rest hsplit => scan.isSuffix hsplit
  | enclosed d inside ih =>
    refine .enclosed fun content rest heq => (ih content).mono fun _ _ _ => ?_
    exact heq ▸ List.suffix_cons _ rest
  | call r => exact .call fun parsed hparsed => hrules r ts parsed hparsed
  | bind first next ihfirst ihnext =>
    refine .bind ((ihfirst ts).mono fun trees mid hmid => ?_)
    exact (ihnext trees mid).mono fun _ rest hrest => hrest.trans hmid
  | choose look ih => exact .choose (ih ts ts)
  | repeated look item ih =>
    have hall : Yields rules (.repeated look item) ts
        fun trees rest => (∀ tree ∈ trees, True) ∧ rest <:+ ts :=
      .repeatedWithin (I := (· <:+ ts)) List.suffix_rfl fun mid hmid _ =>
        (ih mid).mono fun _ rest hrest => ⟨fun _ _ => trivial, hrest.trans hmid⟩
    exact hall.mono fun _ _ h => h.2
  | shaped inside shape ih => exact .shaped (ih ts)

theorem length_lt_of_takeCharacters {cs : List Char} {taken rest : List Token}
    (h : takeCharacters cs ts = some (taken, rest)) : rest.length < ts.length := by
  fun_induction takeCharacters cs ts generalizing taken with
  | case1 | case3 | case5 | case6 => cases h
  | case2 =>
    cases h
    exact Nat.lt_succ_self _
  | case4 ch d cs later ih =>
    obtain ⟨⟨more, _⟩, hmore, heq⟩ := Option.map_eq_some_iff.mp h
    cases heq
    exact Nat.lt_succ_of_lt (ih hmore)

/-- What begins with an operator consumes tokens. -/
theorem Yields.op_append
    (hrules : ∀ r ts parsed, rules r ts = .success parsed → parsed.rest <:+ ts) (text : String) :
    Yields rules (Language.op text ++ q) ts fun _ rest => rest.length < ts.length := by
  refine .append (.op fun taken mid htake => (Yields.isSuffix hrules q mid).mono ?_)
  exact fun _ rest hrest => hrest.length_le.trans_lt (length_lt_of_takeCharacters htake)

end Yields

/-- A rule leaves an end of the tokens. -/
theorem isSuffix_of_read (g : Grammar Rule Part) {depth : Nat} {r : Rule} {ts : List Token}
    {parsed : Parsed Part} (h : g.read depth r ts = .success parsed) : parsed.rest <:+ ts := by
  induction depth generalizing r ts parsed with
  | zero => cases h
  | succ depth ih => exact Yields.isSuffix (fun _ _ _ => ih) (g r) ts parsed h

/-! ## Bounds on the depth -/

/-- What a production reads is also read with rules that read more. -/
theorem Reads.of_rules {rules rules' : Rule → List Token → Match Part}
    (hrules : ∀ r ts parsed, rules r ts = .success parsed → rules' r ts = .success parsed)
    (p : P) {ts : List Token} {parsed : Parsed Part} (h : p.run rules ts = .success parsed) :
    p.run rules' ts = .success parsed := by
  induction p generalizing ts parsed with
  | empty | take scan => exact h
  | enclosed d inside ih =>
    obtain ⟨content, rest, inner, hts, hinner, hparsed⟩ := run_enclosed_eq_success.mp h
    exact run_enclosed_eq_success.mpr ⟨content, rest, inner, hts, ih hinner, hparsed⟩
  | call r => exact hrules r ts parsed h
  | bind first next ihfirst ihnext =>
    rw [Production.run] at h ⊢
    obtain ⟨a, b, ha, hb, rfl⟩ := Match.andThen_eq_success.mp h
    exact Match.andThen_eq_success.mpr ⟨a, b, ihfirst ha, ihnext a.trees hb, rfl⟩
  | choose look ih => exact ih ts h
  | repeated look item ih =>
    rw [Production.run] at h ⊢
    generalize ts.length = fuel at h ⊢
    induction fuel generalizing ts parsed with
    | zero => exact h
    | succ fuel ihfuel =>
      rw [repeatMatch] at h ⊢
      split at h
      · next hlook =>
        obtain ⟨a, b, ha, hb, rfl⟩ := Match.andThen_eq_success.mp h
        rw [if_pos hlook]
        refine Match.andThen_eq_success.mpr ⟨a, b, ih ha, ?_, rfl⟩
        split at hb
        · next hless =>
          rw [if_pos hless]
          exact ihfuel hb
        · next hless =>
          rw [if_neg hless]
          exact hb
      · next hlook =>
        rw [if_neg hlook]
        exact h
  | shaped inside shape ih =>
    obtain ⟨inner, hinner, hparsed⟩ := run_shaped_eq_success.mp h
    exact run_shaped_eq_success.mpr ⟨inner, ih hinner, hparsed⟩

/-- A larger bound changes nothing that was read. -/
theorem read_mono (g : Grammar Rule Part) {depth depth' : Nat} (hdepth : depth ≤ depth') {r : Rule}
    {ts : List Token} {parsed : Parsed Part} (h : g.read depth r ts = .success parsed) :
    g.read depth' r ts = .success parsed := by
  induction depth generalizing depth' r ts parsed with
  | zero => cases h
  | succ depth ih =>
    obtain ⟨more, rfl⟩ := Nat.exists_eq_add_of_le' hdepth
    exact Reads.of_rules (fun _ _ _ => ih (Nat.le_add_left depth more)) (g r) h

theorem Reads.mono {g : Grammar Rule Part} {depth depth' : Nat} {p : P} {ts rest : List Token}
    {trees : Trees} (h : Reads (g.read depth) p ts trees rest) (hdepth : depth ≤ depth') :
    Reads (g.read depth') p ts trees rest :=
  Reads.of_rules (fun _ _ _ => read_mono g hdepth) p h

end DaoGen.Code
