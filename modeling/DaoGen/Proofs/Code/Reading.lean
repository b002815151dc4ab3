import DaoGen.Code.Language
import DaoGen.Proofs.Code.Spelling

/-!
# What productions read

`Reads` says that a production reads some trees from the front of the tokens and leaves nothing
over in a group. There is one law for each way to build a production, so that the reading of a
production follows its own structure, and one for each production of single tokens.

## Main result

* `ReadsMany.reads`: a repeated production reads what the repetitions read.
-/
namespace DaoGen.Code

open Code.Language

/-! ## Looking ahead -/

section Look

variable {cs : List Char} {rest : List Token}

@[simp] theorem takeCharacters_nil_right : takeCharacters cs [] = none := by
  match cs with
  | [] | [_] | _ :: _ :: _ => rfl

@[simp] theorem takeCharacters_ident {text : String} {line : Nat} :
    takeCharacters cs (.ident text line :: rest) = none := by
  match cs with
  | [] | [_] | _ :: _ :: _ => rfl

@[simp] theorem takeCharacters_lifetime {name : String} :
    takeCharacters cs (.lifetime name :: rest) = none := by
  match cs with
  | [] | [_] | _ :: _ :: _ => rfl

@[simp] theorem takeCharacters_literal {text : String} :
    takeCharacters cs (.literal text :: rest) = none := by
  match cs with
  | [] | [_] | _ :: _ :: _ => rfl

@[simp] theorem takeCharacters_group {d : Delimiter} {content : List Token} :
    takeCharacters cs (.group d content :: rest) = none := by
  match cs with
  | [] | [_] | _ :: _ :: _ => rfl

@[simp] theorem takeCharacters_single {c ch : Char} {joint : Bool} :
    takeCharacters [c] (.punct ch joint :: rest) =
      if c = ch then some ([.punct c], rest) else none := by
  cases joint <;> rfl

@[simp] theorem takeCharacters_cons_cons {c d ch : Char} {joint : Bool} :
    takeCharacters (c :: d :: cs) (.punct ch joint :: rest) =
      if joint = true ∧ c = ch then
        (takeCharacters (d :: cs) rest).map fun (taken, rest) => (.punct c true :: taken, rest)
      else none := by
  cases joint with
  | false => rfl
  | true => simp [takeCharacters]

/-- Where the first character of an operator is not ahead, neither is the operator. -/
theorem takeCharacters_cons_cons_eq_none {c d : Char} {ts : List Token}
    (h : takeCharacters [c] ts = none) : takeCharacters (c :: d :: cs) ts = none := by
  match ts with
  | [] | .ident _ _ :: _ | .lifetime _ :: _ | .literal _ :: _ | .group _ _ :: _ => simp
  | .punct ch joint :: rest =>
    have hne : ¬ c = ch := by simpa using h
    simp [hne]

end Look

/-! ## Productions -/

section Reads

variable (rules : Rule → List Token → Match Part)

/-- A production reads trees from the front of the tokens. -/
def Reads (p : P) (ts : List Token) (trees : Trees) (rest : List Token) : Prop :=
  p.run rules ts = .success { trees, rest }

variable {rules} {p q : P} {ts mid rest : List Token} {trees later : Trees} {look : Look}

theorem Reads.empty : Reads rules .empty ts [] ts := rfl

theorem Reads.take {scan : Scan} (taken : List Token) (h : scan.split ts = .ok (taken, rest)) :
    Reads rules (.take scan) ts (taken.map .leaf) rest := by
  rw [Reads, Production.run, h]

theorem Reads.call {r : Rule} (h : rules r ts = .success { trees, rest }) :
    Reads rules (call r) ts trees rest := h

theorem Reads.bind {next : Trees → P} (h : Reads rules p ts trees mid)
    (hnext : Reads rules (next trees) mid later rest) :
    Reads rules (.bind p next) ts (trees ++ later) rest := by
  rw [Reads] at h hnext
  rw [Reads, Production.run, h]
  simp [Match.andThen, hnext, Parsed.followedBy]

theorem Reads.append (h : Reads rules p ts trees mid) (hq : Reads rules q mid later rest) :
    Reads rules (p ++ q) ts (trees ++ later) rest := h.bind hq

theorem Reads.shaped {shape : List Token → List Token → Trees → Trees}
    (h : Reads rules p ts trees rest) :
    Reads rules (.shaped p shape) ts (shape ts rest trees) rest := by
  rw [Reads] at h
  rw [Reads, Production.run, h]

theorem Reads.labelled {label : Part} (h : Reads rules p ts trees rest) :
    Reads rules (.labelled label p) ts [.node label trees] rest := h.shaped

theorem Reads.edited {edit : Trees → Trees} (h : Reads rules p ts trees rest) :
    Reads rules (.edited p edit) ts (edit trees) rest := h.shaped

theorem Reads.asWritten {applies : Trees → Bool} (h : Reads rules p ts trees rest)
    (happlies : applies trees = false) : Reads rules (.asWritten p applies) ts trees rest := by
  have hall : Reads rules (.asWritten p applies) ts
      (if applies trees then Production.written ts rest else trees) rest := h.shaped
  simpa [happlies] using hall

theorem Reads.choose {next : List Token → P} (h : Reads rules (next ts) ts trees rest) :
    Reads rules (.choose next) ts trees rest := h

theorem Reads.either_pos (hlook : look ts = true) (h : Reads rules p ts trees rest) :
    Reads rules (.either look p q) ts trees rest := by
  refine Reads.choose ?_
  rwa [if_pos hlook]

theorem Reads.either_neg (hlook : look ts = false) (h : Reads rules q ts trees rest) :
    Reads rules (.either look p q) ts trees rest := by
  refine Reads.choose ?_
  rwa [if_neg (by simp [hlook])]

theorem Reads.given_pos (hlook : look ts = true) (h : Reads rules p ts trees rest) :
    Reads rules (.given look p) ts trees rest := .either_pos hlook h

theorem Reads.given_neg (hlook : look ts = false) : Reads rules (.given look p) ts [] ts :=
  .either_neg hlook .empty

theorem Reads.select_pos {alternatives : List (Look × P)} (hlook : look ts = true)
    (h : Reads rules p ts trees rest) :
    Reads rules (select ((look, p) :: alternatives) q) ts trees rest := .either_pos hlook h

theorem Reads.select_neg {alternatives : List (Look × P)} (hlook : look ts = false)
    (h : Reads rules (select alternatives q) ts trees rest) :
    Reads rules (select ((look, p) :: alternatives) q) ts trees rest := .either_neg hlook h

theorem Reads.select_nil (h : Reads rules q ts trees rest) :
    Reads rules (select [] q) ts trees rest := h

theorem Reads.enclosed {d : Delimiter} {content : List Token}
    (h : Reads rules p content trees []) :
    Reads rules (.enclosed d p) (.group d content :: rest) [.group d trees] rest := by
  rw [Reads] at h
  simp [Reads, Production.run, openGroup, h]

/-! ## Repetitions -/

variable (rules look p)

/-- The repetitions of a production read trees, each as long as the test holds. -/
inductive ReadsMany : List Token → Trees → List Token → Prop where
  | done {ts : List Token} (hlook : look ts = false) : ReadsMany ts [] ts
  | more {ts mid rest : List Token} {trees later : Trees} (hlook : look ts = true)
    (h : Reads rules p ts trees mid) (hless : mid.length < ts.length)
    (hlater : ReadsMany mid later rest) : ReadsMany ts (trees ++ later) rest

variable {rules look p}

/-- Every repetition consumes tokens, so there are never more of them than tokens. -/
theorem ReadsMany.reads (h : ReadsMany rules p look ts trees rest) :
    Reads rules (.repeated look p) ts trees rest := by
  have hfuel : ∀ fuel, ts.length ≤ fuel →
      repeatMatch look (p.run rules) fuel ts = .success { trees, rest } := by
    induction h with
    | done hlook =>
      intro fuel _
      cases fuel <;> simp [repeatMatch, hlook]
    | more hlook h hless _ ih =>
      intro fuel hfuel
      obtain ⟨fuel, rfl⟩ : ∃ more, fuel = more + 1 :=
        Nat.exists_eq_succ_of_ne_zero (by rintro rfl; omega)
      rw [Reads] at h
      simp [repeatMatch, hlook, h, Match.andThen, hless, ih fuel (by omega), Parsed.followedBy]
  rw [Reads, Production.run]
  exact hfuel _ (Nat.le_refl _)

/-! ## Single tokens -/

theorem Reads.op {text : String} (taken : List Token)
    (h : takeOperator text ts = some (taken, rest)) :
    Reads rules (Language.op text) ts (taken.map .leaf) rest :=
  .take taken (by simp [h])

theorem Reads.mark {c : Char} {joint : Bool} :
    Reads rules (Language.op (String.singleton c)) (.punct c joint :: rest) [.leaf (.punct c)]
      rest :=
  .op [.punct c] (by simp [takeOperator])

theorem Reads.colons {joint : Bool} :
    Reads rules (Language.op "::") (.punct ':' true :: .punct ':' joint :: rest)
      [.leaf (.punct ':' true), .leaf (.punct ':')] rest :=
  .op [.punct ':' true, .punct ':'] (by simp [takeOperator])

theorem Reads.word {text : String} {line : Nat} :
    Reads rules (word text) (.ident text line :: rest) [.leaf (.ident text line)] rest :=
  .take [.ident text line] (by simp)

theorem Reads.name {text : String} {line : Nat} (h : isName text = true) :
    Reads rules name (.ident text line :: rest) [.leaf (.ident text line)] rest :=
  .take [.ident text line] (by simp [h])

theorem Reads.anyName {text : String} {line : Nat} :
    Reads rules anyName (.ident text line :: rest) [.leaf (.ident text line)] rest :=
  .take [.ident text line] rfl

theorem Reads.lifetime {name : String} :
    Reads rules lifetime (.lifetime name :: rest) [.leaf (.lifetime name)] rest :=
  .take [.lifetime name] rfl

/-! ## Lists -/

/-- The colons between two names of a path. -/
def colonTrees : Trees := [.leaf (.punct ':' true), .leaf (.punct ':')]

/-- Colons, or nothing. -/
def optColons (present : Bool) : Trees := if present then colonTrees else []

/-- The comma between two items of a list. -/
def commaTree : ParseTree Part := .leaf (.punct ',')

/-! ## Round brackets -/

/-- A type, and with a comma after it any number of further ones. -/
def someTypes : P :=
  call (.type true) ++ .given (atOp ",") (Language.op "," ++ commaSeparated (call (.type true)))

/-- What round brackets that begin a type can hold. -/
def insideParens : P :=
  select
    [(atEnd, .empty), (atLifetime, .labelled .type lifetimeObject),
      (atOp "?", .labelled .bound (traitBound false))]
    someTypes

end Reads

end DaoGen.Code
