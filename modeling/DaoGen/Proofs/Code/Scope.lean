import DaoGen.Code.Expr
import DaoGen.Entity

/-!
# Scopes of names

A name in a function body refers to the innermost binding of the same identifier around it. The
identifiers `x` and `r#x` are the same, so that code can be read with the names of one origin
spelled raw and all others plain, which shows where each name comes from.

## Main definitions

* `Code.Expr.uses`: the uses of names in an expression, each with the names that are in scope.
* `Code.Use.Refers`, `Code.Use.IsApart`: what a raw name refers to, and which names it differs from.
* `Code.Expr.Each`: a property of every use of a raw name.
-/
namespace DaoGen

/-! ## Spellings -/

namespace Code

/-- Whether an identifier is spelled raw. -/
def isRaw (name : String) : Bool := (Text.stripPrefix? "r#" name).isSome

/-- The raw spelling of an identifier. -/
def rawName (name : String) : String := "r#" ++ columnName name

@[simp] theorem isRaw_rawName (name : String) : isRaw (rawName name) = true := by
  rw [isRaw, rawName, Text.stripPrefix?_eq_some_iff.mpr rfl, Option.isSome_some]

@[simp] theorem columnName_rawName (name : String) :
    columnName (rawName name) = columnName name := by
  rw [columnName, rawName, Text.stripPrefix?_eq_some_iff.mpr rfl, Option.getD_some]

theorem columnName_of_not_isRaw {name : String} (h : isRaw name = false) :
    columnName name = name := by
  rw [columnName, Option.isSome_eq_false_iff.mp h |> Option.isNone_iff_eq_none.mp,
    Option.getD_none]

/-! ## Uses -/

/-- A use of a name, with the names in scope, the innermost first. -/
structure Use where
  name : String
  scope : List String
  deriving DecidableEq, Repr

/-- The names that a statement binds for what follows it. -/
def Stmt.names : Stmt → List String
  | .bind pattern _ _ => pattern.names
  | .run _ | .each _ _ _ | .increase _ _ => []

mutual

/-- The uses of names in an expression. -/
def Expr.uses (scope : List String) : Expr → List Use
  | .var x => [⟨x, scope⟩]
  | .path _ | .number _ | .text _ => []
  | .borrow e | .deref e | .paren e | .field e _ | .await e | .cast e _ => e.uses scope
  | .method receiver _ _ args => receiver.uses scope ++ Expr.usesList scope args
  | .call _ args | .array args | .macroCall _ _ args => Expr.usesList scope args
  | .closure _ params body => body.uses (params ++ scope)
  | .block _ stmts result =>
    Stmt.usesList scope stmts ++
      match result with
      | some e => e.uses (stmts.foldl (fun scope s => s.names ++ scope) scope)
      | none => []

def Expr.usesList (scope : List String) : List Expr → List Use
  | [] => []
  | e :: rest => e.uses scope ++ Expr.usesList scope rest

/-- The uses of names in a statement. -/
def Stmt.uses (scope : List String) : Stmt → List Use
  | .bind _ _ value => value.uses scope
  | .run e => e.uses scope
  | .each x items body => items.uses scope ++ Stmt.usesList (x :: scope) body
  | .increase x amount => ⟨x, scope⟩ :: amount.uses scope

def Stmt.usesList (scope : List String) : List Stmt → List Use
  | [] => []
  | s :: rest => s.uses scope ++ Stmt.usesList (s.names ++ scope) rest

end

namespace Use

/-- The innermost binding of the identifier that is used. -/
def binding? (u : Use) : Option String := u.scope.find? fun x => columnName x == columnName u.name

/-- A name refers to a raw one. -/
def Refers (u : Use) : Prop := ∃ x, u.binding? = some x ∧ isRaw x = true

/-- No plain name in scope is the same identifier. -/
def IsApart (u : Use) : Prop :=
  ∀ x ∈ u.scope, isRaw x = false → columnName x ≠ columnName u.name

/-- A property of the bindings of the identifier that is used, which plain names do not have. -/
structure IsScoping (P : Use → Prop) : Prop where
  plain {name x : String} {scope : List String} (hx : isRaw x = false) :
    P ⟨name, x :: scope⟩ ↔ columnName name ≠ x ∧ P ⟨name, scope⟩
  raw {name x : String} {scope : List String} (hx : isRaw x = true) (h : P ⟨name, scope⟩) :
    P ⟨name, x :: scope⟩
  of_raw {name x : String} {scope : List String} (h : P ⟨name, x :: scope⟩) :
    columnName x = columnName name ∨ P ⟨name, scope⟩

variable {name x : String} {scope plain own : List String}

theorem refers_cons : Refers ⟨name, x :: scope⟩ ↔
    if columnName x = columnName name then isRaw x = true else Refers ⟨name, scope⟩ := by
  unfold Refers binding?
  by_cases h : columnName x = columnName name <;> simp [h]

theorem isApart_cons : IsApart ⟨name, x :: scope⟩ ↔
    (isRaw x = false → columnName x ≠ columnName name) ∧ IsApart ⟨name, scope⟩ := by
  simp [IsApart]

theorem isScoping_refers : IsScoping Refers where
  plain hx := by
    rw [refers_cons, columnName_of_not_isRaw hx, hx]
    split
    · next heq => simp [heq]
    · next hne => simp [Ne.symm hne]
  raw hx h := by
    rw [refers_cons]
    split
    · exact hx
    · exact h
  of_raw h := by
    rw [refers_cons] at h
    split at h
    · next heq => exact .inl heq
    · exact .inr h

theorem isScoping_isApart : IsScoping IsApart where
  plain hx := by
    rw [isApart_cons, columnName_of_not_isRaw hx, ne_comm]
    simp [hx]
  raw hx h := isApart_cons.mpr ⟨by simp [hx], h⟩
  of_raw h := .inr (isApart_cons.mp h).2

/-- A name has to be none of the plain names in scope. -/
theorem IsScoping.append {P : Use → Prop} (hP : IsScoping P)
    (hplain : ∀ x ∈ plain, isRaw x = false) :
    P ⟨name, plain ++ scope⟩ ↔ columnName name ∉ plain ∧ P ⟨name, scope⟩ := by
  induction plain with
  | nil => simp
  | cons x rest ih =>
    rw [List.cons_append, hP.plain (hplain x List.mem_cons_self),
      ih fun y hy => hplain y (List.mem_cons_of_mem x hy), List.mem_cons, not_or, and_assoc]

theorem refers_of_mem (hown : ∀ x ∈ own, isRaw x = true)
    (h : ∃ x ∈ own, columnName x = columnName name) : Refers ⟨name, own ++ scope⟩ := by
  induction own with
  | nil =>
    obtain ⟨x, hx, _⟩ := h
    cases hx
  | cons x rest ih =>
    rw [List.cons_append, refers_cons]
    split
    · exact hown x List.mem_cons_self
    · next hne =>
      refine ih (fun y hy => hown y (List.mem_cons_of_mem x hy)) ?_
      obtain ⟨y, hy, heq⟩ := h
      rcases List.mem_cons.mp hy with rfl | hy
      · exact absurd heq hne
      · exact ⟨y, hy, heq⟩

theorem isApart_append (hown : ∀ x ∈ own, isRaw x = true) :
    IsApart ⟨name, own ++ scope⟩ ↔ IsApart ⟨name, scope⟩ := by
  refine ⟨fun h x hx => h x (List.mem_append_right own hx), fun h x hx hplain => ?_⟩
  rcases List.mem_append.mp hx with hx | hx
  · rw [hown x hx] at hplain
    cases hplain
  · exact h x hx hplain

end Use

/-! ## Properties of uses -/

/-- A property of every use of a raw name in an expression. -/
def Expr.Each (P : Use → Prop) (scope : List String) (e : Expr) : Prop :=
  ∀ u ∈ e.uses scope, isRaw u.name = true → P u

/-- A property of every use of a raw name in statements in a row. -/
def Stmt.EachIn (P : Use → Prop) (scope : List String) (stmts : List Stmt) : Prop :=
  ∀ u ∈ Stmt.usesList scope stmts, isRaw u.name = true → P u

section Each

variable {P : Use → Prop} {scope : List String}

theorem Expr.forall_mem_usesList {args : List Expr} :
    (∀ u ∈ Expr.usesList scope args, isRaw u.name = true → P u) ↔
      ∀ e ∈ args, e.Each P scope := by
  induction args with
  | nil => simp [usesList]
  | cons e rest ih =>
    rw [usesList, List.forall_mem_append, ih, List.forall_mem_cons]
    exact .rfl

namespace Expr

@[simp] theorem each_var {x : String} :
    (Expr.var x).Each P scope ↔ (isRaw x = true → P ⟨x, scope⟩) := by
  simp [Each, uses]

@[simp] theorem each_path {tokens : List Token} : (Expr.path tokens).Each P scope := nofun

@[simp] theorem each_number {n : Nat} : (Expr.number n).Each P scope := nofun

@[simp] theorem each_text {s : String} : (Expr.text s).Each P scope := nofun

@[simp] theorem each_borrow {e : Expr} : (Expr.borrow e).Each P scope ↔ e.Each P scope := .rfl

@[simp] theorem each_deref {e : Expr} : (Expr.deref e).Each P scope ↔ e.Each P scope := .rfl

@[simp] theorem each_paren {e : Expr} : (Expr.paren e).Each P scope ↔ e.Each P scope := .rfl

@[simp] theorem each_field {e : Expr} {name : String} :
    (Expr.field e name).Each P scope ↔ e.Each P scope := .rfl

@[simp] theorem each_await {e : Expr} : (Expr.await e).Each P scope ↔ e.Each P scope := .rfl

@[simp] theorem each_cast {e : Expr} {ty : List Token} :
    (Expr.cast e ty).Each P scope ↔ e.Each P scope := .rfl

@[simp] theorem each_call {function : List Token} {args : List Expr} :
    (Expr.call function args).Each P scope ↔ ∀ e ∈ args, e.Each P scope := forall_mem_usesList

@[simp] theorem each_array {items : List Expr} :
    (Expr.array items).Each P scope ↔ ∀ e ∈ items, e.Each P scope := forall_mem_usesList

@[simp] theorem each_macroCall {path : List Token} {delimiter : Delimiter} {args : List Expr} :
    (Expr.macroCall path delimiter args).Each P scope ↔ ∀ e ∈ args, e.Each P scope :=
  forall_mem_usesList

@[simp] theorem each_method {receiver : Expr} {name : String} {types : List Token}
    {args : List Expr} : (Expr.method receiver name types args).Each P scope ↔
      receiver.Each P scope ∧ ∀ e ∈ args, e.Each P scope := by
  rw [← forall_mem_usesList, Each, uses, List.forall_mem_append]
  exact .rfl

@[simp] theorem each_invoke {receiver : Expr} {name : String} {args : List Expr} :
    (receiver.invoke name args).Each P scope ↔
      receiver.Each P scope ∧ ∀ e ∈ args, e.Each P scope := each_method

@[simp] theorem each_closure {moves : Bool} {params : List String} {body : Expr} :
    (Expr.closure moves params body).Each P scope ↔ body.Each P (params ++ scope) := .rfl

/-- What is in scope after some statements. -/
theorem each_block {isAsync : Bool} {stmts : List Stmt} {result : Option Expr} :
    (Expr.block isAsync stmts result).Each P scope ↔ Stmt.EachIn P scope stmts ∧
      ∀ e ∈ result, e.Each P (stmts.foldl (fun scope s => s.names ++ scope) scope) := by
  cases result with
  | none => simp [Each, Stmt.EachIn, uses]
  | some e =>
    rw [Each, uses, List.forall_mem_append]
    simp [Each, Stmt.EachIn]

end Expr

namespace Stmt

@[simp] theorem eachIn_nil : Stmt.EachIn P scope [] := nofun

theorem eachIn_cons {s : Stmt} {rest : List Stmt} :
    Stmt.EachIn P scope (s :: rest) ↔
      (∀ u ∈ s.uses scope, isRaw u.name = true → P u) ∧
        Stmt.EachIn P (s.names ++ scope) rest := by
  rw [EachIn, usesList, List.forall_mem_append]
  exact .rfl

@[simp] theorem eachIn_bind {pattern : LocalPattern} {ty : Option (List Token)} {value : Expr}
    {rest : List Stmt} : Stmt.EachIn P scope (.bind pattern ty value :: rest) ↔
      value.Each P scope ∧ Stmt.EachIn P (pattern.names ++ scope) rest := eachIn_cons

@[simp] theorem eachIn_run {e : Expr} {rest : List Stmt} :
    Stmt.EachIn P scope (.run e :: rest) ↔ e.Each P scope ∧ Stmt.EachIn P scope rest := eachIn_cons

@[simp] theorem eachIn_each {x : String} {items : Expr} {body rest : List Stmt} :
    Stmt.EachIn P scope (.each x items body :: rest) ↔
      items.Each P scope ∧ Stmt.EachIn P (x :: scope) body ∧ Stmt.EachIn P scope rest := by
  rw [eachIn_cons, uses, List.forall_mem_append, and_assoc]
  exact .rfl

@[simp] theorem eachIn_increase {x : String} {amount : Expr} {rest : List Stmt} :
    Stmt.EachIn P scope (.increase x amount :: rest) ↔
      (isRaw x = true → P ⟨x, scope⟩) ∧ amount.Each P scope ∧ Stmt.EachIn P scope rest := by
  rw [eachIn_cons, uses, List.forall_mem_cons, and_assoc]
  exact .rfl

end Stmt

end Each

end Code

end DaoGen
