import DaoGen.Declaration.Collection
import DaoGen.Proofs.Emission.Methods
import DaoGen.Proofs.Extraction.Accepted
import DaoGen.Proofs.TypeRef.Meaning

/-!
# Bodies of writes

An accepted write takes an entity or a list of entities and has a result that its body can compute:
nothing, a number, or a list of keys. Marks of the list, in the parameter or in the result, are not
checked, and the computed value has the type of the result just if the result has none.

## Main definitions

* `Write.Takes`, `Write.Returns`: the parameters and the results of accepted writes.
* `Code.Body.HasValue`: the types of the values that bodies of writes compute.

## Main results

* `Emission.exists_writeResult`: accepted results are computed.
* `Emission.write_shapes`: the shapes of accepted writes, and the types of their values.
-/
namespace DaoGen

/-! ## Lists -/

namespace TypeRef

/-- A type of lists or slices of elements of another one. -/
def IsListOf (t element : TypeRef) : Prop :=
  (t.isSlice = true ∨ t.simpleName = "Vec") ∧ ∃ projection, t.args = [.type projection element]

theorem element?_eq_some {t element : TypeRef} :
    t.element? = some element ↔ t.IsListOf element := by
  obtain ⟨name, args, nullable, reference⟩ := t
  simp only [element?, IsListOf, firstArg?]
  split
  · next hlist =>
    rw [Bool.and_eq_true, Bool.or_eq_true, beq_iff_eq, beq_iff_eq] at hlist
    obtain ⟨hname, hlength⟩ := hlist
    obtain ⟨arg, rfl⟩ := List.length_eq_one_iff.mp hlength
    cases arg <;> simp [hname, TypeArg.ty?]
  · next hlist =>
    refine ⟨nofun, fun ⟨hname, projection, hargs⟩ => absurd ?_ hlist⟩
    rw [Bool.and_eq_true, Bool.or_eq_true, beq_iff_eq, beq_iff_eq]
    exact ⟨hname, by rw [hargs]; rfl⟩

@[simp] theorem element?_owned (t : TypeRef) : t.owned.element? = t.element? := rfl

/-- An outer reference has no effect on the rest of a normal form. -/
theorem owned_normalize_owned (t : TypeRef) : t.owned.normalize.owned = t.normalize.owned := by
  obtain ⟨name, args, nullable, reference⟩ := t
  simp only [owned, normalize, rebuild]
  split
  · split
    · rfl
    · split <;> rfl
  · rfl

end TypeRef

/-! ## Parameters and results -/

namespace Write

/-- A type is that of the parameter of a write: an entity that is always present, or a list of
these. -/
inductive Takes (scope : Scope) (write : Write) (t : TypeRef) : Prop where
  | one (hbatch : write.batch = false) (hsingle : ∀ element, ¬ t.IsListOf element)
    (hpresent : t.nullable = false) (hentity : scope.entity t.name = .found write.entity)
  | many {element : TypeRef} (hbatch : write.batch = true) (hlist : t.IsListOf element)
    (hpresent : element.nullable = false)
    (hentity : scope.entity element.name = .found write.entity)

theorem takes_of_elementOf {scope : Scope} {write : Write} {ty : TypeRef}
    (hbatch : write.batch = (elementOf ty).2) (hpresent : (elementOf ty).1.nullable = false)
    (hentity : scope.entity (elementOf ty).1.name = .found write.entity) :
    write.Takes scope ty.normalize.owned := by
  rw [← TypeRef.owned_normalize_owned]
  simp only [elementOf] at hbatch hpresent hentity
  cases helement : ty.owned.normalize.element? with
  | none =>
    simp only [helement] at hbatch hpresent hentity
    refine .one hbatch (fun element hlist => ?_) hpresent hentity
    rw [← TypeRef.element?_eq_some, TypeRef.element?_owned, helement] at hlist
    cases hlist
  | some element =>
    simp only [helement] at hbatch hpresent hentity
    exact .many hbatch (TypeRef.element?_eq_some.mp helement) hpresent hentity

/-- Whether a write inserts several rows. -/
def insertsBatch (write : Write) : Bool := write.batch && write.op.isInsert

/-- A type is that of the result of a write: nothing, the number of rows or the key of a new one,
or the keys of several new ones. -/
inductive Returns (write : Write) (t : TypeRef) : Prop where
  | nothing (hname : t.name = "()") (hpresent : t.nullable = false)
  | count (hbatch : write.insertsBatch = false) (hinteger : t.isInteger = true)
  | keys {projection : Projection} {element : TypeRef} (hbatch : write.insertsBatch = true)
    (hname : t.simpleName = "Vec") (hargs : t.args = [.type projection element])
    (hinteger : element.isInteger = true)

theorem returns_of_canReturn {write : Write} {t : TypeRef}
    (h : canReturn write.op write.batch t = true) : write.Returns t := by
  unfold canReturn at h
  split at h
  · next hunit =>
    rw [TypeRef.isUnit, Bool.and_eq_true, beq_iff_eq, Bool.not_eq_true'] at hunit
    exact .nothing hunit.1 hunit.2
  · split at h
    · next hbatch =>
      rw [Bool.and_eq_true, beq_iff_eq] at h
      obtain ⟨element, helement, hinteger⟩ := (Option.any_eq_true _ _).mp h.1
      obtain ⟨_, projection, hargs⟩ := TypeRef.element?_eq_some.mp helement
      refine .keys ?_ h.2 hargs hinteger
      rw [insertsBatch, Bool.and_comm]
      exact hbatch
    · next hbatch =>
      refine .count ?_ h
      rw [insertsBatch, Bool.and_comm]
      exact Bool.not_eq_true _ ▸ hbatch

end Write

/-! ## Values -/

namespace Code

open Emission

mutual

/-- The type of the value of an expression in the body of a write, given those of the local names.
The key of a new row is an integer of some type, and a number of rows is a `u64`. -/
inductive Computes : List (String × ValueType) → Expr → ValueType → Prop where
  | var {Γ x t} (h : Γ.lookup x = some t) : Computes Γ (.var x) t
  | paren {Γ e t} (h : Computes Γ e t) : Computes Γ (.paren e) t
  | key {Γ sql n} (hn : n ∈ TypeRef.integerNames) :
    Computes Γ (driverCall "insert" [] sql) (.named n [])
  | rows {Γ sql} : Computes Γ (driverCall "execute" [] sql) (.named "u64" [])
  | cast {Γ e n ty} (h : Computes Γ e (.named n [])) (hn : n ∈ TypeRef.integerNames)
    (hty : textOf ty ∈ TypeRef.integerNames) : Computes Γ (.cast e ty) (.named (textOf ty) [])
  | block {Γ Δ stmts e t} (hstmts : Runs Γ stmts Δ) (h : Computes Δ e t) :
    Computes Γ (.block false stmts (some e)) t
  | done {Γ Δ stmts} (hstmts : Runs Γ stmts Δ) :
    Computes Γ (.block false stmts none) (.named "()" [])

/-- Statements in a row can be run, and leave further local names of the given types. Of the values
for placeholders and the items of a list the types are not kept. -/
inductive Runs : List (String × ValueType) → List Stmt → List (String × ValueType) → Prop where
  | nil {Γ} : Runs Γ [] Γ
  | values {Γ Δ x ty value rest} (hrest : Runs ((x, .hole) :: Γ) rest Δ) :
    Runs Γ (.bind (.name x) ty value :: rest) Δ
  | zero {Γ Δ x ty rest} (hty : textOf ty ∈ TypeRef.integerNames)
    (hrest : Runs ((x, .named (textOf ty) []) :: Γ) rest Δ) :
    Runs Γ (.bind (.mutable x) (some ty) (.number 0) :: rest) Δ
  | empty {Γ Δ x t size rest} (hrest : Runs ((x, .vec t) :: Γ) rest Δ) :
    Runs Γ (.bind (.mutable x) none
      (.call (absolutePath ["std", "vec", "Vec", "with_capacity"]) [size]) :: rest) Δ
  | each {Γ Δ Θ item items body rest} (hbody : Runs ((item, .hole) :: Γ) body Θ)
    (hrest : Runs Γ rest Δ) : Runs Γ (.each item items body :: rest) Δ
  | run {Γ Δ e t rest} (he : Computes Γ e t) (hrest : Runs Γ rest Δ) : Runs Γ (.run e :: rest) Δ
  | push {Γ Δ x e t rest} (hx : Γ.lookup x = some (.vec t)) (he : Computes Γ e t)
    (hrest : Runs Γ rest Δ) : Runs Γ (.run (.invoke (.var x) "push" [e]) :: rest) Δ
  | increase {Γ Δ x e n rest} (hx : Γ.lookup x = some (.named n []))
    (hn : n ∈ TypeRef.integerNames) (he : Computes Γ e (.named n [])) (hrest : Runs Γ rest Δ) :
    Runs Γ (.increase x e :: rest) Δ

end

/-- The type of the value that a body computes. -/
def Body.HasValue (body : Body) (t : ValueType) : Prop := Computes [] body.block t

end Code

namespace Emission

open Code

/-- The type of what a write gives back. -/
inductive WriteResult.Gives : WriteResult → ValueType → Prop where
  | nothing : Gives .nothing (.named "()" [])
  | count {ty : List Token} (hty : textOf ty ∈ TypeRef.integerNames) :
    Gives (.count ty) (.named (textOf ty) [])
  | keys {ty : List Token} (hty : textOf ty ∈ TypeRef.integerNames) :
    Gives (.keys ty) (.vec (.named (textOf ty) []))

/-- Writing one entity gives an integer, and a number of rows unless a row is new. -/
def Counts (insert : Bool) (one : Expr) : Prop :=
  ∃ n ∈ TypeRef.integerNames, (insert = false → n = "u64") ∧ ∀ Γ, Computes Γ one (.named n [])

theorem counts_of_writeOne {ctx : Context} {statement : Sql.WriteStatement} {item : String}
    {one : Expr} (h : writeOne ctx statement item = .ok one) : Counts statement.insert one := by
  obtain ⟨values, _, h⟩ := Except.bind_eq_ok.mp h
  cases Except.pure_eq_ok.mp h
  refine ⟨"u64", by decide, fun _ => rfl, fun Γ => .block (.values .nil) ?_⟩
  cases statement.insert with
  | true => exact .key (by decide)
  | false => exact .rows

theorem hasValue_singleBody {insert : Bool} {one : Expr} {result : WriteResult} {t : ValueType}
    (hone : Counts insert one) (hkeys : ∀ ty, result ≠ .keys ty) :
    (singleBody one result).HasValue t ↔ result.Gives t := by
  obtain ⟨n, hn, _, hone⟩ := hone
  cases result with
  | nothing =>
    constructor
    · intro h
      cases h
      exact .nothing
    · intro h
      cases h
      exact .done (.run (hone _) .nil)
  | count ty =>
    constructor
    · intro h
      cases h with
      | block _ h =>
        cases h with
        | cast _ _ hty => exact .count hty
    · intro h
      cases h with
      | count hty => exact .block .nil (.cast (.paren (hone _)) hn hty)
  | keys ty => exact absurd rfl (hkeys ty)

theorem hasValue_batchBody {insert : Bool} {param : String} {one : Expr} {result : WriteResult}
    {t : ValueType} (hone : Counts insert one)
    (hcount : ∀ ty, result = .count ty → insert = false) :
    (batchBody param one result).HasValue t ↔ result.Gives t := by
  obtain ⟨n, hn, hrows, hone⟩ := hone
  cases result with
  | nothing =>
    constructor
    · intro h
      cases h
      exact .nothing
    · intro h
      cases h
      exact .done (.each (.run (hone _) .nil) .nil)
  | count ty =>
    have hname : n = textOf (words ["u64"]) := by
      rw [hrows (hcount ty rfl)]
      decide
    constructor
    · intro h
      cases h with
      | block _ h =>
        cases h with
        | cast _ _ hty => exact .count hty
    · intro h
      cases h with
      | count hty =>
        refine .block (.zero (hname ▸ hn) (.each (.increase ?_ hn (hone _) .nil) .nil))
          (.cast (.var rfl) (hname ▸ hn) hty)
        rw [hname]
        rfl
  | keys ty =>
    constructor
    · intro h
      cases h with
      | block hstmts hids =>
        cases hstmts with
        | empty hrest =>
          cases hrest with
          | each hbody hnil =>
            cases hnil
            cases hids with
            | var hids =>
              cases hids
              cases hbody with
              | run hpush => cases hpush
              | push hx hitem =>
                cases hx
                cases hitem with
                | cast _ _ hty => exact .keys hty
    · intro h
      cases h with
      | keys hty =>
        exact .block (.empty (.each (.push rfl (.cast (.paren (hone _)) hn hty) .nil) .nil))
          (.var rfl)

/-! ## Results -/

/-- The name of an integer type is read as it is written. -/
theorem exists_typeTokens {t : TypeRef} (h : t.isInteger = true) :
    t = .named t.name ∧ t.name ∈ TypeRef.integerNames ∧
      ∃ tokens, typeTokens t = .ok tokens ∧ textOf tokens = t.name := by
  obtain ⟨name, args, nullable, reference⟩ := t
  simp only [TypeRef.isInteger, Bool.and_eq_true, Bool.not_eq_true', List.isEmpty_iff,
    List.contains_iff_mem] at h
  obtain ⟨⟨⟨rfl, rfl⟩, rfl⟩, hname⟩ := h
  have hall : ∀ name ∈ TypeRef.integerNames, (parseType name).map textOf = some name := by
    decide +kernel
  obtain ⟨tokens, htokens, htext⟩ := Option.map_eq_some_iff.mp (hall name hname)
  refine ⟨rfl, hname, tokens, typeTokens_eq_ok.mpr ?_, htext⟩
  have hrender : TypeRef.render ⟨name, [], false, false⟩ = name := by
    have hne : name ≠ "[]" := fun heq => by simp [heq, TypeRef.integerNames] at hname
    simp [TypeRef.render, hne]
  rw [hrender, htokens]

end Emission

/-- A type of results is that of a value that a write computes: it has no marks, the unit type has
no arguments, and a list has the common name. -/
structure TypeRef.IsComputed (t : TypeRef) : Prop where
  present : t.nullable = false
  owned : t.reference = false
  unit : t.name = "()" → t.args = []
  list : t.simpleName = "Vec" → t.name = "Vec"

namespace Emission

open Code

theorem gives_nothing_iff {t : TypeRef} (hname : t.name = "()") (hpresent : t.nullable = false) :
    WriteResult.nothing.Gives t.written ↔ t.IsComputed := by
  obtain ⟨name, args, nullable, reference⟩ := t
  cases hname
  cases hpresent
  constructor
  · intro h
    cases reference with
    | true => simp only [TypeRef.written] at h; cases h
    | false =>
      cases args with
      | nil => exact ⟨rfl, rfl, fun _ => rfl, fun hvec => absurd hvec (by decide)⟩
      | cons arg rest => simp only [TypeRef.written, TypeRef.writtenArgs] at h; cases h
  · rintro ⟨_, hreference, hargs, _⟩
    cases hreference
    cases hargs rfl
    exact .nothing

theorem gives_count_iff {t : TypeRef} {tokens : List Token} (ht : t = .named t.name)
    (hname : t.name ∈ TypeRef.integerNames) (htext : textOf tokens = t.name) :
    (WriteResult.count tokens).Gives t.written ↔ t.IsComputed := by
  have hvec : ∀ name ∈ TypeRef.integerNames, (TypeRef.named name).simpleName ≠ "Vec" := by decide
  have hgives : (WriteResult.count tokens).Gives (.named t.name []) :=
    htext ▸ .count (htext ▸ hname)
  rw [ht]
  exact ⟨fun _ => ⟨rfl, rfl, fun _ => rfl, fun hlist => absurd hlist (hvec _ hname)⟩,
    fun _ => hgives⟩

theorem WriteResult.Gives.eq_vec {tokens : List Token} {t : ValueType}
    (h : Gives (WriteResult.keys tokens) t) : t = .vec (.named (textOf tokens) []) := by
  cases h
  rfl

theorem gives_keys_iff {t : TypeRef} {projection : Projection} {name : String}
    {tokens : List Token} (hlist : t.simpleName = "Vec")
    (hargs : t.args = [.type projection (.named name)]) (hname : name ∈ TypeRef.integerNames)
    (htext : textOf tokens = name) :
    (WriteResult.keys tokens).Gives t.written ↔ t.IsComputed := by
  obtain ⟨outer, args, nullable, reference⟩ := t
  subst htext
  cases hargs
  constructor
  · intro h
    have hwritten := h.eq_vec
    cases nullable <;> cases reference <;>
      simp only [TypeRef.written, ValueType.option, ValueType.vec, Bool.false_eq_true, if_true,
        if_false, ValueType.named.injEq, reduceCtorEq] at hwritten
    · refine ⟨rfl, rfl, fun hunit => ?_, fun _ => hwritten.1⟩
      exact absurd (hwritten.1.symm.trans hunit) (by decide)
    all_goals exact absurd hwritten.1 (by decide)
  · rintro ⟨hpresent, howned, _, hvec⟩
    cases hpresent
    cases howned
    cases hvec hlist
    exact .keys hname

theorem exists_writeResult {op : Operation} {write : Write} (h : write.Returns op.returnType) :
    ∃ result, writeResult op write = .ok result ∧
      (result.Gives op.returnType.written ↔ op.returnType.IsComputed) ∧
      (∀ ty, result = .keys ty → write.insertsBatch = true) ∧
      ∀ ty, result = .count ty → write.insertsBatch = false := by
  unfold writeResult
  generalize op.returnType = ret at h
  cases h with
  | nothing hname hpresent =>
    have hunit : ret.isUnit = true := by simp [TypeRef.isUnit, hname, hpresent]
    exact ⟨.nothing, by simp [hunit], gives_nothing_iff hname hpresent, nofun, nofun⟩
  | count hbatch hinteger =>
    obtain ⟨hret, hname, tokens, htokens, htext⟩ := exists_typeTokens hinteger
    refine ⟨.count tokens, ?_, gives_count_iff hret hname htext, nofun, fun _ _ => hbatch⟩
    have hunit : ret.isUnit = false := by
      have hall : ∀ name ∈ TypeRef.integerNames, (TypeRef.named name).isUnit = false := by decide
      exact hret ▸ hall _ hname
    rw [Write.insertsBatch] at hbatch
    simp only [hunit, hinteger, hbatch, htokens]
    rfl
  | @keys _ element hbatch hlist hargs hinteger =>
    have helement := TypeRef.element?_eq_some.mpr ⟨.inr hlist, _, hargs⟩
    obtain ⟨hnamed, hname, tokens, htokens, htext⟩ := exists_typeTokens hinteger
    refine ⟨.keys tokens, ?_, gives_keys_iff hlist (hnamed ▸ hargs) hname htext, fun _ _ => hbatch,
      nofun⟩
    have hunit : ret.isUnit = false := by
      rw [TypeRef.isUnit, Bool.and_eq_false_iff, beq_eq_false_iff_ne]
      refine .inl fun hunit => ?_
      rw [TypeRef.simpleName, hunit] at hlist
      revert hlist
      decide
    have hsingle : ret.isInteger = false := by simp [TypeRef.isInteger, hargs]
    rw [Write.insertsBatch] at hbatch
    have hfilter : (some element).filter (fun e => true && e.isInteger) = some element := by
      simp [hinteger]
    simp only [hunit, hsingle, hbatch, helement, hfilter, htokens]
    rfl

/-! ## Bodies -/

theorem insert_of_ofEntity {dialect : Dialect} {op : WriteOp} {entity : Entity}
    {statement : Sql.WriteStatement} (h : Sql.WriteStatement.ofEntity dialect op entity =
      .ok statement) : statement.insert = op.isInsert := by
  unfold Sql.WriteStatement.ofEntity at h
  split at h
  · cases h
  · split at h
    · cases h
      rfl
    · cases h
      rfl
    · split at h <;> cases h
      rfl
    · cases h
      rfl

/-- The body of an accepted write computes a value of the type of the result, if that has a form
that can be computed. -/
theorem hasValue_writeBody {ctx : Context} {op : Operation} {write : Write} {body : Body}
    (hreturns : write.Returns op.returnType) (h : writeBody ctx op write = .ok body) :
    body.HasValue op.returnType.written ↔ op.returnType.IsComputed := by
  obtain ⟨result, hresult, hgives, hkeys, hcount⟩ := exists_writeResult hreturns
  rw [← hgives]
  unfold writeBody at h
  split at h
  · cases h
  · split at h
    · cases h
    · next statement hstatement =>
      obtain ⟨result', hresult', h⟩ := Except.bind_eq_ok.mp h
      cases hresult.symm.trans hresult'
      obtain ⟨param, _, h⟩ := Except.bind_eq_ok.mp h
      split at h
      · next hbatch =>
        obtain ⟨one, hone, h⟩ := Except.bind_eq_ok.mp h
        cases Except.pure_eq_ok.mp h
        refine hasValue_batchBody (counts_of_writeOne hone) fun ty hty => ?_
        rw [insert_of_ofEntity hstatement]
        simpa [Write.insertsBatch, hbatch] using hcount ty hty
      · next hsingle =>
        obtain ⟨one, hone, h⟩ := Except.bind_eq_ok.mp h
        cases Except.pure_eq_ok.mp h
        refine hasValue_singleBody (counts_of_writeOne hone) fun ty hty => ?_
        simpa [Write.insertsBatch, hsingle] using hkeys ty hty

/-- An accepted write takes an entity or a list of entities, and its result is one of those that
can be computed from the driver. The value of its body has the type of the result just if this has
no marks and the common names. -/
theorem write_shapes {source : DeclarationSource} {scope : Scope} {d : Declaration}
    {dao : Dao} (hdao : Dao.ofDeclaration source scope d = .ok dao) {op : Operation}
    (hop : op ∈ dao.operations) {write : Write} (hkind : op.kind = .write write) :
    (∃ param, op.params = [param] ∧ write.param = param.name ∧
      write.Takes scope param.ty.normalize.owned) ∧
    write.Returns op.returnType ∧
    (∃ result, writeResult op write = .ok result) ∧
    ∀ ctx body, writeBody ctx op write = .ok body →
      (body.HasValue op.returnType.written ↔ op.returnType.IsComputed) := by
  obtain ⟨param, hparams, _, hname, hbatch, hpresent, hentity, hreturn⟩ :=
    Write.ofParams_eq_ok.mp (Dao.ofParams_of_ofDeclaration hdao hop hkind)
  have hreturns := Write.returns_of_canReturn hreturn
  obtain ⟨result, hresult, _⟩ := exists_writeResult hreturns
  exact ⟨⟨param, hparams, hname, Write.takes_of_elementOf hbatch hpresent hentity⟩, hreturns,
    ⟨result, hresult⟩, fun ctx body hbody => hasValue_writeBody hreturns hbody⟩

/-- Several entities are inserted from a slice, and their keys are a list of integers. -/
theorem write_shapes_slice :
    let keys : TypeRef := .generic "Vec" [.named "i64"]
    let params : List Param := [⟨"tags", .byRef (.slice (.named "Tag")), []⟩]
    let signature : Signature := { params, returns := some keys, isAsync := true }
    let d : Declaration := ⟨0, .dao, ⟨"db::TagDao"⟩, [.dao], none⟩
    let source : DeclarationSource :=
      ⟨[d], fun _ => .ok [⟨0, 0, "add", .method signature, none⟩], fun _ => [.insert false]⟩
    let id : Field := { name := "id", ty := .named "i64", primaryKey := true }
    let tag : Entity := ⟨⟨"db::Tag"⟩, "Tag", [id], [], none, none⟩
    let ctx : Context := ⟨{ entities := [tag] }, .jvm, .sqlite, "replikit"⟩
    let write : Write := ⟨.insert, ⟨"db::Tag"⟩, "tags", true⟩
    ∃ dao op body, Dao.ofDeclaration source ⟨ctx.model, []⟩ d = .ok dao ∧ op ∈ dao.operations ∧
      op.kind = .write write ∧ writeBody ctx op write = .ok body ∧
      write.Takes ⟨ctx.model, []⟩ (.slice (.named "Tag")) ∧
      body.HasValue (.vec (.named "i64" [])) := by
  intro keys params signature d source id tag ctx write
  let op : Operation := { name := "add", params := params.map .ofParam, suspension := .async,
                          declaredReturn := some keys, returnType := keys, kind := .write write,
                          annotations := [.insert false] }
  have hdao : Dao.ofDeclaration source ⟨ctx.model, []⟩ d = .ok ⟨⟨"db::TagDao"⟩, [op], none⟩ := by
    decide +kernel
  have hbody : (writeBody ctx op write).toOption.isSome = true := by decide +kernel
  obtain ⟨body, hbody⟩ := Option.isSome_iff_exists.mp hbody
  rw [Except.toOption_eq_some] at hbody
  obtain ⟨⟨param, hparams, _, htakes⟩, _, _, hvalue⟩ :=
    write_shapes hdao List.mem_cons_self rfl
  cases hparams
  have hcomputed : keys.IsComputed :=
    ⟨rfl, rfl, fun hunit => absurd hunit (by decide), fun _ => rfl⟩
  exact ⟨_, op, body, hdao, List.mem_cons_self, rfl, hbody, htakes,
    (hvalue ctx body hbody).mpr hcomputed⟩

/-- The code of an insert of several entities whose list is optional. -/
def optionalBatchCode : String :=
  "#[entity] pub struct Tag \x7b #[primary_key] pub id: i64 \x7d\n" ++
    "#[dao] pub trait TagDao \x7b #[insert] async fn add(&self, tags: Option<Vec<Tag>>); \x7d"

/-- An optional list of entities is accepted. -/
theorem exists_write_of_optionalBatch :
    ∃ c, Collection.add {} "db.rs" "db" optionalBatchCode = .ok c ∧
      ∃ d ∈ c.source.ofKind .dao, ∃ dao,
        Dao.ofDeclaration c.source
          ((c.source.ofKind .entity).foldl (Extraction.takeEntity c.source) {}).scope d = .ok dao ∧
        ∃ op ∈ dao.operations, ∃ write param, op.kind = .write write ∧ op.params = [param] ∧
          param.ty.normalize.nullable = true := by
  have hany : (Collection.add {} "db.rs" "db" optionalBatchCode).toOption.any (fun c =>
      (c.source.ofKind .dao).any fun d =>
        (Dao.ofDeclaration c.source
          ((c.source.ofKind .entity).foldl (Extraction.takeEntity c.source) {}).scope
            d).toOption.any fun dao =>
          dao.operations.any fun op =>
            op.kind == .write ⟨.insert, ⟨"db::Tag"⟩, "tags", true⟩ &&
              op.params.any (·.ty.normalize.nullable)) = true := by
    decide +kernel
  obtain ⟨c, hc, hdaos⟩ := Except.exists_of_any hany
  obtain ⟨d, hd, hdao⟩ := List.any_eq_true.mp hdaos
  obtain ⟨dao, hdao, hoperations⟩ := Except.exists_of_any hdao
  obtain ⟨op, hop, hboth⟩ := List.any_eq_true.mp hoperations
  obtain ⟨hkind, hnullable⟩ := Bool.and_eq_true_iff.mp hboth
  rw [beq_iff_eq] at hkind
  obtain ⟨param, hmem, hnullable⟩ := List.any_eq_true.mp hnullable
  obtain ⟨_, param', hparams, _⟩ := Dao.write_of_ofDeclaration hdao hop hkind
  rw [hparams, List.mem_singleton] at hmem
  cases hmem
  exact ⟨c, hc, d, hd, dao, hdao, op, hop, _, param, hkind, hparams, hnullable⟩

end Emission

end DaoGen
