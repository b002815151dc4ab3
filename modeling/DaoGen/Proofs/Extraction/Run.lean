import DaoGen.Proofs.Extraction.Accepted

/-!
# Runs of the extraction

A run takes up one declaration after another. What every added model preserves holds of the models
of a source: `Extraction.model_induction` is the one induction over a run.
-/
namespace DaoGen.Extraction

/-- A name whose simple name is none of the given names has. -/
def IsFree (names : List QualifiedName) (name : QualifiedName) : Prop :=
  ∀ other ∈ names, other.simple ≠ name.simple

theorem claimName_ok {M : Type} {d : Declaration} {taken : List QualifiedName} {m m' : M}
    (h : claimName d taken m = .ok m') : m = m' ∧ IsFree taken d.name := by
  unfold claimName at h
  split at h
  · cases h
  · next hfree =>
    cases h
    exact ⟨rfl, by simpa [IsFree] using List.find?_eq_none.mp hfree⟩

/-! ## Steps -/

/-- An attempt adds its model, or leaves the models as they are. -/
theorem model_settle {M : Type} (add : Model → M → Model) (e : Extraction) (d : Declaration)
    (attempt : Attempt M) :
    (e.settle add d attempt).model = e.model ∨
      ∃ m, attempt.outcome = .ok m ∧ (e.settle add d attempt).model = add e.model m := by
  unfold settle
  dsimp only
  split
  · next m hm => exact .inr ⟨m, hm, rfl⟩
  · exact .inl rfl
  · exact .inl rfl

/-- A model that is added has a free name. -/
theorem model_settle_claim {M : Type} (add : Model → M → Model) (nameOf : M → QualifiedName)
    (e : Extraction) (d : Declaration) (warnings : List Diagnostic) (outcome : Except Rejection M)
    (taken : List QualifiedName) (hname : ∀ m, outcome = .ok m → nameOf m = d.name) :
    let e' := e.settle add d { warnings, outcome := outcome.bind (claimName d taken) }
    e'.model = e.model ∨
      ∃ m, outcome = .ok m ∧ IsFree taken (nameOf m) ∧ e'.model = add e.model m := by
  intro e'
  rcases model_settle add e d { warnings, outcome := outcome.bind (claimName d taken) } with
    hsame | ⟨m, hok, hmodel⟩
  · exact .inl hsame
  · obtain ⟨m', hm, hclaim⟩ := Except.bind_eq_ok.mp hok
    obtain ⟨rfl, hfree⟩ := claimName_ok hclaim
    exact .inr ⟨m', hm, hname m' hm ▸ hfree, hmodel⟩

theorem model_takeEntity (source : DeclarationSource) (e : Extraction) (d : Declaration) :
    (takeEntity source e d).model = e.model ∨
      ∃ entity, (Entity.ofDeclaration source d).outcome = .ok entity ∧
        IsFree (e.model.entities.map (·.name)) entity.name ∧
        (takeEntity source e d).model = addEntity e.model entity :=
  model_settle_claim addEntity Entity.name e d _ _ _ fun _ h => (Entity.ofDeclaration_ok h).1

theorem model_takeDao (source : DeclarationSource) (e : Extraction) (d : Declaration) :
    (takeDao source e d).model = e.model ∨
      ∃ dao, Dao.ofDeclaration source e.scope d = .ok dao ∧
        IsFree (e.model.daos.map (·.name)) dao.name ∧
        (takeDao source e d).model = addDao e.model dao :=
  model_settle_claim addDao Dao.name e d _ _ _ fun _ h => (Dao.ofDeclaration_ok h).1

theorem model_takeDatabase (e : Extraction) (d : Declaration) :
    (takeDatabase e d).model = e.model ∨
      ∃ database, Database.ofDeclaration e.scope d = .ok database ∧
        IsFree (e.model.databases.map (·.name)) database.name ∧
        (takeDatabase e d).model = addDatabase e.model database :=
  model_settle_claim addDatabase Database.name e d _ _ _ fun _ h => (Database.ofDeclaration_ok h).1

/-! ## Whole runs -/

/-- What each step preserves holds after any number of steps. -/
theorem model_foldl {P : Model → Prop} {take : Extraction → Declaration → Extraction}
    (step : ∀ e d, P e.model → P (take e d).model) (ds : List Declaration) {e : Extraction}
    (h : P e.model) : P (ds.foldl take e).model := by
  induction ds generalizing e with
  | nil => exact h
  | cons d ds ih => exact ih (step e d h)

/-- What holds of no models, and is preserved by each model that an accepted declaration of a free
name adds, holds of the models of a source. -/
theorem model_induction {P : Model → Prop} (source : DeclarationSource) (empty : P {})
    (entity : ∀ model d entity, P model → (Entity.ofDeclaration source d).outcome = .ok entity →
      IsFree (model.entities.map (·.name)) entity.name → P (addEntity model entity))
    (dao : ∀ (scope : Scope) d dao, P scope.model → Dao.ofDeclaration source scope d = .ok dao →
      IsFree (scope.model.daos.map (·.name)) dao.name → P (addDao scope.model dao))
    (database : ∀ (scope : Scope) d database, P scope.model →
      Database.ofDeclaration scope d = .ok database →
      IsFree (scope.model.databases.map (·.name)) database.name →
      P (addDatabase scope.model database)) :
    P (ofSource source).model := by
  refine model_foldl ?_ _ (model_foldl ?_ _ (model_foldl ?_ _ empty))
  · intro e d he
    rcases model_takeDatabase e d with hsame | ⟨m, hok, hfree, hmodel⟩
    · rwa [hsame]
    · exact hmodel ▸ database e.scope d m he hok hfree
  · intro e d he
    rcases model_takeDao source e d with hsame | ⟨m, hok, hfree, hmodel⟩
    · rwa [hsame]
    · exact hmodel ▸ dao e.scope d m he hok hfree
  · intro e d he
    rcases model_takeEntity source e d with hsame | ⟨m, hok, hfree, hmodel⟩
    · rwa [hsame]
    · exact hmodel ▸ entity e.model d m he hok hfree

/-- Each entity of the models of a source is one that a declaration declares. -/
theorem exists_declaration (source : DeclarationSource) :
    ∀ entity ∈ (ofSource source).model.entities,
      ∃ d, (Entity.ofDeclaration source d).outcome = .ok entity := by
  refine model_induction source (P := fun model => ∀ entity ∈ model.entities,
    ∃ d, (Entity.ofDeclaration source d).outcome = .ok entity) nofun ?_
    (fun _ _ _ h _ _ => h) (fun _ _ _ h _ _ => h)
  intro model d entity h hok _ other hother
  rcases List.mem_append.mp hother with hold | hnew
  · exact h other hold
  · cases List.mem_singleton.mp hnew
    exact ⟨d, hok⟩

end DaoGen.Extraction
