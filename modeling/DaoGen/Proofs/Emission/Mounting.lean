import DaoGen.Proofs.Emission.Contract
import DaoGen.Proofs.Extraction.Index
import DaoGen.Proofs.Extraction.Method
import DaoGen.Proofs.Text.CaseForms

/-!
# Names of endpoints

The routes, handlers and requests of a router are named by the operations of its DAO, each in a case
form of its own. Names of operations that have a form in common give the same route, handler or
request twice. In ASCII it is the requests that are the first to clash, and conventional names never
do.

## Main results

* `Endpoint.names_of_ofOperation`: how an endpoint is named.
* `Router.ofDao_nodup_iff`: when the endpoints of a router are told apart.
* `Router.ofDao_repeats`: a DAO with a route, a handler and a request that are there twice.
-/
namespace DaoGen

open Code Text

/-! ## Identifiers -/

/-- Without the mark of raw identifiers, the name of an operation has characters of identifiers
only. -/
theorem isIdentifierContinue_columnName {name : String} (h : IsWord name) :
    ∀ c ∈ (columnName name).toList, isIdentifierContinue c = true := by
  have hplain {cs : List Char} (hcs : plainIdentifier cs = some (cs, [])) :
      ∀ c ∈ cs, isIdentifierContinue c = true := by
    obtain ⟨c, tail, rfl, hstart, htail⟩ := plainIdentifier_eq_self hcs
    exact List.forall_mem_cons.mpr ⟨isIdentifierContinue_of_isIdentifierStart hstart, htail⟩
  rcases identifier_eq_self h with ⟨hraw, hword⟩ | ⟨word, hraw, hword, _⟩
  · have hnot : isRaw name = false := by
      refine Bool.eq_false_iff.mpr fun hraw' => ?_
      have heq := congrArg String.toList (eq_raw_columnName hraw')
      exact hraw _ (by simpa using heq)
    rw [columnName_of_not_isRaw hnot]
    exact hplain hword
  · have hname : name = "r#" ++ String.ofList word := String.toList_injective (by simp [hraw])
    rw [hname, columnName_append, String.toList_ofList]
    exact hplain hword

/-- An ending of characters of identifiers makes an identifier of text of this form, given that it
tells the text from words that are never raw. -/
theorem isWord_append {front ending : String} (hfront : HasWordForm front.toList)
    (hending : ∀ c ∈ ending.toList, isIdentifierContinue c = true)
    (hnever : ∃ c ∈ ending.toList, ∀ word ∈ neverRaw, c ∉ word.toList.tail) :
    IsWord (front ++ ending) := by
  have happend {cs : List Char} (hcs : plainIdentifier cs = some (cs, [])) :
      plainIdentifier (cs ++ ending.toList) = some (cs ++ ending.toList, []) := by
    obtain ⟨c, tail, rfl, hstart, htail⟩ := plainIdentifier_eq_self hcs
    exact plainIdentifier_cons hstart (List.forall_mem_append.mpr ⟨htail, hending⟩)
  rw [IsWord, String.toList_append]
  rcases hfront with hplain | ⟨word, hraw, hword⟩
  · exact identifier_of_plainIdentifier (happend hplain)
  · have hfree : neverRaw.contains (String.ofList (word ++ ending.toList)) = false := by
      obtain ⟨c, hc, hnone⟩ := hnever
      rw [Bool.eq_false_iff, Ne, List.contains_iff_mem]
      intro hmem
      obtain ⟨d, tail, rfl, _⟩ := plainIdentifier_eq_self hword
      exact hnone _ hmem (by simp [hc])
    rw [hraw, List.cons_append, List.cons_append, identifier_raw, happend hword, Option.bind_some,
      hfree]
    rfl

namespace Emission

/-! ## Endpoints -/

theorem Handler.name_of_ofOperation {ctx : Context} {interface : List Token}
    {dao : QualifiedName} {op : Operation} {name request : String} {handler : Handler}
    (h : ofOperation ctx interface dao op name request = .ok handler) : handler.name = name := by
  obtain ⟨method, _, h⟩ := Except.bind_eq_ok.mp h
  obtain ⟨fields, _, h⟩ := Except.bind_eq_ok.mp h
  obtain ⟨arguments, _, h⟩ := Except.bind_eq_ok.mp h
  split at h
  · cases h
  · obtain ⟨response, _, h⟩ := Except.bind_eq_ok.mp h
    cases Except.pure_eq_ok.mp h
    rfl

/-- The names of an endpoint are case forms of the name of its operation. -/
theorem Endpoint.names_of_ofOperation {ctx : Context} {interface : List Token}
    {dao : QualifiedName} (hdao : IsWord dao.simple) {op : Operation} (hop : IsWord op.name)
    {e : Endpoint} (h : ofOperation ctx interface dao op = .ok e) :
    e.route = "/" ++ dao.simple ++ "/" ++ camelCase (columnName op.name) ∧
      e.handler.name = snakeCase dao.simple ++ ("_" ++ snakeCase (columnName op.name)) ∧
      e.request.name = dao.simple ++ (pascalCase (columnName op.name) ++ "Request") := by
  have hname := isIdentifierContinue_columnName hop
  obtain ⟨requestName, hrequestName, h⟩ := Except.bind_eq_ok.mp h
  obtain ⟨handlerName, hhandlerName, h⟩ := Except.bind_eq_ok.mp h
  obtain ⟨request, hrequest, h⟩ := Except.bind_eq_ok.mp h
  obtain ⟨handler, hhandler, h⟩ := Except.bind_eq_ok.mp h
  cases Except.pure_eq_ok.mp h
  refine ⟨rfl, ?_, ?_⟩
  · have hword : IsWord (snakeCase dao.simple ++ ("_" ++ snakeCase (columnName op.name))) := by
      refine isWord_append (hasWordForm_snakeCase hdao) ?_ ⟨'_', by simp, by simp [neverRaw]⟩
      rw [String.toList_append, List.forall_mem_append]
      exact ⟨by simp [isIdentifierContinue], (Snakes.snakeCase _).isIdentifierContinue hname⟩
    rw [Handler.name_of_ofOperation hhandler]
    rw [String.append_assoc] at hhandlerName
    exact eq_of_parseName hword (identifier_eq_ok.mp hhandlerName)
  · have hword : IsWord (dao.simple ++ (pascalCase (columnName op.name) ++ "Request")) := by
      refine isWord_append (hasWordForm_of_isWord hdao) ?_ ⟨'q', by simp, by simp [neverRaw]⟩
      rw [String.toList_append, List.forall_mem_append]
      exact ⟨isIdentifierContinue_pascalCase hname, by simp [isIdentifierContinue]⟩
    rw [RequestStruct.name_of_ofOperation hrequest]
    refine eq_of_parseName hword (identifier_eq_ok.mp ?_)
    simpa [joinedName, String.join] using hrequestName

/-! ## Routers -/

namespace Router

theorem endpoints_of_ofDao {ctx : Context} {dao : Dao} {r : Router} (h : ofDao ctx dao = .ok r) :
    ∃ interface, List.Forall₂
      (fun op e => Endpoint.ofOperation ctx interface dao.name op = .ok e) dao.operations
        r.endpoints := by
  obtain ⟨imports, _, h⟩ := Except.bind_eq_ok.mp h
  obtain ⟨interface, _, h⟩ := Except.bind_eq_ok.mp h
  obtain ⟨name, _, h⟩ := Except.bind_eq_ok.mp h
  obtain ⟨endpoints, hendpoints, h⟩ := Except.bind_eq_ok.mp h
  cases Except.pure_eq_ok.mp h
  exact ⟨interface, Except.forall₂_of_mapM hendpoints⟩

/-- The names of the operations of a DAO, without the mark of raw identifiers. -/
def operationNames (dao : Dao) : List String := dao.operations.map fun op => columnName op.name

/-- What endpoints have is repeated just if it is made of forms of names that are. -/
theorem nodup_map_endpoints {ops : List Operation} {endpoints : List Endpoint}
    {P : Operation → Endpoint → Prop} (h : List.Forall₂ P ops endpoints)
    {get : Endpoint → String} {form wrap : String → String} (hwrap : Function.Injective wrap)
    (hget : ∀ op ∈ ops, ∀ e, P op e → get e = wrap (form (columnName op.name))) :
    (endpoints.map get).Nodup ↔ ((ops.map fun op => columnName op.name).map form).Nodup := by
  have hmap : endpoints.map get = ((ops.map fun op => columnName op.name).map form).map wrap := by
    induction h with
    | nil => rfl
    | cons hp _ ih =>
      obtain ⟨hfirst, hrest⟩ := List.forall_mem_cons.mp hget
      rw [List.map_cons, ih hrest, hfirst _ hp]
      rfl
  rw [hmap, List.nodup_map_iff hwrap]

/-- If one form tells names apart, so does a form that keeps apart what the first does. -/
theorem nodup_map_of_eq_of_eq {names : List String} {form finer : String → String}
    (hnodup : (names.map form).Nodup)
    (heq : ∀ a ∈ names, ∀ b ∈ names, finer a = finer b → form a = form b) :
    (names.map finer).Nodup := by
  refine hnodup.of_map.map_on fun a ha b hb hfiner => ?_
  exact List.inj_on_of_nodup_map hnodup ha hb (heq a ha b hb hfiner)

/-- The endpoints of a router are told apart just if the names of the operations are in each case
form: routes by camel case, handlers by snake case and requests by Pascal case. If all names are in
ASCII, distinct requests have distinct routes, and distinct routes distinct handlers. Conventional
names that are distinct are so in all forms. -/
theorem ofDao_nodup_iff {ctx : Context} {dao : Dao} {r : Router} (h : ofDao ctx dao = .ok r)
    (hdao : IsWord dao.name.simple) (hops : ∀ op ∈ dao.operations, IsWord op.name) :
    let routes := r.endpoints.map (·.route)
    let handlers := r.endpoints.map (·.handler.name)
    let requests := r.endpoints.map (·.request.name)
    (routes.Nodup ↔ ((operationNames dao).map camelCase).Nodup) ∧
      (handlers.Nodup ↔ ((operationNames dao).map snakeCase).Nodup) ∧
      (requests.Nodup ↔ ((operationNames dao).map pascalCase).Nodup) ∧
      ((∀ name ∈ operationNames dao, ∀ c ∈ name.toList, c.toNat < 0x80) →
        (requests.Nodup → routes.Nodup) ∧ (routes.Nodup → handlers.Nodup)) ∧
      ((∀ name ∈ operationNames dao, IsConventional name) → (operationNames dao).Nodup →
        routes.Nodup ∧ handlers.Nodup ∧ requests.Nodup) := by
  intro routes handlers requests
  obtain ⟨interface, hendpoints⟩ := endpoints_of_ofDao h
  have hnames (op : Operation) (hop : op ∈ dao.operations) (e : Endpoint)
      (he : Endpoint.ofOperation ctx interface dao.name op = .ok e) :=
    Endpoint.names_of_ofOperation hdao (hops op hop) he
  have hroute : Function.Injective fun form => "/" ++ dao.name.simple ++ "/" ++ form :=
    fun _ _ => (String.append_right_inj _).mp
  have hhandler : Function.Injective fun form => snakeCase dao.name.simple ++ ("_" ++ form) :=
    fun _ _ heq => (String.append_right_inj _).mp ((String.append_right_inj _).mp heq)
  have hrequest : Function.Injective fun form => dao.name.simple ++ (form ++ "Request") :=
    fun _ _ heq => (String.append_left_inj _).mp ((String.append_right_inj _).mp heq)
  have hroutes : routes.Nodup ↔ ((operationNames dao).map camelCase).Nodup :=
    nodup_map_endpoints hendpoints hroute fun op hop e he => (hnames op hop e he).1
  have hhandlers : handlers.Nodup ↔ ((operationNames dao).map snakeCase).Nodup :=
    nodup_map_endpoints hendpoints hhandler fun op hop e he => (hnames op hop e he).2.1
  have hrequests : requests.Nodup ↔ ((operationNames dao).map pascalCase).Nodup :=
    nodup_map_endpoints hendpoints hrequest fun op hop e he => (hnames op hop e he).2.2
  have hascii (hall : ∀ name ∈ operationNames dao, IsAscii name.toList) :
      (requests.Nodup → routes.Nodup) ∧ (routes.Nodup → handlers.Nodup) := by
    rw [hroutes, hhandlers, hrequests]
    refine ⟨fun hnodup => nodup_map_of_eq_of_eq hnodup fun a ha b hb heq => ?_,
      fun hnodup => nodup_map_of_eq_of_eq hnodup fun a ha b hb heq => ?_⟩
    · exact pascalCase_eq_of_camelCase_eq (hall a ha) (hall b hb) heq
    · exact camelCase_eq_of_snakeCase_eq (hall a ha) (hall b hb) heq
  refine ⟨hroutes, hhandlers, hrequests, fun hall => hascii fun name hname c hc => ?_,
    fun hall hnodup => ?_⟩
  · refine ⟨hall name hname c hc, ?_⟩
    obtain ⟨op, hop, rfl⟩ := List.mem_map.mp hname
    rintro rfl
    exact absurd (isIdentifierContinue_columnName (hops op hop) _ hc) (by decide)
  · have hpascal : requests.Nodup := by
      refine hrequests.mpr ((List.nodup_map_iff_inj_on hnodup).mpr fun a ha b hb => ?_)
      exact pascalCase_injOn (hall a ha) (hall b hb)
    obtain ⟨hcamel, hsnake⟩ := hascii fun name hname => (hall name hname).isAscii
    exact ⟨hcamel hpascal, hsnake (hcamel hpascal), hpascal⟩

/-- A DAO with two queries. -/
def twoQueries (first second : String) : String :=
  "#[dao] pub trait TagDao \x7b #[query(\"SELECT 1\")] async fn " ++ first ++
    "(&self) -> i64; #[query(\"SELECT 1\")] async fn " ++ second ++ "(&self) -> i64; \x7d"

/-- Two conventional names, one of which is spelled raw: nothing is repeated. -/
theorem ofDao_nodup_iff_raw :
    ∃ c dao op, Declares (twoQueries "by_name2" "r#type") c dao op ∧
      IsWord dao.name.simple ∧ (∀ op ∈ dao.operations, IsWord op.name) ∧
      (∀ name ∈ operationNames dao, IsConventional name) ∧ (operationNames dao).Nodup ∧
      ∃ r, ofDao .empty dao = .ok r ∧ (r.endpoints.map (·.route)).Nodup ∧
        (r.endpoints.map (·.handler.name)).Nodup ∧ (r.endpoints.map (·.request.name)).Nodup := by
  have hany : declaresAny (twoQueries "by_name2" "r#type") (fun dao _ =>
      dao.name.simple == "TagDao" && dao.operations.map (·.name) == ["by_name2", "r#type"] &&
        (ofDao .empty dao).toOption.isSome) = true := by
    decide +kernel
  obtain ⟨c, dao, op, hdeclares, hread⟩ := exists_of_declaresAny hany
  simp only [Bool.and_eq_true, beq_iff_eq, Option.isSome_iff_exists,
    Except.toOption_eq_some] at hread
  obtain ⟨⟨hsimple, hops⟩, r, hr⟩ := hread
  have hwords : ∀ op ∈ dao.operations, IsWord op.name := by
    have hall : ∀ name ∈ dao.operations.map (·.name), IsWord name := by
      rw [hops]
      decide
    exact fun op hop => hall _ (List.mem_map_of_mem hop)
  have hnames : operationNames dao = ["by_name2", "type"] := by
    have hmap : operationNames dao = (dao.operations.map (·.name)).map columnName := by
      simp [operationNames]
    rw [hmap, hops]
    decide
  have hconventional : ∀ name ∈ operationNames dao, IsConventional name := by
    rw [hnames, List.forall_mem_cons, List.forall_mem_singleton]
    exact ⟨⟨[.ofText "by" "" (by decide), .ofText "name" "2" (by decide)], by simp, by decide⟩,
      ⟨[.ofText "type" "" (by decide)], by simp, by decide⟩⟩
  have hdistinct : (operationNames dao).Nodup := by
    rw [hnames]
    decide
  have hword : IsWord dao.name.simple := by
    rw [hsimple]
    decide
  obtain ⟨_, _, _, _, hall⟩ := ofDao_nodup_iff hr hword hwords
  exact ⟨c, dao, op, hdeclares, hword, hwords, hconventional, hdistinct, r, hr,
    hall hconventional hdistinct⟩

/-- Two names of operations that differ can be the same in all case forms, and then the router
mounts one route twice, and has two handlers and two requests of one name. -/
theorem ofDao_repeats :
    ∃ c dao op, Declares (twoQueries "by_name" "byName") c dao op ∧
      (dao.operations.map (·.name)).Nodup ∧ ∃ r, ofDao .empty dao = .ok r ∧
        ¬ (r.endpoints.map (·.route)).Nodup ∧ ¬ (r.endpoints.map (·.handler.name)).Nodup ∧
        ¬ (r.endpoints.map (·.request.name)).Nodup := by
  have hany : declaresAny (twoQueries "by_name" "byName") (fun dao _ =>
      decide (dao.operations.map (·.name)).Nodup && (ofDao .empty dao).toOption.any fun r =>
        decide (¬ (r.endpoints.map (·.route)).Nodup ∧ ¬ (r.endpoints.map (·.handler.name)).Nodup ∧
          ¬ (r.endpoints.map (·.request.name)).Nodup)) = true := by
    decide +kernel
  obtain ⟨c, dao, op, hdeclares, hread⟩ := exists_of_declaresAny hany
  obtain ⟨hnames, hrouter⟩ := Bool.and_eq_true_iff.mp hread
  obtain ⟨r, hr, hrepeated⟩ := Except.exists_of_any hrouter
  exact ⟨c, dao, op, hdeclares, of_decide_eq_true hnames, r, hr, of_decide_eq_true hrepeated⟩

end Router

end Emission

end DaoGen
