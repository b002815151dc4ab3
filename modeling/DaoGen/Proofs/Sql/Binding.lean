import DaoGen.Proofs.Sql.Scan
import Mathlib.Data.List.Nodup

/-!
# Bound queries

Binding can be read as one pass over the parts of a query, which supplies parameters as it meets
their names: with unnumbered placeholders at every use, with numbered ones at the first. The pass
gives a list of slots from which both the bound query and the written one can be told, so binding
loses nothing, and it leaves nothing to bind.
-/
namespace DaoGen

/-! ## First occurrences -/

section FirstOccurrences

variable {α β : Type} [BEq α] [LawfulBEq α] [BEq β] [LawfulBEq β]

theorem nodup_eraseDups (l : List α) : l.eraseDups.Nodup := by
  match l with
  | [] => exact List.nodup_nil
  | a :: rest =>
    rw [List.eraseDups_cons, List.nodup_cons]
    exact ⟨by simp [List.mem_eraseDups], nodup_eraseDups _⟩
termination_by l.length
decreasing_by exact Nat.lt_succ_of_le (List.length_filter_le _ _)

/-- First occurrences stay the first under a function that tells the items apart. -/
theorem eraseDups_map {f : α → β} (l : List α) (h : ∀ a ∈ l, ∀ b ∈ l, f a = f b → a = b) :
    (l.map f).eraseDups = l.eraseDups.map f := by
  match l with
  | [] => rfl
  | a :: rest =>
    have hfilter : (rest.map f).filter (fun b => !b == f a) =
        (rest.filter fun b => !b == a).map f := by
      rw [List.filter_map]
      refine congrArg (List.map f) (List.filter_congr fun b hb => ?_)
      have hiff : f b = f a ↔ b = a :=
        ⟨h b (.tail a hb) a List.mem_cons_self, fun hba => hba ▸ rfl⟩
      simp [hiff]
    rw [List.map_cons, List.eraseDups_cons, List.eraseDups_cons, List.map_cons, hfilter,
      eraseDups_map (rest.filter fun b => !b == a) fun b hb c hc =>
        h b (.tail a (List.mem_of_mem_filter hb)) c (.tail a (List.mem_of_mem_filter hc))]
termination_by l.length
decreasing_by exact Nat.lt_succ_of_le (List.length_filter_le _ _)

/-- The places of distinct items are those of the list in order. -/
theorem map_idxOf_self {l : List α} (h : l.Nodup) : l.map (l.idxOf ·) = List.range l.length := by
  refine List.ext_getElem (by simp) fun i hi _ => ?_
  simp [h.idxOf_getElem]

end FirstOccurrences

namespace Sql

/-! ## Slots -/

/-- A part of a bound query: a character of the written one, or a placeholder with the place of
its parameter among the supplied ones. -/
inductive Slot where
  | char (c : Char)
  | placeholder (place : Nat)
  deriving DecidableEq, Repr

namespace Slot

/-- The text of a slot in the bound query. -/
def text (dialect : Dialect) : Slot → List Char
  | .char c => [c]
  | .placeholder place => (dialect.placeholder (place + 1)).toList

/-- The text of a slot with the name of its parameter put back. -/
def restored (params : List String) : Slot → List Char
  | .char c => [c]
  | .placeholder place => ':' :: (params[place]?.getD "").toList

def place? : Slot → Option Nat
  | .char _ => none
  | .placeholder place => some place

end Slot

/-- The place of a parameter at one of its uses, and the parameters supplied up to it. -/
def supply (dialect : Dialect) (supplied : List (List Char)) (name : List Char) :
    Nat × List (List Char) :=
  match dialect with
  | .sqlite => (supplied.length, supplied ++ [name])
  | .postgres =>
    if name ∈ supplied then (supplied.idxOf name, supplied)
    else (supplied.length, supplied ++ [name])

/-- The parameters supplied after the use of some names. -/
def suppliedAfter (dialect : Dialect) (supplied names : List (List Char)) : List (List Char) :=
  names.foldl (fun supplied name => (supply dialect supplied name).2) supplied

/-- Binds parts in order, after some parameters have been supplied. -/
def slotsAfter (dialect : Dialect) (supplied : List (List Char)) : List Piece → List Slot
  | [] => []
  | .char c :: rest => .char c :: slotsAfter dialect supplied rest
  | .param name :: rest =>
    let (place, supplied) := supply dialect supplied name
    .placeholder place :: slotsAfter dialect supplied rest

/-- The slots of a query. -/
def slotsOf (dialect : Dialect) (sql : String) : List Slot :=
  slotsAfter dialect [] (piecesOf sql)

/-! ## One use -/

/-- A parameter is supplied at its place, and those supplied before stay where they are. -/
theorem supply_spec (dialect : Dialect) (supplied : List (List Char)) (name : List Char) :
    supplied <+: (supply dialect supplied name).2 ∧
      (supply dialect supplied name).2[(supply dialect supplied name).1]? = some name := by
  cases dialect with
  | sqlite => simp [supply]
  | postgres =>
    by_cases h : name ∈ supplied
    · simp [supply, h, List.getElem?_idxOf]
    · simp [supply, h]

/-- A numbered placeholder has the place at which its name stands first. -/
theorem idxOf_supply (supplied later : List (List Char)) (name : List Char) :
    ((supply .postgres supplied name).2 ++ later).idxOf name =
      (supply .postgres supplied name).1 := by
  by_cases h : name ∈ supplied
  · simp [supply, h, List.idxOf_append_of_mem]
  · simp [supply, h, List.idxOf_append_of_notMem]

/-! ## Supplied parameters -/

theorem suppliedAfter_cons (dialect : Dialect) (supplied : List (List Char)) (name : List Char)
    (names : List (List Char)) :
    suppliedAfter dialect supplied (name :: names) =
      suppliedAfter dialect (supply dialect supplied name).2 names := rfl

theorem prefix_suppliedAfter (dialect : Dialect) (supplied names : List (List Char)) :
    supplied <+: suppliedAfter dialect supplied names := by
  induction names generalizing supplied with
  | nil => exact List.prefix_rfl
  | cons name names ih => exact (supply_spec dialect supplied name).1.trans (ih _)

/-- Parameters stay at their places. -/
theorem getElem?_of_supply {dialect : Dialect} {supplied all : List (List Char)} {name : List Char}
    (h : (supply dialect supplied name).2 <+: all) :
    all[(supply dialect supplied name).1]? = some name := by
  obtain ⟨later, rfl⟩ := h
  have hplace := (supply_spec dialect supplied name).2
  obtain ⟨hlength, _⟩ := List.getElem?_eq_some_iff.mp hplace
  rw [List.getElem?_append_left hlength, hplace]

theorem suppliedAfter_sqlite (supplied names : List (List Char)) :
    suppliedAfter .sqlite supplied names = supplied ++ names := by
  induction names generalizing supplied with
  | nil => simp [suppliedAfter]
  | cons name names ih =>
    rw [suppliedAfter, List.foldl_cons, ← suppliedAfter, ih]
    simp [supply]

theorem suppliedAfter_postgres (supplied names : List (List Char)) :
    suppliedAfter .postgres supplied names = supplied ++ (names.removeAll supplied).eraseDups := by
  induction names generalizing supplied with
  | nil => simp [suppliedAfter, List.removeAll]
  | cons name names ih =>
    rw [suppliedAfter, List.foldl_cons, ← suppliedAfter, ih]
    by_cases h : name ∈ supplied
    · simp [supply, h, List.removeAll]
    · have hrest : names.removeAll (supplied ++ [name]) =
          (names.removeAll supplied).filter fun other => !other == name := by
        simp only [List.removeAll, List.filter_filter]
        refine List.filter_congr fun other _ => ?_
        by_cases hother : other = name <;> simp [hother]
      have hcons : (name :: names).removeAll supplied = name :: names.removeAll supplied := by
        simp [List.removeAll, h]
      rw [hcons, List.eraseDups_cons, ← hrest]
      simp [supply, h]

/-- The parameters that binding supplies are those of the pass. -/
theorem suppliedNames_eq (dialect : Dialect) (pieces : List Piece) :
    suppliedNames dialect pieces = suppliedAfter dialect [] (namesOf pieces) := by
  cases dialect with
  | sqlite => simp [suppliedNames, suppliedAfter_sqlite]
  | postgres => simp [suppliedNames, suppliedAfter_postgres, List.removeAll]

theorem prefix_suppliedNames (dialect : Dialect) (pieces : List Piece) :
    suppliedAfter dialect [] (namesOf pieces) <+: suppliedNames dialect pieces :=
  suppliedNames_eq dialect pieces ▸ List.prefix_rfl

/-! ## Texts of slots -/

@[simp] theorem namesOf_char (c : Char) (rest : List Piece) :
    namesOf (.char c :: rest) = namesOf rest := rfl

@[simp] theorem namesOf_param (name : List Char) (rest : List Piece) :
    namesOf (.param name :: rest) = name :: namesOf rest := rfl

/-- Slots have the text of the bound parts, whatever else is supplied later. -/
theorem text_slotsAfter {dialect : Dialect} {supplied all : List (List Char)} {pieces : List Piece}
    (h : suppliedAfter dialect supplied (namesOf pieces) <+: all) :
    (slotsAfter dialect supplied pieces).flatMap (Slot.text dialect) =
      pieces.flatMap (Piece.bound dialect all) := by
  induction pieces generalizing supplied with
  | nil => rfl
  | cons piece rest ih =>
    cases piece with
    | char c => simp [slotsAfter, Slot.text, Piece.bound, ih h]
    | param name =>
      rw [namesOf_param, suppliedAfter_cons] at h
      have hsupply : (supply dialect supplied name).2 <+: all :=
        (prefix_suppliedAfter dialect _ (namesOf rest)).trans h
      have hplace : dialect.placeholder ((supply dialect supplied name).1 + 1) =
          dialect.placeholder (all.idxOf name + 1) := by
        cases dialect with
        | sqlite => rfl
        | postgres =>
          obtain ⟨later, rfl⟩ := hsupply
          rw [idxOf_supply]
      simp [slotsAfter, Slot.text, Piece.bound, hplace, ih h]

/-- With the names put back, slots have the text that the parts were read from. -/
theorem restored_slotsAfter {dialect : Dialect} {supplied all : List (List Char)}
    {pieces : List Piece} (h : suppliedAfter dialect supplied (namesOf pieces) <+: all) :
    (slotsAfter dialect supplied pieces).flatMap (Slot.restored (all.map String.ofList)) =
      sourceOf pieces := by
  induction pieces generalizing supplied with
  | nil => rfl
  | cons piece rest ih =>
    cases piece with
    | char c => simp [slotsAfter, Slot.restored, sourceOf, Piece.source, ih h]
    | param name =>
      rw [namesOf_param, suppliedAfter_cons] at h
      have hplace := getElem?_of_supply ((prefix_suppliedAfter dialect _ (namesOf rest)).trans h)
      have hrest := ih h
      have htext : Slot.restored (all.map String.ofList)
          (.placeholder (supply dialect supplied name).1) = ':' :: name := by
        simp [Slot.restored, hplace]
      rw [slotsAfter, List.flatMap_cons, htext, hrest]
      rfl

/-! ## Places -/

/-- The places of the placeholders, in order. -/
def placesOf (slots : List Slot) : List Nat := slots.filterMap Slot.place?

/-- Unnumbered placeholders have their parameters in order. -/
theorem placesOf_sqlite (supplied : List (List Char)) (pieces : List Piece) :
    placesOf (slotsAfter .sqlite supplied pieces) =
      List.range' supplied.length (namesOf pieces).length := by
  induction pieces generalizing supplied with
  | nil => rfl
  | cons piece rest ih =>
    cases piece with
    | char c => exact ih supplied
    | param name =>
      rw [namesOf_param, List.length_cons, List.range'_succ]
      have hrest := ih (supplied ++ [name])
      rw [List.length_append, List.length_singleton] at hrest
      exact congrArg (supplied.length :: ·) hrest

/-- Numbered placeholders have the places at which their names stand first. -/
theorem placesOf_postgres {supplied all : List (List Char)} {pieces : List Piece}
    (h : suppliedAfter .postgres supplied (namesOf pieces) <+: all) :
    placesOf (slotsAfter .postgres supplied pieces) = (namesOf pieces).map (all.idxOf ·) := by
  induction pieces generalizing supplied with
  | nil => rfl
  | cons piece rest ih =>
    cases piece with
    | char c => exact ih h
    | param name =>
      rw [namesOf_param, suppliedAfter_cons] at h
      obtain ⟨later, hall⟩ := (prefix_suppliedAfter .postgres _ (namesOf rest)).trans h
      have hplace : all.idxOf name = (supply .postgres supplied name).1 := by
        rw [← hall, idxOf_supply]
      rw [namesOf_param, List.map_cons, hplace, ← ih h]
      rfl

/-- Every numbered parameter has its first placeholder after those of the ones before it. -/
theorem eraseDups_placesOf (pieces : List Piece) :
    (placesOf (slotsAfter .postgres [] pieces)).eraseDups =
      List.range (suppliedNames .postgres pieces).length := by
  have hnodup : (suppliedNames .postgres pieces).Nodup := nodup_eraseDups (namesOf pieces)
  rw [placesOf_postgres (prefix_suppliedNames .postgres pieces), eraseDups_map]
  · exact map_idxOf_self hnodup
  · intro name hname other _ heq
    exact (List.idxOf_inj (List.mem_eraseDups.mpr hname)).mp heq

/-! ## Slots that stay -/

theorem slotsAfter_append (dialect : Dialect) (supplied : List (List Char)) (ps qs : List Piece) :
    slotsAfter dialect supplied (ps ++ qs) = slotsAfter dialect supplied ps ++
      slotsAfter dialect (suppliedAfter dialect supplied (namesOf ps)) qs := by
  induction ps generalizing supplied with
  | nil => rfl
  | cons piece rest ih =>
    cases piece with
    | char c => exact congrArg (Slot.char c :: ·) (ih supplied)
    | param name => exact congrArg (Slot.placeholder _ :: ·) (ih _)

theorem slotsAfter_chars (dialect : Dialect) (supplied : List (List Char)) (cs : List Char)
    (qs : List Piece) : slotsAfter dialect supplied (cs.map .char ++ qs) =
      cs.map .char ++ slotsAfter dialect supplied qs := by
  induction cs with
  | nil => rfl
  | cons c cs ih => exact congrArg (Slot.char c :: ·) ih

theorem namesOf_append (ps qs : List Piece) : namesOf (ps ++ qs) = namesOf ps ++ namesOf qs :=
  List.filterMap_append

@[simp] theorem namesOf_chars (cs : List Char) : namesOf (cs.map .char) = [] := by
  induction cs with
  | nil => rfl
  | cons c cs ih => exact ih

/-- Some text of the written query stands unchanged in the bound one, between what has become of the
text before and what has become of the text after. -/
def Stays (slots : List Slot) (params : List String) (before kept after : List Char) : Prop :=
  ∃ ss ts, slots = ss ++ kept.map .char ++ ts ∧ ss.flatMap (Slot.restored params) = before ∧
    ts.flatMap (Slot.restored params) = after

/-- What is kept among the parts of a query stays. -/
theorem Keeps.stays {pieces : List Piece} {before kept after : List Char}
    (h : Keeps pieces before kept after) (dialect : Dialect) :
    Stays (slotsAfter dialect [] pieces) ((suppliedNames dialect pieces).map String.ofList) before
      kept after := by
  obtain ⟨ps, qs, rfl, hbefore, hafter⟩ := h
  have hall : suppliedNames dialect (ps ++ kept.map .char ++ qs) =
      suppliedAfter dialect (suppliedAfter dialect [] (namesOf ps)) (namesOf qs) := by
    rw [suppliedNames_eq, namesOf_append, namesOf_append, namesOf_chars, List.append_nil]
    exact List.foldl_append
  rw [hall, List.append_assoc, slotsAfter_append, slotsAfter_chars, ← List.append_assoc]
  refine ⟨_, _, rfl, ?_, ?_⟩
  · rw [restored_slotsAfter (prefix_suppliedAfter dialect _ _), hbefore]
  · rw [restored_slotsAfter List.prefix_rfl, hafter]

/-! ## Bound queries -/

theorem isNameChar_of_isDigit {c : Char} (h : c.isDigit = true) : isNameChar c = true := by
  simp [isNameChar, Char.isAlphanum, h]

/-- Placeholders are made of a mark and digits. -/
theorem mark_or_isNameChar_of_mem_placeholder {dialect : Dialect} {position : Nat} {c : Char}
    (h : c ∈ (dialect.placeholder position).toList) : c = '?' ∨ c = '$' ∨ isNameChar c = true := by
  cases dialect with
  | sqlite => exact .inl (by simpa [Dialect.placeholder] using h)
  | postgres =>
    have hdigits : c = '$' ∨ c ∈ Nat.toDigits 10 position := by
      simpa [Dialect.placeholder] using h
    exact .inr (hdigits.imp id fun hdigit =>
      isNameChar_of_isDigit (Nat.isDigit_of_mem_toDigits (by decide) (by decide) hdigit))

/-- Placeholders have no quotes and no colons. -/
theorem not_isQuote_of_mem_placeholder {dialect : Dialect} {position : Nat} {c : Char}
    (h : c ∈ (dialect.placeholder position).toList) : isQuote c = false ∧ c ≠ ':' := by
  obtain rfl | rfl | hname := mark_or_isNameChar_of_mem_placeholder h
  · decide
  · decide
  · exact not_isQuote_of_isNameChar hname

/-- All parts of a bound query are characters. -/
theorem piecesOf_bind (dialect : Dialect) (sql : String) :
    piecesOf (bind dialect sql).sql = (bind dialect sql).sql.toList.map .char := by
  let supplied := suppliedNames dialect (piecesOf sql)
  let text (name : List Char) := (dialect.placeholder (supplied.idxOf name + 1)).toList
  have hbound : Piece.bound dialect supplied = Piece.rewritten text := by
    funext piece
    cases piece <;> rfl
  have hsql : (bind dialect sql).sql.toList = rewrittenOf text (scan .plain sql.toList) := by
    rw [rewrittenOf, ← hbound]
    exact String.toList_ofList
  rw [piecesOf, hsql]
  exact scan_rewrittenOf (fun _ _ h => not_isQuote_of_mem_placeholder h) .plain sql.toList

/-- A query without parameters is bound as it is. -/
theorem bind_of_chars {sql : String} (h : piecesOf sql = sql.toList.map .char)
    (dialect : Dialect) : bind dialect sql = ⟨sql, []⟩ := by
  have hsupplied : suppliedNames dialect (sql.toList.map .char) = [] := by
    rw [suppliedNames_eq, namesOf_chars]
    rfl
  have htext : (sql.toList.map Piece.char).flatMap (Piece.bound dialect []) = sql.toList := by
    simp [List.flatMap_map, Piece.bound]
  simp only [bind, h, hsupplied, htext, String.ofList_toList, List.map_nil]

/-- A query is bound to slots without a loss: they are the bound query, and the written one when the
names of the parameters are put back; what is quoted and what is a cast stays; and nothing is left
to bind. -/
structure Lossless (dialect : Dialect) (sql : String) (bound : BoundQuery)
    (slots : List Slot) : Prop where
  text : slots.flatMap (Slot.text dialect) = bound.sql.toList
  restored : slots.flatMap (Slot.restored bound.params) = sql.toList
  quoted : ∀ before body after mark, sql.toList = before ++ (body ++ after) →
    openQuote before = some mark → mark ∉ body → Stays slots bound.params before body after
  colons : ∀ before after, sql.toList = before ++ ([':', ':'] ++ after) →
    openQuote before = none → Even (colonsAtEnd before) →
    Stays slots bound.params before [':', ':'] after
  complete : ∀ dialect', bind dialect' bound.sql = ⟨bound.sql, []⟩

theorem lossless_bind (dialect : Dialect) (sql : String) :
    Lossless dialect sql (bind dialect sql) (slotsOf dialect sql) where
  text := by
    rw [slotsOf, text_slotsAfter (prefix_suppliedNames dialect (piecesOf sql))]
    exact String.toList_ofList.symm
  restored := (restored_slotsAfter (prefix_suppliedNames dialect (piecesOf sql))).trans
    (sourceOf_scan sql.toList)
  quoted before body after mark hsql hopen hbody := by
    have hkeeps := keeps_quoted hopen hbody after
    rw [← hsql] at hkeeps
    exact hkeeps.stays dialect
  colons before after hsql hopen heven := by
    have hkeeps := keeps_colons hopen heven after
    rw [← hsql] at hkeeps
    exact hkeeps.stays dialect
  complete := bind_of_chars (piecesOf_bind dialect sql)

/-- Binding is lossless and complete on every dialect. Unnumbered placeholders take a parameter
each, in order; numbered ones share it, and the parameters are numbered in the order of their first
uses, which is that of the unnumbered ones without the later repetitions. -/
theorem bind_lossless (sql : String) :
    (∀ dialect, Lossless dialect sql (bind dialect sql) (slotsOf dialect sql)) ∧
      placesOf (slotsOf .sqlite sql) = List.range (bind .sqlite sql).params.length ∧
      (bind .postgres sql).params.Nodup ∧
      (placesOf (slotsOf .postgres sql)).eraseDups =
        List.range (bind .postgres sql).params.length ∧
      (bind .postgres sql).params = (bind .sqlite sql).params.eraseDups := by
  have hnames : (bind .postgres sql).params = (bind .sqlite sql).params.eraseDups := by
    refine (eraseDups_map (namesOf (piecesOf sql)) fun _ _ _ _ h => ?_).symm
    exact String.ofList_injective h
  refine ⟨fun dialect => lossless_bind dialect sql, ?_, ?_, ?_, hnames⟩
  · have hlength : (bind .sqlite sql).params.length = (namesOf (piecesOf sql)).length := by
      simp [bind, suppliedNames]
    rw [slotsOf, placesOf_sqlite, hlength, List.range_eq_range']
    rfl
  · exact hnames ▸ nodup_eraseDups _
  · have hlength : (bind .postgres sql).params.length =
        (suppliedNames .postgres (piecesOf sql)).length := by simp [bind]
    rw [slotsOf, eraseDups_placesOf, hlength]

/-- A cast and a quoted name stay, and a name that is used twice has one number. -/
example : bind .postgres "SELECT id::text FROM t WHERE note = ':skip' AND id = :id OR up = :id" =
    ⟨"SELECT id::text FROM t WHERE note = ':skip' AND id = $1 OR up = $1", ["id"]⟩ := by
  decide

end Sql

end DaoGen
