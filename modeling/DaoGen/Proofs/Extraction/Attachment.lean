import DaoGen.Extraction.Attachment
import DaoGen.Proofs.Failure
import Mathlib.Data.List.Induction

/-!
# Attachments by the first field of each role

Roles are given to fields by place, and a place without a field gives none. What becomes of an
attachment is said here of the roles as they are listed: the first field of each role counts, and
each later one is warned about, whether or not the attachment is accepted.

## Main definitions

* `Lacks`, `IsFirst`: a role is given to no field, or first to some field.
* `Repeat`, `IsRepeat`: a place where a role is given again.
* `IsFit`, `IsRefused`: fields that make up an attachment, and why there is none.

## Main results

* `holder?_holders_eq_some`, `holder?_holders_eq_none`: what is looked up is the first field.
* `exists_repeats`: the warnings are about the repeats, in order.
* `ofRoles_keepsFirst`: the attachment, the fault and the warnings for all roles.
-/
namespace DaoGen.Attachment

/-! ## Roles of fields -/

/-- A role is given to no field. -/
def Lacks (fields : List Field) (roles : List (AttachmentRole × Nat)) (role : AttachmentRole) :
    Prop := ∀ i, (role, i) ∈ roles → fields[i]? = none

/-- A role is given to a field, and to none before it. -/
def IsFirst (fields : List Field) (roles : List (AttachmentRole × Nat)) (role : AttachmentRole)
    (field : Field) : Prop :=
  ∃ before i after, roles = before ++ (role, i) :: after ∧ fields[i]? = some field ∧
    Lacks fields before role

/-- A place where a role is given to a field after it was first given to another one. -/
structure Repeat where
  place : Nat
  role : AttachmentRole
  first : Field
  field : Field

structure IsRepeat (fields : List Field) (roles : List (AttachmentRole × Nat)) (r : Repeat) :
    Prop where
  given : ∃ i, roles[r.place]? = some (r.role, i) ∧ fields[i]? = some r.field
  first : IsFirst fields (roles.take r.place) r.role r.first

/-- The warning about a repeat. -/
def Repeat.warning (entity : QualifiedName) (location : Option Location) (r : Repeat) :
    Diagnostic :=
  .warning (repeatedMessage entity r.role r.first r.field) location

section Holders

variable {fields : List Field} {roles : List (AttachmentRole × Nat)} {role : AttachmentRole}

theorem holder?_append (held held' : List (AttachmentRole × Field)) (role : AttachmentRole) :
    holder? (held ++ held') role = (holder? held role).or (holder? held' role) := by
  simp [holder?, List.find?_append, Option.map_or]

theorem holders_append (roles roles' : List (AttachmentRole × Nat)) :
    holders fields (roles ++ roles') = holders fields roles ++ holders fields roles' :=
  List.filterMap_append

theorem mem_holders {field : Field} :
    (role, field) ∈ holders fields roles ↔ ∃ i, (role, i) ∈ roles ∧ fields[i]? = some field := by
  simp [holders, List.mem_filterMap]

theorem holder?_holders_eq_none : holder? (holders fields roles) role = none ↔
    Lacks fields roles role := by
  rw [holder?, Option.map_eq_none_iff, List.find?_eq_none]
  constructor
  · intro h i hi
    by_contra hsome
    obtain ⟨field, hfield⟩ := Option.ne_none_iff_exists'.mp hsome
    exact h (role, field) (mem_holders.mpr ⟨i, hi, hfield⟩) (by simp)
  · rintro h ⟨role', field⟩ hmem hrole
    obtain ⟨i, hi, hfield⟩ := mem_holders.mp hmem
    cases beq_iff_eq.mp hrole
    simp [h i hi] at hfield

theorem IsFirst.cons {role' : AttachmentRole} {i : Nat} {field : Field}
    (h : IsFirst fields roles role field) (hnot : role' = role → fields[i]? = none) :
    IsFirst fields ((role', i) :: roles) role field := by
  obtain ⟨before, j, after, rfl, hfield, hlacks⟩ := h
  refine ⟨(role', i) :: before, j, after, rfl, hfield, ?_⟩
  intro k hk
  rcases List.mem_cons.mp hk with heq | hk
  · cases heq
    exact hnot rfl
  · exact hlacks k hk

/-- The field that is looked up is the first one of the role. -/
theorem holder?_holders_eq_some {field : Field} : holder? (holders fields roles) role = some field ↔
    IsFirst fields roles role field := by
  constructor
  · induction roles with
    | nil => nofun
    | cons head rest ih =>
      obtain ⟨role', i⟩ := head
      intro h
      have hrest (hnot : role' = role → fields[i]? = none)
          (h : holder? (holders fields rest) role = some field) :
          IsFirst fields ((role', i) :: rest) role field := (ih h).cons hnot
      cases hi : fields[i]? with
      | none => exact hrest (fun _ => hi) (by simpa [holders, hi] using h)
      | some field' =>
        by_cases hrole : role' = role
        · obtain rfl : field' = field := by simpa [holders, holder?, hi, hrole] using h
          exact ⟨[], i, rest, by rw [hrole, List.nil_append], hi, nofun⟩
        · exact hrest (absurd · hrole) (by simpa [holders, holder?, hi, hrole] using h)
  · rintro ⟨before, i, after, rfl, hfield, hlacks⟩
    rw [holders_append, holder?_append, holder?_holders_eq_none.mpr hlacks, Option.none_or]
    simp [holders, holder?, hfield]

/-- A role is given to a first field or to none. -/
theorem exists_isFirst_iff : (∃ field, IsFirst fields roles role field) ↔
    ¬ Lacks fields roles role := by
  simp only [← holder?_holders_eq_some, ← holder?_holders_eq_none]
  exact Option.ne_none_iff_exists'.symm

end Holders

/-! ## Repeats -/

section Repeats

variable {fields : List Field} {roles : List (AttachmentRole × Nat)} {role : AttachmentRole}
  {i : Nat} {r : Repeat}

theorem IsRepeat.place_lt (h : IsRepeat fields roles r) : r.place < roles.length := by
  obtain ⟨_, hgiven, _⟩ := h.given
  exact (List.getElem?_eq_some_iff.mp hgiven).1

/-- One more role can only be a repeat itself. -/
theorem isRepeat_append_singleton : IsRepeat fields (roles ++ [(role, i)]) r ↔
    IsRepeat fields roles r ∨ r.place = roles.length ∧ r.role = role ∧
      fields[i]? = some r.field ∧ IsFirst fields roles role r.first := by
  constructor
  · intro h
    have hlt := h.place_lt
    obtain ⟨⟨j, hgiven, hfield⟩, hfirst⟩ := h
    by_cases hplace : r.place < roles.length
    · rw [List.getElem?_append_left hplace] at hgiven
      rw [List.take_append_of_le_length (by omega)] at hfirst
      exact .inl ⟨⟨j, hgiven, hfield⟩, hfirst⟩
    · obtain hplace : r.place = roles.length := by simp at hlt; omega
      rw [hplace] at hgiven hfirst
      rw [List.getElem?_concat_length] at hgiven
      rw [List.take_left] at hfirst
      cases hgiven
      exact .inr ⟨hplace, rfl, hfield, hfirst⟩
  · rintro (h | ⟨hplace, rfl, hfield, hfirst⟩)
    · have hlt := h.place_lt
      obtain ⟨⟨j, hgiven, hfield⟩, hfirst⟩ := h
      refine ⟨⟨j, by rwa [List.getElem?_append_left hlt], hfield⟩, ?_⟩
      rwa [List.take_append_of_le_length (by omega)]
    · refine ⟨⟨i, by rw [hplace, List.getElem?_concat_length], hfield⟩, ?_⟩
      rwa [hplace, List.take_left]

/-- A field is warned about if its role has been met. -/
theorem repeatWarnings_append_singleton (entity : QualifiedName) (location : Option Location)
    (seen held : List (AttachmentRole × Field)) (role : AttachmentRole) (field : Field) :
    repeatWarnings entity location seen (held ++ [(role, field)]) =
      repeatWarnings entity location seen held ++
        ((holder? (seen ++ held) role).map fun first =>
          .warning (repeatedMessage entity role first field) location).toList := by
  induction held generalizing seen with
  | nil =>
    cases hfirst : holder? seen role <;> simp [repeatWarnings, hfirst]
  | cons head rest ih =>
    obtain ⟨role', field'⟩ := head
    cases hfirst : holder? seen role' with
    | none => simp [repeatWarnings, hfirst, ih]
    | some first =>
      -- the role of the head has been met, so the head is no first field
      have hsame :
          holder? (seen ++ (role', field') :: rest) role = holder? (seen ++ rest) role := by
        by_cases hrole : role' = role
        · simp [holder?_append, ← hrole, hfirst]
        · simp [holder?, List.find?_append, hrole]
      simp [repeatWarnings, hfirst, ih, hsame]

/-- The repeat that one more role is, if it is one. -/
def repeat? (fields : List Field) (roles : List (AttachmentRole × Nat)) (role : AttachmentRole)
    (i : Nat) : Option Repeat :=
  (fields[i]?).bind fun field =>
    (holder? (holders fields roles) role).map fun first => ⟨roles.length, role, first, field⟩

theorem repeat?_eq_some : repeat? fields roles role i = some r ↔
    r.place = roles.length ∧ r.role = role ∧ fields[i]? = some r.field ∧
      IsFirst fields roles role r.first := by
  obtain ⟨place, role', first, field⟩ := r
  simp only [repeat?, Option.bind_eq_some_iff, Option.map_eq_some_iff, Repeat.mk.injEq,
    ← holder?_holders_eq_some]
  grind

/-- The warnings are about the repeats, in the order of their places. -/
theorem exists_repeats (entity : QualifiedName) (location : Option Location) (fields : List Field)
    (roles : List (AttachmentRole × Nat)) :
    ∃ repeats : List Repeat, repeats.Pairwise (·.place < ·.place) ∧
      (∀ r, r ∈ repeats ↔ IsRepeat fields roles r) ∧
      repeatWarnings entity location [] (holders fields roles) =
        repeats.map (Repeat.warning entity location) := by
  induction roles using List.reverseRecOn with
  | nil =>
    have hnone (r : Repeat) : ¬ IsRepeat fields [] r := fun h => absurd h.place_lt (by simp)
    exact ⟨[], .nil, fun r => iff_of_false List.not_mem_nil (hnone r), rfl⟩
  | append_singleton roles head ih =>
    obtain ⟨role, i⟩ := head
    obtain ⟨repeats, hsorted, hmem, hwarnings⟩ := ih
    refine ⟨repeats ++ (repeat? fields roles role i).toList, ?_, fun r => ?_, ?_⟩
    · refine List.pairwise_append.mpr ⟨hsorted, ?_, fun a ha b hb => ?_⟩
      · cases repeat? fields roles role i <;> simp
      · have hlt := ((hmem a).mp ha).place_lt
        have hplace := (repeat?_eq_some.mp (Option.mem_toList.mp hb)).1
        omega
    · rw [List.mem_append, hmem, isRepeat_append_singleton, Option.mem_toList, repeat?_eq_some]
    · rw [holders_append, List.map_append, ← hwarnings]
      cases hfield : fields[i]? with
      | none => simp [holders, repeat?, hfield]
      | some field =>
        have hone : holders fields [(role, i)] = [(role, field)] := by simp [holders, hfield]
        rw [hone, repeatWarnings_append_singleton, List.nil_append]
        simp [repeat?, hfield, Repeat.warning, Option.toList_map, Function.comp_def]

end Repeats

/-! ## Attachments -/

/-- The first fields of all roles. -/
def AreFirst (fields : List Field) (roles : List (AttachmentRole × Nat))
    (first : AttachmentRole → Field) : Prop :=
  ∀ role, IsFirst fields roles role (first role)

/-- No field has two roles, by its name. -/
def AreDistinct (first : AttachmentRole → Field) : Prop :=
  ∀ role role', role ≠ role' → (first role).name ≠ (first role').name

/-- An attachment is made up of the first fields of all roles, which are distinct, and the size is
an integer. -/
structure IsMadeOf (fields : List Field) (roles : List (AttachmentRole × Nat))
    (first : AttachmentRole → Field) (attachment : Attachment) : Prop where
  areFirst : AreFirst fields roles first
  distinct : AreDistinct first
  size : (first .size).canonicalType.isInteger = true
  field : ∀ role, attachment.field role = (first role).name

/-- Why there is no attachment. A role without a field counts first, and of several such roles the
first in the order of `AttachmentRole.all`; then a field with two roles, then the size. -/
inductive IsRefused (fields : List Field) (roles : List (AttachmentRole × Nat)) : Fault → Prop where
  | missing {role : AttachmentRole} (before : List AttachmentRole) {after : List AttachmentRole}
    (hall : AttachmentRole.all = before ++ role :: after)
    (hbefore : ∀ r ∈ before, ¬ Lacks fields roles r) (hlacks : Lacks fields roles role) :
    IsRefused fields roles (.missingAttachmentField role)
  | shared {first : AttachmentRole → Field} (hfirst : AreFirst fields roles first)
    (hshared : ¬ AreDistinct first) : IsRefused fields roles .sharedAttachmentField
  | size {first : AttachmentRole → Field} (hfirst : AreFirst fields roles first)
    (hdistinct : AreDistinct first) (hsize : (first .size).canonicalType.isInteger = false) :
    IsRefused fields roles (.attachmentSizeNotInteger (first .size).name)

section Outcome

variable {fields : List Field} {roles : List (AttachmentRole × Nat)}
  {first : AttachmentRole → Field}

theorem areDistinct_iff : AreDistinct first ↔
    ¬ ((first .uri).name = (first .md5).name ∨ (first .uri).name = (first .size).name ∨
      (first .md5).name = (first .size).name) := by
  constructor
  · rintro h (heq | heq | heq)
    · exact h .uri .md5 nofun heq
    · exact h .uri .size nofun heq
    · exact h .md5 .size nofun heq
  · intro h role role' hne
    cases role <;> cases role' <;> grind

theorem require_of_isFirst {role : AttachmentRole} {field : Field}
    (h : IsFirst fields roles role field) : require (holders fields roles) role = .ok field := by
  rw [require, holder?_holders_eq_some.mpr h]

theorem require_of_lacks {role : AttachmentRole} (h : Lacks fields roles role) :
    require (holders fields roles) role = .error (.missingAttachmentField role) := by
  rw [require, holder?_holders_eq_none.mpr h]

/-- With a field for each role, only the checks of these fields are left. -/
theorem ofHolders_of_areFirst (h : AreFirst fields roles first) :
    ofHolders (holders fields roles) =
      if (first .uri).name = (first .md5).name ∨ (first .uri).name = (first .size).name ∨
          (first .md5).name = (first .size).name then
        .error .sharedAttachmentField
      else if !(first .size).canonicalType.isInteger then
        .error (.attachmentSizeNotInteger (first .size).name)
      else .ok ⟨(first .uri).name, (first .md5).name, (first .size).name⟩ := by
  rw [ofHolders, require_of_isFirst (h .uri), require_of_isFirst (h .md5),
    require_of_isFirst (h .size)]
  rfl

theorem IsMadeOf.ofHolders_eq {attachment : Attachment}
    (h : IsMadeOf fields roles first attachment) :
    ofHolders (holders fields roles) = .ok attachment := by
  have hattachment : attachment = ⟨(first .uri).name, (first .md5).name, (first .size).name⟩ := by
    rw [← h.field .uri, ← h.field .md5, ← h.field .size]
    rfl
  rw [ofHolders_of_areFirst h.areFirst, if_neg (areDistinct_iff.mp h.distinct), h.size, hattachment]
  rfl

theorem IsRefused.ofHolders_eq {fault : Fault} (h : IsRefused fields roles fault) :
    ofHolders (holders fields roles) = .error fault := by
  cases h with
  | shared hfirst hshared =>
    rw [areDistinct_iff, not_not] at hshared
    rw [ofHolders_of_areFirst hfirst, if_pos hshared]
  | size hfirst hdistinct hsize =>
    rw [ofHolders_of_areFirst hfirst, if_neg (areDistinct_iff.mp hdistinct), hsize]
    rfl
  | @missing role before after hall hbefore hlacks =>
    have hgiven : ∀ r ∈ before, ∃ field, require (holders fields roles) r = .ok field := by
      intro r hr
      obtain ⟨field, hfield⟩ := exists_isFirst_iff.mpr (hbefore r hr)
      exact ⟨field, require_of_isFirst hfield⟩
    have hmissing := require_of_lacks hlacks
    rw [ofHolders]
    cases role with
    | uri =>
      rw [hmissing]
      rfl
    | md5 =>
      have huri : .uri ∈ before := by cases before <;> simp_all [AttachmentRole.all]
      obtain ⟨uri, huri⟩ := hgiven .uri huri
      rw [huri, hmissing]
      rfl
    | size =>
      have hboth : .uri ∈ before ∧ .md5 ∈ before := by
        rcases before with _ | ⟨_, _ | ⟨_, _⟩⟩ <;> simp_all [AttachmentRole.all]
      obtain ⟨uri, huri⟩ := hgiven .uri hboth.1
      obtain ⟨md5, hmd5⟩ := hgiven .md5 hboth.2
      rw [huri, hmd5, hmissing]
      rfl

/-- The roles make up an attachment, or there is a reason why they do not. -/
theorem exists_isMadeOf_or_isRefused (fields : List Field) (roles : List (AttachmentRole × Nat)) :
    (∃ attachment first, IsMadeOf fields roles first attachment) ∨
      ∃ fault, IsRefused fields roles fault := by
  by_cases huri : Lacks fields roles .uri
  · exact .inr ⟨_, .missing [] rfl nofun huri⟩
  by_cases hmd5 : Lacks fields roles .md5
  · exact .inr ⟨_, .missing [.uri] rfl (by simpa using huri) hmd5⟩
  by_cases hsize : Lacks fields roles .size
  · exact .inr ⟨_, .missing [.uri, .md5] rfl (by simpa using ⟨huri, hmd5⟩) hsize⟩
  have hall (role : AttachmentRole) : ∃ field, IsFirst fields roles role field := by
    cases role <;> exact exists_isFirst_iff.mpr ‹_›
  obtain ⟨first, hfirst⟩ := Classical.skolem.mp hall
  by_cases hdistinct : AreDistinct first
  · cases hinteger : (first .size).canonicalType.isInteger with
    | true =>
      let attachment : Attachment :=
        ⟨(first .uri).name, (first .md5).name, (first .size).name⟩
      exact .inl ⟨attachment, first, hfirst, hdistinct, hinteger, fun role => by cases role <;> rfl⟩
    | false => exact .inr ⟨_, .size hfirst hdistinct hinteger⟩
  · exact .inr ⟨_, .shared hfirst hdistinct⟩

end Outcome

/-- An attachment that is not declared is none, with one warning if any role is given. A declared
one is made up of the first fields of all roles, or refused. Whatever becomes of it, there is one
warning for each repeat of a role, in the order of the places, and nothing else is said. -/
theorem ofRoles_keepsFirst (entity : QualifiedName) (location : Option Location)
    (fields : List Field) (roles : List (AttachmentRole × Nat)) :
    (ofRoles false fields roles = .ok none ∧
      warnings entity location false fields roles =
        if roles = [] then [] else [.warning (ignoredMessage entity) location]) ∧
    (∀ attachment?, ofRoles true fields roles = .ok attachment? ↔
      ∃ attachment first, attachment? = some attachment ∧
        IsMadeOf fields roles first attachment) ∧
    (∀ fault, ofRoles true fields roles = .error fault ↔ IsRefused fields roles fault) ∧
    ∃ repeats : List Repeat, repeats.Pairwise (·.place < ·.place) ∧
      (∀ r, r ∈ repeats ↔ IsRepeat fields roles r) ∧
      warnings entity location true fields roles =
        repeats.map fun r =>
          .warning (repeatedMessage entity r.role r.first r.field) location := by
  refine ⟨⟨rfl, by simp [warnings]⟩, fun attachment? => ?_, fun fault => ?_,
    exists_repeats entity location fields roles⟩
  · rw [ofRoles, if_pos rfl, Except.map_eq_ok]
    constructor
    · rintro ⟨attachment, hok, rfl⟩
      rcases exists_isMadeOf_or_isRefused fields roles with ⟨other, first, hmade⟩ | ⟨fault, hfault⟩
      · cases hok.symm.trans hmade.ofHolders_eq
        exact ⟨attachment, first, rfl, hmade⟩
      · cases hok.symm.trans hfault.ofHolders_eq
    · rintro ⟨attachment, first, rfl, hmade⟩
      exact ⟨attachment, hmade.ofHolders_eq, rfl⟩
  · rw [ofRoles, if_pos rfl, Except.map_eq_error]
    constructor
    · intro herror
      rcases exists_isMadeOf_or_isRefused fields roles with ⟨other, first, hmade⟩ | ⟨fault, hfault⟩
      · cases herror.symm.trans hmade.ofHolders_eq
      · cases herror.symm.trans hfault.ofHolders_eq
        exact hfault
    · exact IsRefused.ofHolders_eq

end DaoGen.Attachment
