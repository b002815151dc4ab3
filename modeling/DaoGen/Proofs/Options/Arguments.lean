import DaoGen.Proofs.Options.Value

/-!
# Options from arguments

Arguments are read one after the other. One that is for somebody else changes nothing, one with an
invalid value ends the reading, and any other one puts a setting into the options. Settings of one
key replace each other and those of different keys do not meet, so that the order of arguments only
matters where a key is given twice.

## Main definitions

* `Setting`: what one argument sets.
* `Gives`: the key and the value of an argument.
* `Sets`, `Faults`, `IsForeign`: the three kinds of arguments.

## Main results

* `isIn_of_apply`, `isIn_of_ofArgs`: what an argument does to the settings of the options, and what
  all of them come to.
* `ofArgs_eq_error_iff`: the error of the first argument with an invalid value.
* `ofArgs_robust`: how little the options depend on the arguments.
-/
namespace DaoGen.Options

open Text

/-! ## Settings -/

/-- What an argument can set. -/
inductive Setting where
  | targets (targets : List Target)
  | parallel (parallel : Bool)
  | runtime (name : String)
  deriving DecidableEq, Repr

/-- The known keys. -/
def keys : List String := [targetsKey, parallelKey, runtimeKey]

namespace Setting

/-- The key by which something is set. -/
def key : Setting → String
  | .targets _ => targetsKey
  | .parallel _ => parallelKey
  | .runtime _ => runtimeKey

/-- The options with a setting instead of the one that they have for its key. -/
def put (options : Options) : Setting → Options
  | .targets ts => { options with targets := ts }
  | .parallel b => { options with parallel := b }
  | .runtime name => { options with runtime := name }

/-- Options have a setting: it makes no difference to put it in. -/
def IsIn (s : Setting) (options : Options) : Prop := put options s = options

instance (s : Setting) (options : Options) : Decidable (s.IsIn options) :=
  inferInstanceAs (Decidable (_ = _))

variable {options : Options} {s s' : Setting}

theorem isIn_iff : s.IsIn options ↔ match s with
    | .targets ts => options.targets = ts
    | .parallel b => options.parallel = b
    | .runtime name => options.runtime = name := by
  obtain ⟨targets, parallel, runtime⟩ := options
  cases s <;> simp [IsIn, put, eq_comm]

theorem key_mem_keys (s : Setting) : s.key ∈ keys := by
  cases s <;> simp [key, keys]

/-- The last setting of a key replaces the ones before it. -/
theorem put_put (h : s.key = s'.key) : put (put options s) s' = put options s' := by
  cases s <;> cases s' <;> first | rfl | simp [key, targetsKey, parallelKey, runtimeKey] at h

/-- Settings of different keys do not meet. -/
theorem put_comm (h : s.key ≠ s'.key) : put (put options s) s' = put (put options s') s := by
  cases s <;> cases s' <;> first | rfl | exact absurd rfl h

theorem isIn_put_iff_of_eq (h : s.key = s'.key) : s.IsIn (put options s') ↔ s = s' := by
  rw [isIn_iff]
  cases s <;> cases s' <;> simp [key, targetsKey, parallelKey, runtimeKey, put, eq_comm] at h ⊢

theorem isIn_put_iff_of_ne (h : s.key ≠ s'.key) : s.IsIn (put options s') ↔ s.IsIn options := by
  rw [isIn_iff, isIn_iff]
  cases s <;> cases s' <;> first | exact absurd rfl h | rfl

end Setting

/-! ## Keys and values -/

/-- An argument gives a value for a key: they stand before and after its first equals sign, without
the blanks around them. -/
structure Gives (argument key value : String) : Prop where
  sides : ∃ before after, argument.toList = before ++ '=' :: after ∧ '=' ∉ before ∧
    IsAround isBlank key.toList before ∧ IsAround isBlank value.toList after
  key_tight : IsTight isBlank key.toList
  value_tight : IsTight isBlank value.toList

theorem keyAndValue?_eq_some_iff {argument key value : String} :
    keyAndValue? argument = some (key, value) ↔ Gives argument key value := by
  rw [keyAndValue?, Option.map_eq_some_iff]
  constructor
  · rintro ⟨⟨before, after⟩, hsplit, heq⟩
    obtain ⟨hkey, hvalue⟩ := Prod.mk.inj heq
    obtain ⟨hargument, hbefore⟩ := splitFirst?_eq_some_iff.mp hsplit
    obtain ⟨hkey, hkeyTight⟩ := trim_ofList_eq_iff.mp hkey
    obtain ⟨hvalue, hvalueTight⟩ := trim_ofList_eq_iff.mp hvalue
    exact ⟨⟨before, after, hargument, hbefore, hkey, hvalue⟩, hkeyTight, hvalueTight⟩
  · rintro ⟨⟨before, after, hargument, hbefore, hkey, hvalue⟩, hkeyTight, hvalueTight⟩
    refine ⟨(before, after), splitFirst?_eq_some_iff.mpr ⟨hargument, hbefore⟩, ?_⟩
    exact Prod.ext (trim_ofList_eq_iff.mpr ⟨hkey, hkeyTight⟩)
      (trim_ofList_eq_iff.mpr ⟨hvalue, hvalueTight⟩)

instance (argument key value : String) : Decidable (Gives argument key value) :=
  decidable_of_iff _ keyAndValue?_eq_some_iff

/-- An argument without an equals sign, or with a key that is not known. -/
def IsForeign (argument : String) : Prop :=
  '=' ∉ argument.toList ∨ ∃ key value, Gives argument key value ∧ key ∉ keys

/-! ## Readings -/

/-- A value says what is to be set. -/
def Says (value : String) : Setting → Prop
  | .targets ts => ts ≠ [] ∧ IsInOrder ts ∧ ListsTargets value {t | t ∈ ts}
  | .parallel b => ∃ word ∈ switchWords b, value.toList.map Char.toLower = word.toList
  | .runtime name => ¬ "r#".toList <+: (trimPrefix "::" value).toList ∧
    Code.parseName (trimPrefix "::" value) = some name

/-- What is wrong with a value for a known key. -/
inductive Refuses (value : String) : String → OptionError → Prop where
  | unsupported {before after : List (List Char)} {part : List Char}
    (hparts : value.toList.splitOn ',' = before ++ part :: after)
    (hbefore : ∀ earlier ∈ before, ¬ Target.IsUnknown earlier) (hpart : Target.IsUnknown part) :
    Refuses value targetsKey (.unsupportedTarget (String.ofList part))
  | noTargets (hblank : ∀ part ∈ value.toList.splitOn ',', ∀ c ∈ part, isBlank c = true) :
    Refuses value targetsKey (.invalidValue targetsKey value)
  | parallel (h : ∀ b, ¬ Says value (.parallel b)) :
    Refuses value parallelKey (.invalidValue parallelKey value)
  | runtime (h : ∀ name, ¬ Says value (.runtime name)) :
    Refuses value runtimeKey (.invalidValue runtimeKey value)

/-- What the value for a key is read as, if the key is known. -/
def reading? (key value : String) : Option (Except OptionError Setting) :=
  if key = targetsKey then some ((parseTargets value).map .targets)
  else if key = parallelKey then some ((parseSwitch key value).map .parallel)
  else if key = runtimeKey then some ((parseRuntime key value).map .runtime)
  else none

variable {key value argument : String} {s : Setting} {e : OptionError}

theorem reading?_eq_none_iff : reading? key value = none ↔ key ∉ keys := by
  simp only [reading?, keys, List.mem_cons, List.not_mem_nil, or_false, not_or]
  grind

theorem mem_keys_iff : key ∈ keys ↔ key = targetsKey ∨ key = parallelKey ∨ key = runtimeKey := by
  simp [keys]

theorem mem_keys_of_reading? {r : Except OptionError Setting} (h : reading? key value = some r) :
    key ∈ keys := by
  by_contra hkey
  rw [reading?_eq_none_iff.mpr hkey] at h
  cases h

/-- A value that says something is read as that. -/
theorem reading?_eq_ok_iff : reading? key value = some (.ok s) ↔ key = s.key ∧ Says value s := by
  constructor
  · intro h
    rcases mem_keys_iff.mp (mem_keys_of_reading? h) with rfl | rfl | rfl
    · obtain ⟨ts, hts, rfl⟩ := Except.map_eq_ok.mp (Option.some.inj h)
      exact ⟨rfl, parseTargets_eq_ok_iff.mp hts⟩
    · obtain ⟨b, hb, rfl⟩ := Except.map_eq_ok.mp (Option.some.inj h)
      exact ⟨rfl, parseSwitch_eq_ok_iff.mp hb⟩
    · obtain ⟨name, hname, rfl⟩ := Except.map_eq_ok.mp (Option.some.inj h)
      exact ⟨rfl, parseRuntime_eq_ok_iff.mp hname⟩
  · rintro ⟨rfl, hsaid⟩
    cases s with
    | targets ts =>
      exact congrArg some (Except.map_eq_ok.mpr ⟨ts, parseTargets_eq_ok_iff.mpr hsaid, rfl⟩)
    | parallel b =>
      exact congrArg some (Except.map_eq_ok.mpr ⟨b, parseSwitch_eq_ok_iff.mpr hsaid, rfl⟩)
    | runtime name =>
      exact congrArg some (Except.map_eq_ok.mpr ⟨name, parseRuntime_eq_ok_iff.mpr hsaid, rfl⟩)

/-- A value that says nothing is an error. -/
theorem reading?_eq_error_iff : reading? key value = some (.error e) ↔ Refuses value key e := by
  constructor
  · intro h
    have hsaid {s : Setting} (hs : key = s.key) : ¬ Says value s := by
      intro hsaid
      rw [reading?_eq_ok_iff.mpr ⟨hs, hsaid⟩] at h
      cases h
    rcases mem_keys_iff.mp (mem_keys_of_reading? h) with rfl | rfl | rfl
    · rcases parseTargets_eq_error_iff.mp (Except.map_eq_error.mp (Option.some.inj h)) with
        ⟨before, part, after, hparts, hbefore, hpart, rfl⟩ | ⟨hblank, rfl⟩
      · exact .unsupported hparts hbefore hpart
      · exact .noTargets hblank
    · cases parseSwitch_failsOnly parallelKey e (Except.map_eq_error.mp (Option.some.inj h))
      exact .parallel fun b => hsaid rfl
    · cases parseRuntime_failsOnly runtimeKey e (Except.map_eq_error.mp (Option.some.inj h))
      exact .runtime fun name => hsaid rfl
  · intro h
    cases h with
    | unsupported hparts hbefore hpart =>
      refine congrArg some (Except.map_eq_error.mpr (parseTargets_eq_error_iff.mpr (.inl ?_)))
      exact ⟨_, _, _, hparts, hbefore, hpart, rfl⟩
    | noTargets hblank =>
      refine congrArg some (Except.map_eq_error.mpr (parseTargets_eq_error_iff.mpr (.inr ?_)))
      exact ⟨hblank, rfl⟩
    | parallel hsaid =>
      refine congrArg some (Except.map_eq_error.mpr ?_)
      refine (parseSwitch_failsOnly parallelKey).eq_error fun b hb => ?_
      exact hsaid b (parseSwitch_eq_ok_iff.mp hb)
    | runtime hsaid =>
      refine congrArg some (Except.map_eq_error.mpr ?_)
      refine (parseRuntime_failsOnly runtimeKey).eq_error fun name hname => ?_
      exact hsaid name (parseRuntime_eq_ok_iff.mp hname)

/-! ## Single arguments -/

theorem Gives.unique {key' value' : String} (h : Gives argument key value)
    (h' : Gives argument key' value') : key = key' ∧ value = value' := by
  rw [← keyAndValue?_eq_some_iff] at h h'
  exact Prod.mk.inj (Option.some.inj (h.symm.trans h'))

theorem keyAndValue?_eq_none_iff : keyAndValue? argument = none ↔ '=' ∉ argument.toList := by
  rw [keyAndValue?, Option.map_eq_none_iff, splitFirst?_eq_none_iff]

/-- What an argument is read as: nothing if it is for somebody else. -/
def readArgument? (argument : String) : Option (Except OptionError Setting) :=
  (keyAndValue? argument).bind fun (key, value) => reading? key value

theorem readArgument?_eq_some_iff {r : Except OptionError Setting} :
    readArgument? argument = some r ↔
      ∃ key value, Gives argument key value ∧ reading? key value = some r := by
  rw [readArgument?, Option.bind_eq_some_iff]
  simp only [Prod.exists, keyAndValue?_eq_some_iff]

/-- An argument sets something: it gives a value that says so. -/
def Sets (argument : String) (s : Setting) : Prop :=
  ∃ value, Gives argument s.key value ∧ Says value s

/-- An argument gives a value that a known key cannot take. -/
def Faults (argument : String) (e : OptionError) : Prop :=
  ∃ key value, Gives argument key value ∧ Refuses value key e

/-- An argument gives a value for a known key that says nothing. -/
def IsInvalid (argument : String) : Prop :=
  ∃ key value, Gives argument key value ∧ key ∈ keys ∧ ∀ s : Setting, s.key = key → ¬ Says value s

theorem readArgument?_eq_none_iff : readArgument? argument = none ↔ IsForeign argument := by
  simp only [readArgument?, IsForeign, ← keyAndValue?_eq_none_iff, ← keyAndValue?_eq_some_iff]
  cases keyAndValue? argument with
  | none => simp
  | some both => simp [reading?_eq_none_iff, Prod.ext_iff]

theorem readArgument?_eq_ok_iff : readArgument? argument = some (.ok s) ↔ Sets argument s := by
  rw [readArgument?_eq_some_iff]
  simp only [reading?_eq_ok_iff, Sets]
  constructor
  · rintro ⟨_, value, hgives, rfl, hsaid⟩
    exact ⟨value, hgives, hsaid⟩
  · rintro ⟨value, hgives, hsaid⟩
    exact ⟨_, value, hgives, rfl, hsaid⟩

theorem readArgument?_eq_error_iff :
    readArgument? argument = some (.error e) ↔ Faults argument e := by
  rw [readArgument?_eq_some_iff]
  simp only [reading?_eq_error_iff, Faults]

instance (argument : String) : Decidable (IsForeign argument) :=
  decidable_of_iff _ readArgument?_eq_none_iff

theorem exists_faults_iff : (∃ e, Faults argument e) ↔ IsInvalid argument := by
  constructor
  · rintro ⟨e, key, value, hgives, hrefuses⟩
    have hreading := reading?_eq_error_iff.mpr hrefuses
    refine ⟨key, value, hgives, mem_keys_of_reading? hreading, fun s hs hsaid => ?_⟩
    rw [reading?_eq_ok_iff.mpr ⟨hs.symm, hsaid⟩] at hreading
    cases hreading
  · rintro ⟨key, value, hgives, hkey, hsaid⟩
    cases hreading : reading? key value with
    | none => exact absurd hkey (reading?_eq_none_iff.mp hreading)
    | some r =>
      cases r with
      | ok s =>
        obtain ⟨hs, hs'⟩ := reading?_eq_ok_iff.mp hreading
        exact absurd hs' (hsaid s hs.symm)
      | error e => exact ⟨e, key, value, hgives, reading?_eq_error_iff.mp hreading⟩

instance (argument : String) : Decidable (IsInvalid argument) :=
  decidable_of_iff (((readArgument? argument).bind Except.error?).isSome = true) (by
    simp only [← exists_faults_iff, ← readArgument?_eq_error_iff, Option.isSome_iff_exists,
      Option.bind_eq_some_iff, Except.error?_eq_some, exists_eq_right])

/-! ## Steps -/

variable {options options' : Options}

/-- What an argument does to options depends on what it is read as. -/
theorem apply_eq (options : Options) (argument : String) :
    apply options argument = match readArgument? argument with
      | none => .ok options
      | some r => r.map (Setting.put options) := by
  unfold apply readArgument?
  cases keyAndValue? argument with
  | none => rfl
  | some both =>
    obtain ⟨key, value⟩ := both
    simp only [Option.bind_some, reading?]
    split
    · cases parseTargets value <;> rfl
    · split
      · cases parseSwitch key value <;> rfl
      · split
        · cases parseRuntime key value <;> rfl
        · rfl

theorem apply_of_isForeign (h : IsForeign argument) : apply options argument = .ok options := by
  rw [apply_eq, readArgument?_eq_none_iff.mpr h]

theorem apply_of_sets (h : Sets argument s) : apply options argument = .ok (s.put options) := by
  rw [apply_eq, readArgument?_eq_ok_iff.mpr h]
  rfl

theorem apply_eq_error_iff : apply options argument = .error e ↔ Faults argument e := by
  rw [apply_eq, ← readArgument?_eq_error_iff]
  cases readArgument? argument with
  | none => simp
  | some r => simp [Except.map_eq_error]

/-- An argument that is applied is for somebody else, or sets something. -/
theorem apply_eq_ok_iff : apply options argument = .ok options' ↔
    IsForeign argument ∧ options = options' ∨ ∃ s, Sets argument s ∧ s.put options = options' := by
  simp only [apply_eq, ← readArgument?_eq_none_iff, ← readArgument?_eq_ok_iff]
  cases readArgument? argument with
  | none => simp
  | some r => simp [Except.map_eq_ok]

theorem Sets.unique {s' : Setting} (h : Sets argument s) (h' : Sets argument s') : s = s' := by
  rw [← readArgument?_eq_ok_iff] at h h'
  exact Except.ok.inj (Option.some.inj (h.symm.trans h'))

theorem IsForeign.not_gives (h : IsForeign argument) (hkey : key ∈ keys) (value : String) :
    ¬ Gives argument key value := by
  intro hgives
  rcases h with hequals | ⟨key', value', hgives', hkey'⟩
  · obtain ⟨before, after, hargument, _⟩ := hgives.sides
    simp [hargument] at hequals
  · exact hkey' ((hgives.unique hgives').1 ▸ hkey)

/-- After an argument options have what it sets, and what they had if it is about another key. -/
theorem isIn_of_apply (h : apply options argument = .ok options') :
    s.IsIn options' ↔ Sets argument s ∨
      (∀ value, ¬ Gives argument s.key value) ∧ s.IsIn options := by
  have hnone (hother : ∀ value, ¬ Gives argument s.key value) : ¬ Sets argument s := by
    rintro ⟨value, hgives, _⟩
    exact hother value hgives
  rcases apply_eq_ok_iff.mp h with ⟨hforeign, rfl⟩ | ⟨s', hsets, rfl⟩
  · have hother := hforeign.not_gives s.key_mem_keys
    rw [or_iff_right (hnone hother), and_iff_right hother]
  · have ⟨value, hgives, _⟩ := hsets
    by_cases hkey : s.key = s'.key
    · rw [Setting.isIn_put_iff_of_eq hkey]
      constructor
      · rintro rfl
        exact .inl hsets
      · rintro (hsets' | ⟨hother, _⟩)
        · exact hsets'.unique hsets
        · exact absurd (hkey ▸ hgives) (hother value)
    · have hother (value' : String) : ¬ Gives argument s.key value' :=
        fun hgives' => hkey (hgives'.unique hgives).1
      rw [Setting.isIn_put_iff_of_ne hkey, or_iff_right (hnone hother), and_iff_right hother]

/-! ## Runs -/

variable {arguments : List String}

/-- No argument gives a value for a key. -/
def IsAbsent (key : String) (arguments : List String) : Prop :=
  ∀ argument ∈ arguments, ∀ value, ¬ Gives argument key value

/-- The value that the last argument with a key gives for it. -/
def IsLast (key value : String) (arguments : List String) : Prop :=
  ∃ before argument after, arguments = before ++ argument :: after ∧ Gives argument key value ∧
    IsAbsent key after

theorem isAbsent_concat : IsAbsent key (arguments ++ [argument]) ↔
    IsAbsent key arguments ∧ ∀ value, ¬ Gives argument key value := by
  simp [IsAbsent, or_imp, forall_and]

theorem isLast_concat : IsLast key value (arguments ++ [argument]) ↔
    Gives argument key value ∨
      (∀ value, ¬ Gives argument key value) ∧ IsLast key value arguments := by
  constructor
  · rintro ⟨before, last, after, heq, hgives, hafter⟩
    cases after using List.reverseRecOn with
    | nil =>
      obtain ⟨rfl, hlast⟩ := List.append_inj' heq rfl
      exact .inl (List.singleton_inj.mp hlast ▸ hgives)
    | append_singleton after argument' =>
      rw [← List.cons_append, ← List.append_assoc] at heq
      obtain ⟨rfl, hlast⟩ := List.append_inj' heq rfl
      obtain rfl := List.singleton_inj.mp hlast
      obtain ⟨hafter, hargument⟩ := isAbsent_concat.mp hafter
      exact .inr ⟨hargument, before, last, after, rfl, hgives, hafter⟩
  · rintro (hgives | ⟨hargument, before, last, after, rfl, hgives, hafter⟩)
    · exact ⟨arguments, argument, [], rfl, hgives, List.forall_mem_nil _⟩
    · refine ⟨before, last, after ++ [argument], by simp, hgives, ?_⟩
      exact isAbsent_concat.mpr ⟨hafter, hargument⟩

/-- Options have those settings that the last values of their keys say, and the default ones for
keys that are not given. -/
theorem isIn_of_ofArgs (h : ofArgs arguments = .ok options) :
    s.IsIn options ↔ (∃ value, IsLast s.key value arguments ∧ Says value s) ∨
      IsAbsent s.key arguments ∧ s.IsIn {} := by
  induction arguments using List.reverseRecOn generalizing options with
  | nil =>
    cases h
    simp [IsLast, IsAbsent]
  | append_singleton arguments argument ih =>
    rw [ofArgs, List.foldlM_append] at h
    obtain ⟨before, hbefore, h⟩ := Except.bind_eq_ok.mp h
    simp only [List.foldlM_cons, List.foldlM_nil, bind_pure] at h
    rw [isIn_of_apply h, ih hbefore]
    simp only [isLast_concat, isAbsent_concat, Sets]
    grind

theorem targets_ofArgs (h : ofArgs arguments = .ok options) :
    options.targets ≠ [] ∧ IsInOrder options.targets := by
  have hisIn : (Setting.targets options.targets).IsIn options := rfl
  rcases (isIn_of_ofArgs h).mp hisIn with ⟨value, _, hsaid⟩ | ⟨_, hdefault⟩
  · exact ⟨hsaid.1, hsaid.2.1⟩
  · rw [← Setting.isIn_iff.mp hdefault]
    exact ⟨by decide, isInOrder_all⟩

/-- The error is that of the first argument with an invalid value. -/
theorem ofArgs_eq_error_iff : ofArgs arguments = .error e ↔
    ∃ before argument after, arguments = before ++ argument :: after ∧
      (∀ earlier ∈ before, ¬ IsInvalid earlier) ∧ Faults argument e := by
  have hfaults (options : Options) (argument : String) (e : OptionError) :
      apply options argument = .error e ↔ Faults argument e := apply_eq_error_iff
  rw [ofArgs, Except.foldlM_eq_error_iff hfaults]
  simp only [← exists_faults_iff, not_exists]

theorem exists_ofArgs_eq_error_iff :
    (∃ e, ofArgs arguments = .error e) ↔ ∃ argument ∈ arguments, IsInvalid argument := by
  simp only [ofArgs_eq_error_iff]
  constructor
  · rintro ⟨e, before, argument, after, rfl, _, hfaults⟩
    exact ⟨argument, by simp, exists_faults_iff.mp ⟨e, hfaults⟩⟩
  · rintro ⟨argument, hmem, hinvalid⟩
    have hfound : (arguments.find? (IsInvalid ·)).isSome = true :=
      List.find?_isSome.mpr ⟨argument, hmem, decide_eq_true hinvalid⟩
    obtain ⟨first, hfirst⟩ := Option.isSome_iff_exists.mp hfound
    obtain ⟨hinvalid, before, after, rfl, hbefore⟩ := List.find?_eq_some_iff_append.mp hfirst
    obtain ⟨e, hfaults⟩ := exists_faults_iff.mpr (of_decide_eq_true hinvalid)
    exact ⟨e, before, first, after, rfl, by simpa using hbefore, hfaults⟩

/-- Arguments for somebody else can be left out. -/
theorem ofArgs_filter (arguments : List String) :
    ofArgs (arguments.filter (¬ IsForeign ·)) = ofArgs arguments := by
  rw [ofArgs, List.foldlM_filter]
  congr 1
  funext options argument
  split
  · rfl
  · next h => exact (apply_of_isForeign (by simpa using h)).symm

theorem ofArgs_append_cons (before after : List String) (argument : String) :
    ofArgs (before ++ argument :: after) = ofArgs before >>= fun options =>
      apply options argument >>= fun options' => after.foldlM apply options' := by
  rw [ofArgs, List.foldlM_append]
  rfl

/-- Two values that list the same targets set the same, or nothing if these are none. -/
theorem sets_of_listsTargets {argument' value' : String} {targets : Set Target}
    (hgives : Gives argument targetsKey value) (hgives' : Gives argument' targetsKey value')
    (hlists : ListsTargets value targets) (hlists' : ListsTargets value' targets) :
    (∃ s, Sets argument s ∧ Sets argument' s) ∨
      targets = ∅ ∧ IsInvalid argument ∧ IsInvalid argument' := by
  rcases targets.eq_empty_or_nonempty with rfl | ⟨t, ht⟩
  · have hinvalid {argument value : String} (hgives : Gives argument targetsKey value)
        (hlists : ListsTargets value ∅) : IsInvalid argument := by
      refine exists_faults_iff.mp ⟨_, _, value, hgives, .noTargets fun part hpart => ?_⟩
      exact (hlists.parts part hpart).resolve_right (by simp)
    exact .inr ⟨rfl, hinvalid hgives hlists, hinvalid hgives' hlists'⟩
  · classical
    let ts := Target.all.filter (· ∈ targets)
    have hmem : {t | t ∈ ts} = targets := by
      ext t
      simp [ts, Target.mem_all]
    have hsaid {value : String} (hlists : ListsTargets value targets) :
        Says value (.targets ts) := by
      refine ⟨List.ne_nil_of_mem (a := t) ?_, ?_, hmem ▸ hlists⟩
      · exact hmem.symm.subset ht
      · exact isInOrder_all.sublist List.filter_sublist
    exact .inl ⟨.targets ts, ⟨value, hgives, hsaid hlists⟩, value', hgives', hsaid hlists'⟩

/-- What was set makes no difference where the key comes again. -/
theorem foldlM_apply_put (h : ∃ later ∈ arguments, ∃ value, Gives later s.key value) :
    arguments.foldlM apply (s.put options) = arguments.foldlM apply options := by
  induction arguments generalizing options with
  | nil =>
    obtain ⟨later, hlater, _⟩ := h
    cases hlater
  | cons argument arguments ih =>
    rw [List.foldlM_cons, List.foldlM_cons]
    have hrest (hother : ∀ value, ¬ Gives argument s.key value) :
        ∃ later ∈ arguments, ∃ value, Gives later s.key value := by
      obtain ⟨later, hlater, value, hgives⟩ := h
      rcases List.mem_cons.mp hlater with rfl | hlater
      · exact absurd hgives (hother value)
      · exact ⟨later, hlater, value, hgives⟩
    cases hread : readArgument? argument with
    | none =>
      have hforeign := readArgument?_eq_none_iff.mp hread
      rw [apply_of_isForeign hforeign, apply_of_isForeign hforeign]
      exact ih (hrest (hforeign.not_gives s.key_mem_keys))
    | some r =>
      cases r with
      | error e =>
        have hfaults := readArgument?_eq_error_iff.mp hread
        rw [apply_eq_error_iff.mpr hfaults, apply_eq_error_iff.mpr hfaults]
      | ok s' =>
        have hsets := readArgument?_eq_ok_iff.mp hread
        have ⟨value, hgives, _⟩ := hsets
        rw [apply_of_sets hsets, apply_of_sets hsets]
        by_cases hkey : s.key = s'.key
        · rw [Setting.put_put hkey]
        · rw [Setting.put_comm hkey]
          exact ih (hrest fun value' hgives' => hkey (hgives'.unique hgives).1)

/-- The options depend on little of the arguments. -/
theorem ofArgs_robust (arguments : List String) :
    -- arguments for others can stand anywhere
    (∀ others, others.filter (¬ IsForeign ·) = arguments.filter (¬ IsForeign ·) →
      ofArgs others = ofArgs arguments) ∧
    -- on success the targets are in order, and all settings are those of the last arguments
    (∀ options, ofArgs arguments = .ok options →
      options.targets ≠ [] ∧ IsInOrder options.targets ∧
      ∀ s : Setting, s.IsIn options ↔ (∃ value, IsLast s.key value arguments ∧ Says value s) ∨
        IsAbsent s.key arguments ∧ s.IsIn {}) ∧
    (∀ before argument after, arguments = before ++ argument :: after →
      -- another way to list the same targets gives the same options
      (∀ argument' value value' targets, Gives argument targetsKey value →
        Gives argument' targetsKey value' → ListsTargets value targets →
        ListsTargets value' targets →
        (ofArgs (before ++ argument' :: after)).toOption = (ofArgs arguments).toOption ∧
        (targets.Nonempty → ofArgs (before ++ argument' :: after) = ofArgs arguments)) ∧
      -- what is set does not count where the key comes again
      (∀ s, Sets argument s → ¬ IsAbsent s.key after →
        ofArgs (before ++ after) = ofArgs arguments)) ∧
    -- an invalid value is an error, the first one is reported
    ((∃ e, ofArgs arguments = .error e) ↔ ∃ argument ∈ arguments, IsInvalid argument) ∧
    ∀ e, ofArgs arguments = .error e ↔
      ∃ before argument after, arguments = before ++ argument :: after ∧
        (∀ earlier ∈ before, ¬ IsInvalid earlier) ∧ Faults argument e := by
  refine ⟨?_, ?_, ?_, exists_ofArgs_eq_error_iff, fun e => ofArgs_eq_error_iff⟩
  · intro others hothers
    rw [← ofArgs_filter others, hothers, ofArgs_filter]
  · intro options h
    exact ⟨(targets_ofArgs h).1, (targets_ofArgs h).2, fun s => isIn_of_ofArgs h⟩
  · rintro before argument after rfl
    constructor
    · intro argument' value value' targets hgives hgives' hlists hlists'
      rcases sets_of_listsTargets hgives hgives' hlists hlists' with
        ⟨s, hsets, hsets'⟩ | ⟨rfl, hinvalid, hinvalid'⟩
      · have hsame :
            ofArgs (before ++ argument' :: after) = ofArgs (before ++ argument :: after) := by
          simp only [ofArgs_append_cons, apply_of_sets hsets, apply_of_sets hsets']
        exact ⟨congrArg _ hsame, fun _ => hsame⟩
      · have hnone {argument : String} (hinvalid : IsInvalid argument) :
            (ofArgs (before ++ argument :: after)).toOption = none := by
          have hmem : argument ∈ before ++ argument :: after := by simp
          obtain ⟨e, he⟩ := exists_ofArgs_eq_error_iff.mpr ⟨argument, hmem, hinvalid⟩
          rw [he]
          rfl
        refine ⟨by rw [hnone hinvalid, hnone hinvalid'], fun hnonempty => ?_⟩
        exact absurd hnonempty Set.not_nonempty_empty
    · intro s hsets hagain
      rw [IsAbsent] at hagain
      push Not at hagain
      rw [ofArgs_append_cons, ofArgs, List.foldlM_append]
      refine bind_congr fun options => ?_
      rw [apply_of_sets hsets]
      exact (foldlM_apply_put hagain).symm

theorem ofArgs_robust_mixed :
    let arguments := ["verbose", "replikit.parallel=no", "replikit.targets = JS,, android ,wasm",
      "replikit.parallel=Yes"]
    let options : Options := { targets := [.mobile, .browser], parallel := true }
    ofArgs arguments = .ok options ∧
    ofArgs arguments.tail = .ok options ∧
    (Setting.parallel true).IsIn options ∧
    ofArgs ["verbose", "replikit.parallel=no", "replikit.targets=mobile,browser",
      "replikit.parallel=Yes"] = .ok options ∧
    ofArgs ["verbose", "replikit.targets = JS,, android ,wasm", "replikit.parallel=Yes"] =
      .ok options ∧
    ofArgs ["replikit.parallel=maybe", "replikit.targets=ios"] =
      .error (.invalidValue parallelKey "maybe") := by
  intro arguments options
  obtain ⟨hforeign, hsettings, hplace, _, _⟩ := ofArgs_robust arguments
  have hok : ofArgs arguments = .ok options := by decide +kernel
  have hlists {value : String} (h : parseTargets value = .ok [.mobile, .browser]) :
      ListsTargets value {t | t ∈ [Target.mobile, .browser]} := (parseTargets_eq_ok_iff.mp h).2.2
  refine ⟨hok, ?_, ?_, ?_, ?_, ?_⟩
  · exact (hforeign arguments.tail (by decide +kernel)).trans hok
  · obtain ⟨_, _, hsettings⟩ := hsettings options hok
    refine (hsettings (.parallel true)).mpr (.inl ⟨"Yes", ?_, "yes", by decide, by decide⟩)
    exact ⟨arguments.take 3, _, [], rfl, by decide +kernel, List.forall_mem_nil _⟩
  · have hsame := (hplace (arguments.take 2) _ ["replikit.parallel=Yes"] rfl).1
    refine ((hsame _ "JS,, android ,wasm" "mobile,browser" {t | t ∈ [Target.mobile, .browser]}
      ?_ ?_ ?_ ?_).2 ⟨.mobile, ?_⟩).trans hok
    · decide +kernel
    · decide +kernel
    · exact hlists (by decide +kernel)
    · exact hlists (by decide +kernel)
    · simp
  · have hagain := (hplace ["verbose"] _ (arguments.drop 2) rfl).2 (.parallel false)
    refine (hagain ⟨"no", by decide +kernel, "no", by decide, by decide⟩ ?_).trans hok
    exact fun h => h "replikit.parallel=Yes" (by simp [arguments]) "Yes" (by decide +kernel)
  · obtain ⟨_, _, _, _, herror⟩ :=
      ofArgs_robust ["replikit.parallel=maybe", "replikit.targets=ios"]
    refine (herror _).mpr ⟨[], _, _, rfl, List.forall_mem_nil _, _, "maybe", ?_, .parallel ?_⟩
    · decide +kernel
    · unfold Says
      decide

end DaoGen.Options
