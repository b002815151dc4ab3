import DaoGen.TypeRef.Normal
import Mathlib.Algebra.GroupWithZero.Nat

/-!
# Meaning of types

A `TypeRef` is written as a term of names and arguments, in which the mark for absent values is an
`Option` around the type. Terms that differ in names of the same type mean the same, so the meaning
of a type is its term with common names in place of transparent aliases.
-/
namespace DaoGen

/-- A type as a term. Slices have the name `[]`, as in a `TypeRef`. -/
inductive ValueType where
  | named (name : String) (args : List ValueType)
  | ref (target : ValueType)
  /-- a type that is to be inferred -/
  | hole
  deriving Repr, Inhabited

namespace ValueType

def option (t : ValueType) : ValueType := .named "Option" [t]

def vec (t : ValueType) : ValueType := .named "Vec" [t]

theorem option_injective : Function.Injective option := fun t u h => by simpa [option] using h

theorem vec_injective : Function.Injective vec := fun t u h => by simpa [vec] using h

mutual

/-- The text of a type in source code. -/
def text : ValueType → String
  | .named name args =>
    let inside := ", ".intercalate (textList args)
    if name = "[]" then "[" ++ inside ++ "]"
    else if args.isEmpty then name
    else name ++ "<" ++ inside ++ ">"
  | .ref target => "&" ++ target.text
  | .hole => "_"

def textList : List ValueType → List String
  | [] => []
  | t :: rest => t.text :: textList rest

end

mutual

/-- The number of names and references in a type. -/
def size : ValueType → Nat
  | .named _ args => 1 + sizeList args
  | .ref target => 1 + target.size
  | .hole => 1

def sizeList : List ValueType → Nat
  | [] => 0
  | t :: rest => t.size + sizeList rest

end

theorem sizeList_eq_sum (ts : List ValueType) : sizeList ts = (ts.map size).sum := by
  induction ts with
  | nil => rfl
  | cons t rest ih => simp [sizeList, ih]

@[simp] theorem size_named (name : String) (ts : List ValueType) :
    (named name ts).size = 1 + (ts.map size).sum := by rw [size, sizeList_eq_sum]

@[simp] theorem size_option (t : ValueType) : t.option.size = 1 + t.size := by simp [option]

@[simp] theorem size_vec (t : ValueType) : t.vec.size = 1 + t.size := by simp [vec]

end ValueType

/-! ## Aliases -/

/-- The common names of types that some platform has another name for. -/
def commonNames : List String :=
  Alias.primitives ++ ["String", "Vec", "Box", "Rc", "Arc", "Option", "HashMap", "HashSet",
    "BTreeMap", "BTreeSet"]

/-- The common names of the types that nominal aliases are converted into. -/
def wrappedNames : List String := ["String", "f64", "bool", "i64"]

namespace Alias

/-- An alias in the tables. -/
def IsKnown (a : Alias) : Prop :=
  a.canonical ∈ commonNames ∧ (a.nominal = true → a.canonical ∈ wrappedNames)

instance (a : Alias) : Decidable a.IsKnown := inferInstanceAs (Decidable (_ ∧ _))

theorem isKnown_of_ofMachine? {name : String} {a : Alias} (h : ofMachine? name = some a) :
    a.IsKnown := by
  unfold ofMachine? at h
  split at h <;> first | (cases h; decide) | cases h

theorem isKnown_of_ofBrowser? {name : String} {a : Alias} (h : ofBrowser? name = some a) :
    a.IsKnown := by
  unfold ofBrowser? at h
  split at h <;> first | (cases h; decide) | cases h

theorem isKnown_of_ofForeign? {name : String} {a : Alias} (h : ofForeign? name = some a) :
    a.IsKnown := by
  unfold ofForeign? at h
  split at h <;> first | (cases h; decide) | cases h

theorem isKnown_of_ofLibrary? {name : String} {a : Alias} (h : ofLibrary? name = some a) :
    a.IsKnown := by
  unfold ofLibrary? at h
  split at h
  · split at h
    · next hprimitive =>
      cases h
      exact ⟨List.mem_append_left _ (List.contains_iff_mem.mp hprimitive), nofun⟩
    · cases h
  · split at h
    · exact isKnown_of_ofForeign? h
    · split at h <;> first | (cases h; decide) | cases h

theorem isKnown_of_alias? {name : String} {a : Alias} (h : alias? name = some a) : a.IsKnown := by
  unfold alias? at h
  dsimp only at h
  split at h
  · next hmachine => exact isKnown_of_ofMachine? (hmachine.trans h)
  · split at h
    · exact isKnown_of_ofBrowser? h
    · obtain ⟨path, _, hlibrary⟩ := Option.bind_eq_some_iff.mp h
      exact isKnown_of_ofLibrary? hlibrary

end Alias

/-- The common name behind an alias is not an alias itself. -/
theorem alias?_canonical {name : String} {a : Alias} (h : alias? name = some a) :
    alias? a.canonical = none := by
  have hall : ∀ name ∈ commonNames, alias? name = none := by decide
  exact hall a.canonical (Alias.isKnown_of_alias? h).1

/-- Whether a name is that of a type of its own with the values of a common one. -/
def isNominal (name : String) : Bool := (alias? name).any (·.nominal)

theorem canonicalName_mem_wrappedNames {name : String} (h : isNominal name = true) :
    canonicalName name ∈ wrappedNames := by
  obtain ⟨a, ha, hnominal⟩ := (Option.any_eq_true _ _).mp h
  rw [canonicalName, ha, Option.elim_some]
  exact (Alias.isKnown_of_alias? ha).2 hnominal

/-- The name of a type without transparent aliases. -/
def transparentName (name : String) : String := if isNominal name then name else canonicalName name

theorem transparentName_eq {name : String} (h : isNominal name = false) :
    transparentName name = canonicalName name := by simp [transparentName, h]

theorem alias?_canonicalName (name : String) (h : alias? name ≠ none) :
    alias? (canonicalName name) = none := by
  obtain ⟨a, ha⟩ := Option.ne_none_iff_exists'.mp h
  simpa [canonicalName, ha] using alias?_canonical ha

theorem canonicalName_eq_self {name : String} (h : alias? name = none) :
    canonicalName name = name := by rw [canonicalName, h, Option.elim_none]

/-- The common name of a common name is the same. -/
@[simp] theorem canonicalName_canonicalName (name : String) :
    canonicalName (canonicalName name) = canonicalName name := by
  by_cases h : alias? name = none
  · rw [canonicalName_eq_self h, canonicalName_eq_self h]
  · exact canonicalName_eq_self (alias?_canonicalName name h)

@[simp] theorem isNominal_canonicalName (name : String) :
    isNominal (canonicalName name) = false := by
  by_cases h : alias? name = none
  · rw [canonicalName_eq_self h, isNominal, h, Option.any_none]
  · rw [isNominal, alias?_canonicalName name h, Option.any_none]

@[simp] theorem transparentName_canonicalName (name : String) :
    transparentName (canonicalName name) = canonicalName name := by
  simp [transparentName]

/-! ## Meaning -/

namespace ValueType

mutual

/-- A type without transparent aliases. -/
def resolve : ValueType → ValueType
  | .named name args => .named (transparentName name) (resolveList args)
  | .ref target => .ref target.resolve
  | .hole => .hole

def resolveList : List ValueType → List ValueType
  | [] => []
  | t :: rest => t.resolve :: resolveList rest

end

theorem resolveList_eq_map (ts : List ValueType) : resolveList ts = ts.map resolve := by
  induction ts with
  | nil => rfl
  | cons t rest ih => simp [resolveList, ih]

@[simp] theorem resolve_option (t : ValueType) : t.option.resolve = t.resolve.option := by
  have hname : transparentName "Option" = "Option" := by decide
  simp [option, resolve, resolveList, hname]

end ValueType

namespace TypeRef

mutual

/-- A type as a term. -/
def written : TypeRef → ValueType
  | ⟨name, args, nullable, reference⟩ =>
    let base := ValueType.named name (writtenArgs args)
    let base := if reference then .ref base else base
    if nullable then base.option else base

def writtenArgs : List (TypeArg TypeRef) → List ValueType
  | [] => []
  | arg :: rest => writtenArg arg :: writtenArgs rest

def writtenArg : TypeArg TypeRef → ValueType
  | .type _ ty => written ty
  | .star => .hole

end

mutual

/-- The term of a type is how the type is written. -/
theorem text_written : (t : TypeRef) → t.written.text = t.render
  | ⟨name, args, nullable, reference⟩ => by
    have hargs := textList_writtenArgs args
    have hempty : (writtenArgs args).isEmpty = args.isEmpty := by cases args <;> rfl
    cases nullable <;> cases reference <;>
      simp [written, render, ValueType.text, ValueType.option, ValueType.textList, hargs, hempty]

theorem textList_writtenArgs :
    (args : List (TypeArg TypeRef)) → ValueType.textList (writtenArgs args) = renderArgs args
  | [] => rfl
  | arg :: rest => by
    rw [writtenArgs, renderArgs, ValueType.textList, text_writtenArg arg,
      textList_writtenArgs rest]

theorem text_writtenArg : (arg : TypeArg TypeRef) → (writtenArg arg).text = renderArg arg
  | .type _ ty => by rw [writtenArg, renderArg, text_written ty]
  | .star => rfl

end

/-- What a type means: its term without transparent aliases. -/
def meaning (t : TypeRef) : ValueType := t.written.resolve

/-- A mark for absent values puts an `Option` around a type that has none. -/
theorem meaning_nullable (t : TypeRef) :
    meaning { t with nullable := true } = if t.nullable then t.meaning else t.meaning.option := by
  obtain ⟨name, args, nullable, reference⟩ := t
  cases nullable <;> simp [meaning, written]

/-- The meaning of a type with plain arguments. -/
theorem meaning_generic (name : String) (ts : List TypeRef) :
    (generic name ts).meaning = .named (transparentName name) (ts.map meaning) := by
  have hargs : writtenArgs (ts.map (.type .invariant)) = ts.map written := by
    induction ts with
    | nil => rfl
    | cons t rest ih => simp [writtenArgs, writtenArg, ih]
  simp [meaning, generic, written, hargs, ValueType.resolve, ValueType.resolveList_eq_map,
    Function.comp_def]

end TypeRef

/-! ## Values -/

/-- Whether values of a type have no known size: texts, slices and trait objects. -/
def isUnsizedName (name : String) : Bool :=
  name == "str" || name == "[]" || (Text.stripPrefix? "dyn " name).isSome

namespace ValueType

def isSized : ValueType → Bool
  | .named name _ => !isUnsizedName (canonicalName name)
  | .ref _ | .hole => true

mutual

/-- Whether options and lists inside a type are of something with a known size. -/
def isWellFormed : ValueType → Bool
  | .named name args =>
    areWellFormed args && (!(name == "Option" || name == "Vec") || args.all isSized)
  | .ref target => target.isWellFormed
  | .hole => true

def areWellFormed : List ValueType → Bool
  | [] => true
  | t :: rest => t.isWellFormed && areWellFormed rest

end

/-- Whether an expression can have the type. -/
def isValue (t : ValueType) : Bool := t.isWellFormed && t.isSized

@[simp] theorem isSized_option (t : ValueType) : t.option.isSized = true := by
  have hsize : isUnsizedName (canonicalName "Option") = false := by decide
  simp [option, isSized, hsize]

@[simp] theorem isSized_vec (t : ValueType) : t.vec.isSized = true := by
  have hsize : isUnsizedName (canonicalName "Vec") = false := by decide
  simp [vec, isSized, hsize]

@[simp] theorem isValue_option (t : ValueType) : t.option.isValue = t.isValue := by
  rw [isValue, isSized_option]
  simp [isValue, option, isWellFormed, areWellFormed]

@[simp] theorem isValue_vec (t : ValueType) : t.vec.isValue = t.isValue := by
  rw [isValue, isSized_vec]
  simp [isValue, vec, isWellFormed, areWellFormed]

theorem isSized_of_isValue {t : ValueType} (h : t.isValue = true) : t.isSized = true := by
  simp only [isValue, Bool.and_eq_true] at h
  exact h.2

theorem isSized_of_isNominal {name : String} (h : isNominal name = true) (args : List ValueType) :
    (named name args).isSized = true := by
  have hall : ∀ name ∈ wrappedNames, isUnsizedName name = false := by decide
  simp [isSized, hall _ (canonicalName_mem_wrappedNames h)]

/-- A nominal alias and its common type have values. -/
theorem isValue_of_isNominal {name : String} (h : isNominal name = true) :
    (named name []).isValue = true ∧ (named (canonicalName name) []).isValue = true := by
  have hsize := isSized_of_isNominal h []
  rw [isSized] at hsize
  simp [isValue, isWellFormed, areWellFormed, isSized, hsize]

end ValueType

end DaoGen
