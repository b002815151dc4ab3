import DaoGen.Proofs.Code.Words
import DaoGen.Proofs.Options.Arguments
import DaoGen.Proofs.Verdict

/-!
# The name of the runtime crate

Generated code calls a crate by the name that the options have for it. This text becomes an
identifier only when units are generated, through a function that panics on any text but a plain
identifier. The value of the option is checked when it is read: it may not begin with the mark of
raw identifiers. A reader of names skips gaps, though, so that a raw identifier behind a blank or a
comment passes this check, and is what the options then have.

## Main results

* `Options.isIdentifierText_runtime_iff`: which values have a plain identifier in them.
* `runPassWith_ofArgs`: which passes panic.
-/
namespace DaoGen

open Text

/-! ## Names in values -/

namespace Code

variable {text name : String}

/-- What is read as a name is a plain identifier, or one after the mark of raw identifiers. -/
theorem plain_or_raw_of_parseName (h : parseName text = some name) :
    isIdentifierText name.toList = true ∨
      ∃ word, isIdentifierText word.toList = true ∧ name = "r#" ++ word := by
  obtain ⟨_, chars, rest, hchars, _, rfl, _⟩ := parseName_eq_some_iff.mp h
  rcases identifier_eq_self (isWord_of_identifier hchars) with
    ⟨_, hplain⟩ | ⟨word, hraw, hplain, _⟩
  · exact .inl (plainIdentifier_eq_self_iff.mp hplain)
  · refine .inr ⟨String.ofList word, ?_, String.toList_injective ?_⟩
    · rw [String.toList_ofList]
      exact plainIdentifier_eq_self_iff.mp hplain
    · rw [hraw]
      simp

/-- A name is plain if no mark of raw identifiers stands behind the gaps at the front of a text. -/
theorem isIdentifierText_of_parseName (h : parseName text = some name) :
    isIdentifierText name.toList = true ↔ ¬ "r#".toList <+: ahead text := by
  obtain ⟨_, chars, rest, hchars, _, rfl, _⟩ := parseName_eq_some_iff.mp h
  rw [String.toList_ofList]
  constructor
  · rintro hplain ⟨tail, hraw⟩
    rw [← hraw] at hchars
    obtain ⟨⟨word, later⟩, _, hfound⟩ := Option.bind_eq_some_iff.mp (identifier_raw tail ▸ hchars)
    split at hfound
    · cases hfound
    · cases hfound
      exact hash_notMem_of_plainIdentifier (plainIdentifier_eq_self_iff.mpr hplain) (by simp)
  · intro hraw
    have hfront (tail : List Char) : ahead text ≠ 'r' :: '#' :: tail :=
      fun heq => hraw ⟨tail, heq.symm⟩
    rw [identifier_plain hfront] at hchars
    exact plainIdentifier_eq_self_iff.mp (plainIdentifier_eq_self_of_eq_some hchars)

end Code

/-! ## Options from arguments -/

namespace Options

variable {arguments : List String} {key value value' : String} {options : Options}

theorem IsLast.not_isAbsent (h : IsLast key value arguments) : ¬ IsAbsent key arguments := by
  obtain ⟨before, argument, after, rfl, hgives, _⟩ := h
  exact fun habsent => habsent argument (by simp) value hgives

theorem IsLast.unique (h : IsLast key value arguments) (h' : IsLast key value' arguments) :
    value = value' := by
  induction arguments using List.reverseRecOn with
  | nil =>
    obtain ⟨before, argument, after, heq, _⟩ := h
    simp at heq
  | append_singleton arguments argument ih =>
    rcases isLast_concat.mp h, isLast_concat.mp h' with
      ⟨hgives | ⟨hother, h⟩, hgives' | ⟨hother', h'⟩⟩
    · exact (hgives.unique hgives').2
    · exact absurd hgives (hother' value)
    · exact absurd hgives' (hother value')
    · exact ih h h'

/-- The name is that in the last value for it, or the one by default. -/
theorem runtime_ofArgs (h : ofArgs arguments = .ok options) :
    (∃ value, IsLast runtimeKey value arguments ∧
      Code.parseName (trimPrefix "::" value) = some options.runtime) ∨
    IsAbsent runtimeKey arguments ∧ options.runtime = "replikit" := by
  have hisIn : (Setting.runtime options.runtime).IsIn options := rfl
  refine ((isIn_of_ofArgs h).mp hisIn).imp ?_ ?_
  · rintro ⟨value, hlast, hsaid⟩
    exact ⟨value, hlast, hsaid.2⟩
  · rintro ⟨habsent, hdefault⟩
    exact ⟨habsent, (Setting.isIn_iff.mp hdefault).symm⟩

/-- The name is a plain identifier if there is no raw one in the last value for it. -/
theorem isIdentifierText_runtime_iff (h : ofArgs arguments = .ok options) :
    isIdentifierText options.runtime.toList = true ↔
      ∀ value, IsLast runtimeKey value arguments →
        ¬ "r#".toList <+: Code.ahead (trimPrefix "::" value) := by
  rcases runtime_ofArgs h with ⟨value, hlast, hname⟩ | ⟨habsent, hdefault⟩
  · rw [Code.isIdentifierText_of_parseName hname]
    refine ⟨fun hraw value' hlast' => ?_, fun hraw => hraw value hlast⟩
    rwa [hlast'.unique hlast]
  · refine iff_of_true ?_ fun value hlast => absurd habsent hlast.not_isAbsent
    rw [hdefault]
    decide

theorem plain_or_raw_runtime (h : ofArgs arguments = .ok options) :
    isIdentifierText options.runtime.toList = true ∨
      ∃ word, isIdentifierText word.toList = true ∧ options.runtime = "r#" ++ word := by
  rcases runtime_ofArgs h with ⟨value, _, hname⟩ | ⟨_, hdefault⟩
  · exact Code.plain_or_raw_of_parseName hname
  · rw [hdefault]
    exact .inl (by decide)

end Options

/-- Options that were accepted make passes panic just if the last value for the name has a raw
identifier in it, behind gaps. -/
theorem runPassWith_ofArgs {newIdentifier : String → Option String} {arguments : List String}
    {options : Options} (hnew : TakesPlain newIdentifier)
    (h : Options.ofArgs arguments = .ok options) :
    (isIdentifierText options.runtime.toList = true ∨
      ∃ word, isIdentifierText word.toList = true ∧ options.runtime = "r#" ++ word) ∧
    (isIdentifierText options.runtime.toList = true ↔
      ∀ value, Options.IsLast Options.runtimeKey value arguments →
        ¬ "r#".toList <+: Code.ahead (trimPrefix "::" value)) ∧
    ∀ emitters source, runPassWith newIdentifier options emitters source =
      if isRefused source || isIdentifierText options.runtime.toList then
        some (runPass options emitters source)
      else none := by
  refine ⟨Options.plain_or_raw_runtime h, Options.isIdentifierText_runtime_iff h,
    fun emitters source => ?_⟩
  have htargets : options.targets.isEmpty = false :=
    List.isEmpty_eq_false_iff.mpr (Options.targets_ofArgs h).1
  rw [runPassWith_eq options emitters hnew, htargets, Bool.and_false, Bool.or_false]

theorem runPassWith_ofArgs_colons :
    let options : Options := { parallel := true, runtime := "my_runtime" }
    Options.ofArgs ["replikit.runtime_crate=:: my_runtime", "replikit.parallel=yes"] =
      .ok options ∧
    isIdentifierText options.runtime.toList = true ∧
    runPassWith newPlain options Emitter.all emptySource =
      some (runPass options Emitter.all emptySource) := by
  intro options
  have hok : Options.ofArgs ["replikit.runtime_crate=:: my_runtime", "replikit.parallel=yes"] =
      .ok options := by decide +kernel
  obtain ⟨_, _, hpass⟩ := runPassWith_ofArgs takesPlain_newPlain hok
  have hplain : isIdentifierText options.runtime.toList = true := by decide
  refine ⟨hok, hplain, ?_⟩
  rw [hpass, hplain, Bool.or_true, if_pos rfl]

/-- A raw identifier behind a blank is accepted, and a pass panics on it. -/
theorem runPassWith_raw :
    let options : Options := { runtime := "r#type" }
    Options.ofArgs ["replikit.runtime_crate=:: r#type"] = .ok options ∧
    isIdentifierText options.runtime.toList = false ∧
    runPassWith newPlain options Emitter.all emptySource = none := by
  intro options
  refine ⟨by decide +kernel, by decide, ?_⟩
  rw [runPassWith_eq options _ takesPlain_newPlain]
  exact if_neg (by decide +kernel)

end DaoGen
