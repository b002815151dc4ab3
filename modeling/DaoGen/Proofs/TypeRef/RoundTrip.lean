import DaoGen.Proofs.Code.Words
import DaoGen.Proofs.TypeRef.Text

/-!
# Normal forms through text

A basic type is made of paths with types as arguments, shared references, slices and the unit type.
It has a described type, and so has its normal form: the names of a path stay where they are or give
way to a common name, which is a path of its own. The text of the normal form is therefore read
back, and has the same normal form.

## Main definitions

* `TypeSyntax.isBasic`: whether a written type is basic.

## Main results

* `TypeRef.normalize_roundTrip`: normal forms of basic types are read back from their texts.
-/
namespace DaoGen

open Code Language TypeReading

mutual

/-- Whether a type is made of paths with types as arguments, shared references, slices and the unit
type. Round brackets around a type do not matter. -/
def Code.TypeSyntax.isBasic : TypeSyntax → Bool
  | .named _ _ args => areBasic args
  | .shared target => target.isBasic
  | .slice element => element.isBasic
  | .unit => true
  | .paren inner => inner.isBasic
  | .borrowed _ _ | .infer | .macroCall _ | .verbatim _ => false

def Code.areBasic : List ArgumentSyntax → Bool
  | [] => true
  | .type t :: rest => t.isBasic && areBasic rest
  | .other _ :: _ => false

end

namespace TypeRef

/-! ## Basic types are described -/

theorem Described.mark {t : TypeRef} (h : Described t) (nullable reference : Bool) :
    Described { t with nullable, reference } := by
  cases h with
  | path hpath hts => exact .path hpath hts nullable reference
  | slice h => exact .slice h nullable reference
  | unit => exact .unit nullable reference

/-- What a basic type stands for is described, if its identifiers are those of texts. -/
def GivesDescribed (tree : ParseTree Part) : Prop :=
  ∃ syn, TypeReading.ofTree tree = .type syn ∧
    (HasWords tree.tokens → syn.isBasic = true → ∃ t, ofSyntax syn = .ok t ∧ Described t)

/-- A name of a path and what stands after it, as it is needed to describe the path. -/
structure SegmentGives (segment : String × Option (List ArgumentSyntax × Bool)) : Prop where
  word : IsWord segment.1
  name : isPathName segment.1 = true ∨ segment.1 = "try"
  target : segment.2.isSome = true → isName segment.1 = true ∨ segment.1 = "Self"
  args : ∀ args hasLifetime, segment.2 = some (args, hasLifetime) → areBasic args = true →
    ∃ ts : List TypeRef, ofArguments args = .ok (ts.map (.type .invariant)) ∧ ∀ t ∈ ts, Described t

/-- Basic arguments are types, each of which is described. -/
theorem described_arguments {members : Trees}
    (hmembers : ∀ tree ∈ members, ArgumentCase GivesDescribed tree)
    (hwords : ∀ tree ∈ members, HasWords tree.tokens)
    (hbasic : areBasic (argumentsOf members) = true) :
    ∃ ts : List TypeRef, ofArguments (argumentsOf members) = .ok (ts.map (.type .invariant)) ∧
      ∀ t ∈ ts, Described t := by
  induction members with
  | nil => exact ⟨[], rfl, List.forall_mem_nil _⟩
  | cons member members ih =>
    obtain ⟨hmember, hmembers⟩ := List.forall_mem_cons.mp hmembers
    obtain ⟨hword, hwords⟩ := List.forall_mem_cons.mp hwords
    have hrest := ih hmembers hwords
    cases hmember with
    | comma | lifetime name =>
      rw [argumentsOf_cons_none rfl] at hbasic ⊢
      exact hrest hbasic
    | const _ =>
      rw [argumentsOf_cons_some rfl] at hbasic
      cases hbasic
    | @associated type next more _ =>
      rw [argumentsOf_cons_some (argument?_associated type next more)] at hbasic
      cases hbasic
    | @type type htype =>
      obtain ⟨syn, hsyn, hdescribed⟩ := htype
      rw [argumentsOf_cons_some (argument?_type hsyn)] at hbasic ⊢
      obtain ⟨hbasic, hbasics⟩ : syn.isBasic = true ∧ areBasic (argumentsOf members) = true := by
        simpa [areBasic] using hbasic
      obtain ⟨t, ht, htd⟩ := hdescribed (by simpa using hword) hbasic
      obtain ⟨ts, hts, htsd⟩ := hrest hbasics
      refine ⟨t :: ts, ?_, List.forall_mem_cons.mpr ⟨htd, htsd⟩⟩
      rw [ofArguments, ofArgument, ht, hts]
      rfl

/-- A name of a path is read with its arguments. -/
theorem segmentGives_of_case {tree : ParseTree Part} (h : SegmentCase GivesDescribed tree)
    (hwords : HasWords tree.tokens) :
    ∃ segment, ofTree tree = .segment segment.1 segment.2 ∧ firstName tree.tokens = segment.1 ∧
      SegmentGives segment := by
  cases h with
  | @plain text line h =>
    exact ⟨(text, none), ofTree_plain text line, by simp [firstName],
      isWord_of_hasWords (by simpa using hwords), h, nofun, nofun⟩
  | @generic text line colons members h hmembers =>
    obtain ⟨hword, -, -, hmember, -⟩ : HasWords [.ident text line] ∧
        HasWords (tokensOf (optColons colons)) ∧ HasWords [.punct '<'] ∧
          HasWords (tokensOf members) ∧ HasWords [.punct '>'] := by
      rw [← hasWords_append, ← hasWords_append, ← hasWords_append, ← hasWords_append]
      simpa using hwords
    refine ⟨(text, some _), ofTree_generic (ofTree_arguments colons members) text line,
      by simp [firstName], isWord_of_hasWords hword, .inl (isPathName_of_isName h), fun _ => h, ?_⟩
    rintro _ _ heq hbasic
    cases heq
    exact described_arguments hmembers (hasWords_tokensOf.mp hmember) hbasic

/-- The names of a path are read in their order, the first one from the front of the path. -/
theorem segmentsGive_of_case {children : Trees} (h : PathCase GivesDescribed children)
    (hwords : HasWords (tokensOf children)) :
    (∀ segment ∈ segmentsOf children, SegmentGives segment) ∧ ∃ first later,
      segmentsOf children = first :: later ∧
        (startsWithColon (tokensOf children) = false → isPathName first.1 = true) := by
  have hword : ∀ tree ∈ children, HasWords tree.tokens := hasWords_tokensOf.mp hwords
  obtain @⟨absolute, first, later, hstart, hfirst, hlater⟩ := h
  have hmem {names : Trees} (hnames : names ∈ later) :
      ParseTree.node .segment names ∈ pathTrees absolute first later := by
    simp only [pathTrees, List.mem_append, List.mem_cons, List.mem_flatMap]
    exact .inr (.inr ⟨names, hnames, by simp⟩)
  obtain ⟨segment, hsegment, hname, hgives⟩ :=
    segmentGives_of_case hfirst (hword _ (by simp [pathTrees]))
  rw [segmentsOf_pathTrees, List.filterMap_cons, hsegment]
  refine ⟨List.forall_mem_cons.mpr ⟨hgives, fun found hfound => ?_⟩, segment, _, rfl,
    fun hcolon => ?_⟩
  · obtain ⟨names, hnames, hsome⟩ := List.mem_filterMap.mp hfound
    obtain ⟨next, hnext, -, hgives⟩ :=
      segmentGives_of_case (hlater names hnames) (hword _ (hmem hnames))
    rw [hnext] at hsome
    obtain rfl : next = found := Option.some.inj hsome
    exact hgives
  · cases absolute with
    | true => cases hcolon
    | false => exact hname ▸ hstart rfl

/-- A basic path has arguments at its last name only, and these are described. -/
theorem described_ofPath {tokens : List Token} {absolute : Bool}
    {segments : List (String × Option (List ArgumentSyntax × Bool))}
    (hsegments : ∀ segment ∈ segments, SegmentGives segment)
    {first : String × Option (List ArgumentSyntax × Bool)}
    {later : List (String × Option (List ArgumentSyntax × Bool))}
    (hfirst : segments = first :: later)
    (hstart : absolute = false → isPathName first.1 = true)
    (hbasic : (ofPath tokens absolute segments).isBasic = true) :
    ∃ t, ofSyntax (ofPath tokens absolute segments) = .ok t ∧ Described t := by
  obtain hkept | ⟨front, last, args, rfl, -, htarget, hnamed⟩ :=
    ofPath_cases tokens absolute segments
  · rw [hkept] at hbasic
    cases hbasic
  rw [hnamed] at hbasic ⊢
  have hlast := hsegments last (by simp)
  have hpath {hasArgs : Bool} (hargs : hasArgs = true → last.2.isSome = true) :
      IsPath absolute (front.map (·.1)) last.1 hasArgs := by
    refine ⟨fun name hname => ?_, fun habsolute name hname => ?_, fun h => hlast.target (hargs h)⟩
    · have hmem : name ∈ (front ++ [last]).map (·.1) := by simpa using hname
      obtain ⟨segment, hsegment, rfl⟩ := List.mem_map.mp hmem
      exact ⟨(hsegments segment hsegment).word, (hsegments segment hsegment).name⟩
    · have hhead : (front.map (·.1) ++ [last.1]).head? = some first.1 := by
        rw [← List.map_singleton, ← List.map_append, hfirst]
        rfl
      obtain rfl : first.1 = name := by simpa only [hhead, Option.mem_some] using hname
      exact hstart habsolute
  obtain ⟨-, rfl⟩ | htarget := htarget
  · have hplain : IsPath absolute (front.map (·.1)) last.1 (!([] : List TypeRef).isEmpty) :=
      hpath nofun
    exact ⟨_, rfl, .path hplain (by simp) false false⟩
  · obtain ⟨ts, hts, hdescribed⟩ := hlast.args args false htarget hbasic
    refine ⟨_, ?_, .path (hpath fun _ => by rw [htarget]; rfl) hdescribed false false⟩
    simp [ofSyntax, hts]

/-- Every basic type is described. -/
theorem givesDescribed_of_isType {tree : ParseTree Part} (h : IsType tree) :
    GivesDescribed tree := by
  refine h.induction fun inner _ hinner => ?_
  suffices hsuff : ∃ syn, TypeReading.ofTree inner = .type syn ∧ (HasWords inner.tokens →
      syn.isBasic = true → ∃ t, ofSyntax syn = .ok t ∧ Described t) by
    obtain ⟨syn, hsyn, hdescribed⟩ := hsuff
    exact ⟨syn, ofTree_type hsyn, by simpa using hdescribed⟩
  cases hinner with
  | @path children hpath =>
    refine ⟨_, ofTree_path children, fun hwords hbasic => ?_⟩
    obtain ⟨hsegments, first, later, hfirst, hstart⟩ :=
      segmentsGive_of_case hpath (by simpa using hwords)
    exact described_ofPath hsegments hfirst hstart hbasic
  | @reference marks target hmarks htarget =>
    obtain ⟨syn, hsyn, hdescribed⟩ := htarget
    refine ⟨_, ofTree_reference hmarks hsyn, fun hwords hbasic => ?_⟩
    split at hbasic
    · cases hbasic
    · next hborrow =>
      rw [if_neg hborrow]
      have hword : HasWords target.tokens := by
        rw [ParseTree.tokens_node, hasWords_tokensOf] at hwords
        exact hwords target (by simp)
      obtain ⟨t, ht, htd⟩ := hdescribed hword hbasic
      exact ⟨t.byRef, by simp [ofSyntax, ht], htd.mark t.nullable true⟩
  | @slice element helement more =>
    obtain ⟨syn, hsyn, hdescribed⟩ := helement
    refine ⟨_, ofTree_slice hsyn more, fun hwords hbasic => ?_⟩
    cases more with
    | nil =>
      obtain ⟨t, ht, htd⟩ := hdescribed (by simpa [hasWords_group] using hwords) hbasic
      exact ⟨t.slice, by simp [ofSyntax, ht], .slice htd false false⟩
    | cons => cases hbasic
  | unit => exact ⟨.unit, rfl, fun _ _ => ⟨_, rfl, .unit false false⟩⟩
  | @paren inner hinner =>
    obtain ⟨syn, hsyn, hdescribed⟩ := hinner
    refine ⟨_, ofTree_paren hsyn, fun hwords hbasic => ?_⟩
    exact hdescribed (by simpa [hasWords_group] using hwords) hbasic
  | infer line => exact ⟨_, rfl, fun _ hbasic => by cases hbasic⟩
  | call path joint rest => exact ⟨_, rfl, fun _ hbasic => by cases hbasic⟩
  | kept h children => exact ⟨_, ofTree_kept h children, fun _ hbasic => by cases hbasic⟩

/-! ## Normal forms are described -/

/-- Any common name is a path of its own. -/
theorem isPath_commonName {name : String} (h : name ∈ commonNames) (hasArgs : Bool) :
    IsPath false [] name hasArgs := by
  have hall : ∀ name ∈ commonNames, IsWord name ∧ isName name = true := by decide
  obtain ⟨hword, hname⟩ := hall name h
  have hpathName := isPathName_of_isName (.inl hname)
  exact ⟨by simp [hword, hpathName], by simp [hpathName], fun _ => .inl hname⟩

/-- The normal form of a described type is described. -/
theorem Described.normalize {t : TypeRef} (h : Described t) : Described t.normalize := by
  induction h with
  | @path absolute front last ts hpath hts nullable reference ih =>
    have hargs : normalizeArgs (ts.map (.type .invariant)) =
        (ts.map TypeRef.normalize).map (.type .invariant) := by
      simp [normalizeArgs_eq_map, normalizeArg]
    have hdescribed : ∀ u ∈ ts.map TypeRef.normalize, Described u := by
      simpa using ih
    rw [TypeRef.normalize, hargs]
    by_cases hcarrier : canonicalName (joinedPath absolute (front ++ [last])) ∈ carrierNames →
        ∀ u, (ts.map TypeRef.normalize).map (TypeArg.type .invariant) ≠ [.type .invariant u]
    · rw [rebuild_of_not_carrier hcarrier]
      have hempty : (ts.map TypeRef.normalize).isEmpty = ts.isEmpty := List.isEmpty_map
      cases halias : alias? (joinedPath absolute (front ++ [last])) with
      | none =>
        rw [canonicalName_eq_self halias]
        exact .path (hempty ▸ hpath) hdescribed nullable reference
      | some a =>
        have hname : canonicalName (joinedPath absolute (front ++ [last])) =
            joinedPath false ([] ++ [a.canonical]) := by
          rw [canonicalName, halias]
          simp [joinedPath]
        rw [hname]
        exact .path (isPath_commonName (Alias.isKnown_of_alias? halias).1 _) hdescribed nullable
          reference
    · obtain ⟨hname, u, hu⟩ : canonicalName (joinedPath absolute (front ++ [last])) ∈ carrierNames ∧
          ∃ u, (ts.map TypeRef.normalize).map (TypeArg.type .invariant) = [.type .invariant u] := by
        simpa using hcarrier
      obtain ⟨nullable', reference', heq⟩ := rebuild_of_carrier hname u nullable reference
      have hmem : TypeArg.type .invariant u ∈
          (ts.map TypeRef.normalize).map (TypeArg.type .invariant) := hu ▸ List.mem_singleton_self _
      obtain ⟨u', hu', heq'⟩ := List.mem_map.mp hmem
      cases heq'
      rw [hu, heq]
      exact (hdescribed u hu').mark nullable' reference'
  | slice h nullable reference ih =>
    exact .slice ih nullable reference
  | unit nullable reference => exact .unit nullable reference

/-! ## Reading the text of a normal form -/

/-- The normal form of a basic type is written in a text that a declaration reads as a type with the
same normal form. -/
theorem normalize_roundTrip {tree : ParseTree Part} (htype : IsType tree)
    (hwords : HasWords tree.tokens) (hbasic : (TypeSyntax.ofTree tree).isBasic = true) :
    ∃ t, ofSyntax (.ofTree tree) = .ok t ∧ ∃ tree' t',
      parseText (.type true) (lex t.normalize.render) = some [tree'] ∧
        ofSyntax (.ofTree tree') = .ok t' ∧ t'.normalize = t.normalize := by
  obtain ⟨syn, hsyn, hdescribed⟩ := givesDescribed_of_isType htype
  have hof : TypeSyntax.ofTree tree = syn := by rw [TypeSyntax.ofTree, hsyn]; rfl
  rw [hof] at hbasic ⊢
  obtain ⟨t, ht, htd⟩ := hdescribed hwords hbasic
  obtain ⟨tree', hparse, hread⟩ := htd.normalize.parse_render
  exact ⟨t, ht, tree', _, hparse, hread, normalize_expanded t.isNormal_normalize⟩

/-- An optional list of references to boxed slices is written with marks only. -/
theorem normalize_roundTrip_option : ∃ tree,
    parseText (.type true) (lex "&::std::option::Option<Vec<&[Box<()>]>>") = some [tree] ∧
      HasWords tree.tokens ∧ (TypeSyntax.ofTree tree).isBasic = true ∧
        ∃ t, ofSyntax (.ofTree tree) = .ok t ∧ ∃ tree' t',
          parseText (.type true) (lex t.normalize.render) = some [tree'] ∧
            ofSyntax (.ofTree tree') = .ok t' ∧ t'.normalize = t.normalize := by
  have htest : testType "&::std::option::Option<Vec<&[Box<()>]>>"
      (fun tree => decide (HasWords tree.tokens) && (TypeSyntax.ofTree tree).isBasic) = true := by
    decide +kernel
  obtain ⟨tree, htree, htype, htest⟩ := exists_of_testType htest
  obtain ⟨hwords, hbasic⟩ : HasWords tree.tokens ∧ (TypeSyntax.ofTree tree).isBasic = true := by
    simpa using htest
  exact ⟨tree, htree, hwords, hbasic, normalize_roundTrip htype hwords hbasic⟩

end TypeRef

end DaoGen
