import DaoGen.Proofs.Code.TypeTree

/-!
# What the cases of types stand for

A declaration reads the tree of a type from the bottom up. What each case of a type stands for
follows from what the types inside it stand for.
-/
namespace DaoGen.Code

open Code.Language

/-! ## Leaves -/

theorem anyLeafOf_append (p : Token → Bool) (ts us : List Token) :
    anyLeafOf p (ts ++ us) = (anyLeafOf p ts || anyLeafOf p us) := by
  induction ts with
  | nil => rfl
  | cons t ts ih => rw [List.cons_append, anyLeafOf, anyLeafOf, ih, Bool.or_assoc]

theorem anyLeafOf_tokensOf (p : Token → Bool) (trees : Trees) :
    anyLeafOf p (tokensOf trees) = trees.any fun tree => anyLeafOf p tree.tokens := by
  induction trees with
  | nil => rfl
  | cons tree trees ih => rw [tokensOf_cons, anyLeafOf_append, ih, List.any_cons]

namespace TypeReading

attribute [grind =] ofTree ofTrees ofPart

theorem ofTrees_eq_map (trees : Trees) : ofTrees trees = trees.map ofTree := by
  induction trees with
  | nil => rfl
  | cons tree trees ih => rw [ofTrees, List.map_cons, ih]

/-! ## Types -/

theorem ofTree_type {inner : ParseTree Part} {syn : TypeSyntax} (h : ofTree inner = .type syn) :
    ofTree (.node .type [inner]) = .type syn := by
  simp [ofTree, ofTrees, ofPart, h, type?]

/-- The names of a path, each with its arguments. -/
def segmentsOf (children : Trees) : List (String × Option (List ArgumentSyntax × Bool)) :=
  (children.map ofTree).filterMap segment?

theorem ofTree_path (children : Trees) :
    ofTree (.node .pathType [.node .path children]) =
      .type (ofPath (tokensOf children) (startsWithColon (tokensOf children))
        (segmentsOf children)) := by
  simp [ofTree, ofTrees, ofPart, path?, ofTrees_eq_map, segmentsOf]

/-- A reference is borrowed if it has any marks. -/
theorem ofTree_reference {marks : Trees} {target : ParseTree Part} {syn : TypeSyntax}
    (hmarks : ∀ tree ∈ marks, IsReferenceMark tree) (h : ofTree target = .type syn) :
    ofTree (.node .referenceType (.leaf (.punct '&') :: (marks ++ [target]))) =
      .type (if isBorrow (.punct '&' :: (tokensOf marks ++ target.tokens)) then
        .borrowed (.punct '&' :: (tokensOf marks ++ target.tokens)) target.tokens
      else .shared syn) := by
  have hfound : ((marks ++ [target]).map ofTree).findSome? type? = some syn := by
    induction marks with
    | nil => simp [h, type?]
    | cons mark marks ih =>
      obtain ⟨hmark, hmarks⟩ := List.forall_mem_cons.mp hmarks
      have hnothing : ofTree mark = .nothing := by
        obtain ⟨name, rfl⟩ | ⟨line, rfl⟩ := hmark <;> rfl
      rw [List.cons_append, List.map_cons, List.findSome?_cons, hnothing]
      exact ih hmarks
  have hmark : type? (ofTree (.leaf (.punct '&'))) = none := rfl
  have hlast : (ParseTree.leaf (.punct '&') :: (marks ++ [target])).getLast? = some target := by
    rw [← List.cons_append, List.getLast?_concat]
  rw [ofTree, ofPart, ofTrees_eq_map, List.map_cons, List.findSome?_cons, hmark, hfound, hlast]
  simp only [tokensOf_cons, tokensOf_append, tokensOf_nil, List.append_nil, ParseTree.tokens_leaf,
    List.singleton_append, Option.elim_some]
  split <;> rfl

/-- A reference that is not borrowed has no marks. -/
theorem eq_nil_of_isBorrow {marks : Trees} {rest : List Token}
    (hmarks : ∀ tree ∈ marks, IsReferenceMark tree)
    (h : isBorrow (.punct '&' :: (tokensOf marks ++ rest)) = false) : marks = [] := by
  cases marks with
  | nil => rfl
  | cons mark marks =>
    obtain ⟨name, rfl⟩ | ⟨line, rfl⟩ := hmarks mark List.mem_cons_self <;> simp [isBorrow] at h

/-- What stands between square brackets is a slice if it is nothing but a type. -/
theorem ofTree_slice {element : ParseTree Part} {syn : TypeSyntax} (h : ofTree element = .type syn)
    (more : Trees) : ofTree (.node .sliceType [.group .bracket (element :: more)]) =
      .type (if more.isEmpty then .slice syn
        else .verbatim [.group .bracket (element.tokens ++ tokensOf more)]) := by
  cases more <;> simp [ofTree, ofTrees, ofPart, h, onlyType?]

theorem ofTree_paren {inner : ParseTree Part} {syn : TypeSyntax} (h : ofTree inner = .type syn) :
    ofTree (.node .parenType [.group .paren [inner]]) = .type (.paren syn) := by
  simp [ofTree, ofTrees, ofPart, h, onlyType?]

/-- A type of any other form keeps its tokens. -/
theorem ofTree_kept {part : Part} (h : part = .boundType ∨ part = .otherType) (children : Trees) :
    ofTree (.node part children) = .type (.verbatim (tokensOf children)) := by
  rcases h with rfl | rfl <;> rfl

/-! ## Paths -/

theorem segmentsOf_append (trees more : Trees) :
    segmentsOf (trees ++ more) = segmentsOf trees ++ segmentsOf more := by
  simp [segmentsOf]

theorem segmentsOf_optColons (present : Bool) : segmentsOf (optColons present) = [] := by
  cases present <;> rfl

/-- The segments of a path are read from its names. -/
theorem segmentsOf_pathTrees (absolute : Bool) (first : Trees) (later : List Trees) :
    segmentsOf (pathTrees absolute first later) =
      (first :: later).filterMap fun names => segment? (ofTree (.node .segment names)) := by
  have hcolons : segmentsOf colonTrees = [] := rfl
  have hname (names : Trees) : segmentsOf [.node .segment names] =
      (segment? (ofTree (.node .segment names))).toList := by
    cases h : segment? (ofTree (.node .segment names)) <;> simp [segmentsOf, h]
  have hlater : segmentsOf (later.flatMap fun names => colonTrees ++ [.node .segment names]) =
      later.filterMap fun names => segment? (ofTree (.node .segment names)) := by
    induction later with
    | nil => rfl
    | cons names later ih =>
      rw [List.flatMap_cons, segmentsOf_append, segmentsOf_append, hcolons, hname, ih]
      cases h : segment? (ofTree (.node .segment names)) <;> simp [h]
  rw [pathTrees, segmentsOf_append, segmentsOf_optColons, List.nil_append,
    ← List.singleton_append, segmentsOf_append, hname, hlater]
  cases h : segment? (ofTree (.node .segment first)) <;> simp [h]

/-- The arguments between angle brackets. -/
def argumentsOf (members : Trees) : List ArgumentSyntax := (members.map ofTree).filterMap argument?

theorem argument?_type {type : ParseTree Part} {syn : TypeSyntax} (h : ofTree type = .type syn) :
    argument? (ofTree (.node .typeArgument [type])) = some (.type syn) := by
  simp [ofTree, ofTrees, ofPart, h, argument?]

/-- A type with more than the type keeps its tokens. -/
theorem argument?_associated (type next : ParseTree Part) (more : Trees) :
    argument? (ofTree (.node .typeArgument (type :: next :: more))) =
      some (.other (tokensOf (type :: next :: more))) := by
  simp [ofTree, ofTrees, ofPart, argument?]

theorem argumentsOf_cons_none {member : ParseTree Part} (h : argument? (ofTree member) = none)
    (members : Trees) : argumentsOf (member :: members) = argumentsOf members := by
  simp [argumentsOf, h]

theorem argumentsOf_cons_some {member : ParseTree Part} {arg : ArgumentSyntax}
    (h : argument? (ofTree member) = some arg) (members : Trees) :
    argumentsOf (member :: members) = arg :: argumentsOf members := by
  simp [argumentsOf, h]

theorem ofTree_arguments (colons : Bool) (members : Trees) :
    ofTree (.node .arguments
      (optColons colons ++ (.leaf (.punct '<') :: (members ++ [.leaf (.punct '>')])))) =
        .arguments (argumentsOf members) ((members.map ofTree).any isLifetime) := by
  have hmark (c : Char) : ofTree (.leaf (.punct c)) = .nothing := rfl
  have hcolons : (optColons colons).map ofTree = if colons then [.nothing, .nothing] else [] := by
    cases colons <;> rfl
  have hargument : argument? .nothing = none := rfl
  have hlifetime : isLifetime .nothing = false := rfl
  rw [ofTree, ofPart, ofTrees_eq_map, List.map_append, hcolons, List.map_cons, hmark,
    List.map_append, List.map_cons, hmark]
  cases colons <;> simp [argumentsOf, hargument, hlifetime]

theorem ofTree_plain (text : String) (line : Nat) :
    ofTree (.node .segment [.leaf (.ident text line)]) = .segment text none := by
  simp [ofTree, ofTrees, ofPart, arguments?, firstName]

/-- A name is read with the arguments that stand after it. -/
theorem ofTree_generic {arguments : ParseTree Part} {args : List ArgumentSyntax}
    {hasLifetime : Bool} (h : ofTree arguments = .arguments args hasLifetime) (text : String)
    (line : Nat) :
    ofTree (.node .segment [.leaf (.ident text line), arguments]) =
      .segment text (some (args, hasLifetime)) := by
  have hleaf : arguments? (ofTree (.leaf (.ident text line))) = none := rfl
  rw [ofTree, ofTrees, ofTrees, ofTrees, h, ofPart, List.findSome?_cons, hleaf]
  simp [arguments?, firstName]

/-- A path is a named type only if no name but the last has arguments; otherwise its tokens are
kept. -/
theorem ofPath_cases (tokens : List Token) (absolute : Bool)
    (segments : List (String × Option (List ArgumentSyntax × Bool))) :
    ofPath tokens absolute segments = .verbatim tokens ∨ ∃ front last args,
      segments = front ++ [last] ∧ (∀ s ∈ front, s.2 = none) ∧
        (last.2 = none ∧ args = [] ∨ last.2 = some (args, false)) ∧
          ofPath tokens absolute segments =
            .named absolute (front.map (·.1) ++ [last.1]) args := by
  rcases List.eq_nil_or_concat segments with rfl | ⟨front, last, rfl⟩
  · exact .inl rfl
  rw [List.concat_eq_append]
  have hnames : (front ++ [last]).map (·.1) = front.map (·.1) ++ [last.1] := by simp
  have hreverse : (front ++ [last]).reverse = last :: front.reverse := by simp
  rw [ofPath, hreverse, hnames]
  dsimp only
  split
  · exact .inl rfl
  · next hearlier =>
    have hfront : ∀ s ∈ front, s.2 = none := by simpa using hearlier
    rcases htarget : last.2 with _ | ⟨args, _ | _⟩
    · exact .inr ⟨front, last, [], rfl, hfront, .inl ⟨htarget, rfl⟩, rfl⟩
    · exact .inr ⟨front, last, args, rfl, hfront, .inr htarget, rfl⟩
    · exact .inl rfl

end TypeReading

end DaoGen.Code
