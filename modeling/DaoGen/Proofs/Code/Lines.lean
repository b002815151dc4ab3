import DaoGen.Declaration.WrittenType

/-!
# Lines do not matter to types

An identifier keeps the line it was read on. What a declaration reads of a type depends on the texts
of the tokens alone, so a type may stand on any line, and on several.

## Main definitions

* `ParseTree.unlined`: a tree with all its identifiers on the first line.

## Main results

* `TypeRef.ofSyntax_ofTree_unlined`: a type stands for the same on the first line.
-/
namespace DaoGen

open Code

namespace Code

/-! ## Tokens -/

mutual

/-- A token with all its identifiers on the first line. -/
def Token.unlined : Token → Token
  | .ident text _ => .ident text 1
  | .lifetime name => .lifetime name
  | .punct ch joint => .punct ch joint
  | .literal text => .literal text
  | .group d content => .group d (unlinedTokens content)

def unlinedTokens : List Token → List Token
  | [] => []
  | t :: rest => t.unlined :: unlinedTokens rest

end

theorem unlinedTokens_append (ts us : List Token) :
    unlinedTokens (ts ++ us) = unlinedTokens ts ++ unlinedTokens us := by
  induction ts with
  | nil => rfl
  | cons t ts ih => rw [List.cons_append, unlinedTokens, unlinedTokens, ih, List.cons_append]

theorem isEmpty_unlinedTokens (ts : List Token) : (unlinedTokens ts).isEmpty = ts.isEmpty := by
  cases ts <;> rfl

theorem Token.isJoint_unlined (t : Token) : t.unlined.isJoint = t.isJoint := by
  cases t <;> rfl

mutual

theorem Token.text_unlined (t : Token) : t.unlined.text = t.text := by
  match t with
  | .ident text line => simp [Token.unlined, Token.text]
  | .lifetime _ | .punct _ _ | .literal _ => rfl
  | .group d content =>
    rw [Token.unlined, Token.text, Token.text, textOf_unlinedTokens content,
      isEmpty_unlinedTokens]

/-- Tokens have the same text on any line. -/
theorem textOf_unlinedTokens (ts : List Token) : textOf (unlinedTokens ts) = textOf ts := by
  match ts with
  | [] => rfl
  | [t] => simpa [unlinedTokens] using t.text_unlined
  | t :: u :: rest =>
    have hrest := textOf_unlinedTokens (u :: rest)
    rw [unlinedTokens] at hrest
    rw [unlinedTokens, unlinedTokens, textOf, textOf, t.text_unlined, t.isJoint_unlined, hrest]

end

mutual

theorem Token.anyLeaf_unlined (t : Token) :
    t.unlined.anyLeaf isOpenToken = t.anyLeaf isOpenToken := by
  match t with
  | .ident _ _ | .lifetime _ | .punct _ _ | .literal _ => rfl
  | .group d content => exact anyLeafOf_unlinedTokens content

/-- Tokens are open on any line. -/
theorem anyLeafOf_unlinedTokens (ts : List Token) :
    anyLeafOf isOpenToken (unlinedTokens ts) = anyLeafOf isOpenToken ts := by
  match ts with
  | [] => rfl
  | t :: ts =>
    rw [unlinedTokens, anyLeafOf, anyLeafOf, t.anyLeaf_unlined, anyLeafOf_unlinedTokens ts]

end

/-! ## Trees -/

mutual

/-- A tree with all its identifiers on the first line. -/
def ParseTree.unlined {L : Type} : ParseTree L → ParseTree L
  | .leaf token => .leaf token.unlined
  | .group d children => .group d (unlinedTrees children)
  | .node label children => .node label (unlinedTrees children)

def unlinedTrees {L : Type} : List (ParseTree L) → List (ParseTree L)
  | [] => []
  | tree :: rest => tree.unlined :: unlinedTrees rest

end

mutual

theorem ParseTree.tokens_unlined {L : Type} (tree : ParseTree L) :
    tree.unlined.tokens = unlinedTokens tree.tokens := by
  match tree with
  | .leaf token => simp [ParseTree.unlined, unlinedTokens]
  | .group d children =>
    rw [ParseTree.unlined, ParseTree.tokens_group, tokensOf_unlinedTrees children,
      ParseTree.tokens_group]
    rfl
  | .node label children =>
    rw [ParseTree.unlined, ParseTree.tokens_node, tokensOf_unlinedTrees children,
      ParseTree.tokens_node]

theorem tokensOf_unlinedTrees {L : Type} (trees : List (ParseTree L)) :
    tokensOf (unlinedTrees trees) = unlinedTokens (tokensOf trees) := by
  match trees with
  | [] => rfl
  | tree :: trees =>
    rw [unlinedTrees, tokensOf_cons, tree.tokens_unlined, tokensOf_unlinedTrees trees,
      tokensOf_cons, unlinedTokens_append]

end

theorem unlinedTrees_eq_map {L : Type} (trees : List (ParseTree L)) :
    unlinedTrees trees = trees.map ParseTree.unlined := by
  induction trees with
  | nil => rfl
  | cons tree trees ih => rw [unlinedTrees, ih, List.map_cons]

/-! ## Types -/

mutual

/-- A written type with all its identifiers on the first line. -/
def TypeSyntax.unlined : TypeSyntax → TypeSyntax
  | .named absolute names args => .named absolute names (unlinedArguments args)
  | .shared target => .shared target.unlined
  | .borrowed tokens target => .borrowed (unlinedTokens tokens) (unlinedTokens target)
  | .slice element => .slice element.unlined
  | .unit => .unit
  | .paren inner => .paren inner.unlined
  | .infer => .infer
  | .macroCall tokens => .macroCall (unlinedTokens tokens)
  | .verbatim tokens => .verbatim (unlinedTokens tokens)

def ArgumentSyntax.unlined : ArgumentSyntax → ArgumentSyntax
  | .type t => .type t.unlined
  | .other tokens => .other (unlinedTokens tokens)

def unlinedArguments : List ArgumentSyntax → List ArgumentSyntax
  | [] => []
  | arg :: rest => arg.unlined :: unlinedArguments rest

end

theorem unlinedArguments_eq_map (args : List ArgumentSyntax) :
    unlinedArguments args = args.map ArgumentSyntax.unlined := by
  induction args with
  | nil => rfl
  | cons arg args ih => rw [unlinedArguments, ih, List.map_cons]

namespace TypeReading

/-- The arguments of a name with all their identifiers on the first line. -/
def unlinedTarget (args : Option (List ArgumentSyntax × Bool)) :
    Option (List ArgumentSyntax × Bool) :=
  args.map fun args => (unlinedArguments args.1, args.2)

mutual

/-- A reading with all its identifiers on the first line. -/
def unlined : TypeReading → TypeReading
  | .nothing => .nothing
  | .inside readings => .inside (unlinedReadings readings)
  | .lifetime => .lifetime
  | .type t => .type t.unlined
  | .argument arg => .argument arg.unlined
  | .arguments args hasLifetime => .arguments (unlinedArguments args) hasLifetime
  | .segment name args => .segment name (unlinedTarget args)
  | .path absolute segments => .path absolute (segments.map fun s => (s.1, unlinedTarget s.2))

def unlinedReadings : List TypeReading → List TypeReading
  | [] => []
  | reading :: rest => reading.unlined :: unlinedReadings rest

end

theorem unlinedReadings_eq_map (readings : List TypeReading) :
    unlinedReadings readings = readings.map unlined := by
  induction readings with
  | nil => rfl
  | cons reading readings ih => rw [unlinedReadings, ih, List.map_cons]

theorem type?_unlined (r : TypeReading) : r.unlined.type? = r.type?.map TypeSyntax.unlined := by
  cases r <;> rfl

theorem argument?_unlined (r : TypeReading) :
    r.unlined.argument? = r.argument?.map ArgumentSyntax.unlined := by
  cases r <;> rfl

theorem isLifetime_unlined (r : TypeReading) : r.unlined.isLifetime = r.isLifetime := by
  cases r <;> rfl

theorem arguments?_unlined (r : TypeReading) :
    r.unlined.arguments? = r.arguments?.map fun args => (unlinedArguments args.1, args.2) := by
  cases r <;> rfl

theorem segment?_unlined (r : TypeReading) :
    r.unlined.segment? = r.segment?.map fun s => (s.1, unlinedTarget s.2) := by
  cases r <;> rfl

theorem path?_unlined (r : TypeReading) :
    r.unlined.path? = r.path?.map fun p => (p.1, p.2.map fun s => (s.1, unlinedTarget s.2)) := by
  cases r <;> rfl

theorem onlyType?_unlined (r : TypeReading) :
    r.unlined.onlyType? = r.onlyType?.map TypeSyntax.unlined := by
  match r with
  | .inside [] | .nothing | .lifetime | .type _ | .argument _ | .arguments _ _ | .segment _ _
  | .path _ _ => rfl
  | .inside [reading] => cases reading <;> rfl
  | .inside (first :: next :: readings) =>
    simp [unlined, unlinedReadings, onlyType?]

/-- What is found first is found first on the first line. -/
theorem findSome?_unlined {α : Type} {find : TypeReading → Option α} {change : α → α}
    (h : ∀ r, find r.unlined = (find r).map change) (readings : List TypeReading) :
    (readings.map unlined).findSome? find = (readings.findSome? find).map change := by
  induction readings with
  | nil => rfl
  | cons r readings ih =>
    rw [List.map_cons, List.findSome?_cons, List.findSome?_cons, h]
    cases find r with
    | none => exact ih
    | some a => rfl

theorem filterMap_unlined {α : Type} {find : TypeReading → Option α} {change : α → α}
    (h : ∀ r, find r.unlined = (find r).map change) (readings : List TypeReading) :
    (readings.map unlined).filterMap find = (readings.filterMap find).map change := by
  rw [List.filterMap_map, List.map_filterMap, Function.comp_def, funext h]

/-! ## Parts -/

theorem firstName_unlined (ts : List Token) : firstName (unlinedTokens ts) = firstName ts := by
  match ts with
  | [] | .ident _ _ :: _ | .lifetime _ :: _ | .punct _ _ :: _ | .literal _ :: _
  | .group _ _ :: _ => rfl

theorem startsWithColon_unlined (ts : List Token) :
    startsWithColon (unlinedTokens ts) = startsWithColon ts := by
  match ts with
  | [] | .ident _ _ :: _ | .lifetime _ :: _ | .literal _ :: _ | .group _ _ :: _ => rfl
  | .punct ch _ :: _ =>
    by_cases h : ch = ':'
    · subst h
      rfl
    · simp [unlinedTokens, Token.unlined, startsWithColon, h]

theorem isBorrow_unlined (ts : List Token) : isBorrow (unlinedTokens ts) = isBorrow ts := by
  match ts with
  | [] | [_] | _ :: .lifetime _ :: _ | _ :: .punct _ _ :: _ | _ :: .literal _ :: _
  | _ :: .group _ _ :: _ => rfl
  | _ :: .ident text _ :: _ =>
    by_cases h : text = "mut"
    · subst h
      rfl
    · simp [unlinedTokens, Token.unlined, isBorrow, h]

theorem ofPath_unlined (tokens : List Token) (absolute : Bool)
    (segments : List (String × Option (List ArgumentSyntax × Bool))) :
    ofPath (unlinedTokens tokens) absolute (segments.map fun s => (s.1, unlinedTarget s.2)) =
      (ofPath tokens absolute segments).unlined := by
  have hnames : (segments.map fun s => (s.1, unlinedTarget s.2)).map (·.1) =
      segments.map (·.1) := by simp
  rw [ofPath, ofPath, hnames, ← List.map_reverse]
  cases segments.reverse with
  | nil => rfl
  | cons last earlier =>
    have hearlier : (earlier.map fun s => (s.1, unlinedTarget s.2)).any (·.2.isSome) =
        earlier.any (·.2.isSome) := by
      simp [unlinedTarget, List.any_map, Function.comp_def]
    obtain ⟨name, args⟩ := last
    rw [List.map_cons]
    dsimp only
    rw [hearlier]
    cases earlier.any (·.2.isSome) with
    | true => rfl
    | false =>
      rcases args with _ | ⟨args, _ | _⟩ <;> rfl

theorem ofPart_unlined (part : Part) (children : List (ParseTree Part))
    (readings : List TypeReading) :
    ofPart part (unlinedTrees children) (unlinedReadings readings) =
      (ofPart part children readings).unlined := by
  have htokens := tokensOf_unlinedTrees children
  have htype := findSome?_unlined type?_unlined readings
  have hinside := findSome?_unlined onlyType?_unlined readings
  rw [unlinedReadings_eq_map]
  cases part <;> try rfl
  case type =>
    rw [ofPart, ofPart, htype]
    cases readings.findSome? type? <;> rfl
  case pathType =>
    rw [ofPart, ofPart, findSome?_unlined path?_unlined]
    cases readings.findSome? path? with
    | none => rfl
    | some path => simp [htokens, ofPath_unlined, unlined]
  case path =>
    rw [ofPart, ofPart, htokens, startsWithColon_unlined, filterMap_unlined segment?_unlined]
    rfl
  case segment =>
    rw [ofPart, ofPart, htokens, firstName_unlined, findSome?_unlined arguments?_unlined]
    rfl
  case arguments =>
    rw [ofPart, ofPart, filterMap_unlined argument?_unlined, ← unlinedArguments_eq_map]
    simp [unlined, List.any_map, Function.comp_def, isLifetime_unlined]
  case typeArgument =>
    have hother : argument (.other (tokensOf (unlinedTrees children))) =
        (argument (.other (tokensOf children))).unlined := by rw [htokens]; rfl
    rcases readings with _ | ⟨r, _ | ⟨next, rest⟩⟩
    · exact hother
    · cases r <;> first | exact hother | rfl
    · simpa [ofPart] using hother
  case referenceType =>
    rw [ofPart, ofPart, htokens, isBorrow_unlined, htype]
    cases isBorrow (tokensOf children) with
    | true =>
      have hlast : (unlinedTrees children).getLast?.elim [] ParseTree.tokens =
          unlinedTokens (children.getLast?.elim [] ParseTree.tokens) := by
        rw [unlinedTrees_eq_map, List.getLast?_map]
        cases children.getLast? with
        | none => rfl
        | some tree => exact tree.tokens_unlined
      rw [if_pos rfl, if_pos rfl, hlast]
      rfl
    | false => cases readings.findSome? type? <;> rfl
  case sliceType | parenType =>
    rw [ofPart, ofPart, hinside, htokens]
    cases readings.findSome? onlyType? <;> rfl
  all_goals
    rw [ofPart, ofPart, htokens]
    rfl

mutual

/-- A tree reads the same on the first line. -/
theorem ofTree_unlined (tree : ParseTree Part) : ofTree tree.unlined = (ofTree tree).unlined := by
  match tree with
  | .leaf token => rfl
  | .group d children =>
    rw [ParseTree.unlined, ofTree, ofTrees_unlined children]
    rfl
  | .node part children =>
    rw [ParseTree.unlined, ofTree, ofTrees_unlined children, ofPart_unlined, ofTree]

theorem ofTrees_unlined (trees : List (ParseTree Part)) :
    ofTrees (unlinedTrees trees) = unlinedReadings (ofTrees trees) := by
  match trees with
  | [] => rfl
  | tree :: trees =>
    rw [unlinedTrees, ofTrees, ofTree_unlined tree, ofTrees_unlined trees]
    rfl

end

end TypeReading

theorem TypeSyntax.ofTree_unlined (tree : ParseTree Part) :
    TypeSyntax.ofTree tree.unlined = (TypeSyntax.ofTree tree).unlined := by
  rw [ofTree, ofTree, TypeReading.ofTree_unlined, TypeReading.type?_unlined, tree.tokens_unlined]
  cases (TypeReading.ofTree tree).type? <;> rfl

end Code

/-! ## Declared types -/

namespace TypeRef

theorem checkKnown_unlined (ts : List Token) : checkKnown (unlinedTokens ts) = checkKnown ts := by
  rw [checkKnown, checkKnown, anyLeafOf_unlinedTokens, textOf_unlinedTokens]

theorem ofText_unlined (ts : List Token) : TypeRef.ofText (unlinedTokens ts) = .ofText ts := by
  rw [ofText, ofText, textOf_unlinedTokens]

mutual

/-- A written type stands for the same type on the first line. -/
theorem ofSyntax_unlined (syn : TypeSyntax) : ofSyntax syn.unlined = ofSyntax syn := by
  match syn with
  | .named absolute names args =>
    rw [TypeSyntax.unlined, ofSyntax, ofSyntax, ofArguments_unlined args]
  | .shared inner | .slice inner =>
    rw [TypeSyntax.unlined, ofSyntax, ofSyntax, ofSyntax_unlined inner]
  | .paren inner =>
    rw [TypeSyntax.unlined, ofSyntax, ofSyntax, ofSyntax_unlined inner]
  | .borrowed tokens target =>
    rw [TypeSyntax.unlined, ofSyntax, ofSyntax, checkKnown_unlined, ofText_unlined]
  | .unit | .infer => rfl
  | .macroCall tokens => rw [TypeSyntax.unlined, ofSyntax, ofSyntax, textOf_unlinedTokens]
  | .verbatim tokens =>
    rw [TypeSyntax.unlined, ofSyntax, ofSyntax, checkKnown_unlined, ofText_unlined]

theorem ofArguments_unlined (args : List ArgumentSyntax) :
    ofArguments (unlinedArguments args) = ofArguments args := by
  match args with
  | [] => rfl
  | .type syn :: args =>
    rw [unlinedArguments, ArgumentSyntax.unlined, ofArguments, ofArguments, ofArgument, ofArgument,
      ofSyntax_unlined syn, ofArguments_unlined args]
  | .other tokens :: args =>
    rw [unlinedArguments, ArgumentSyntax.unlined, ofArguments, ofArguments, ofArgument, ofArgument,
      ofText_unlined, ofArguments_unlined args]

end

/-- A type stands for the same type on the first line. -/
theorem ofSyntax_ofTree_unlined (tree : ParseTree Part) :
    ofSyntax (.ofTree tree.unlined) = ofSyntax (.ofTree tree) := by
  rw [TypeSyntax.ofTree_unlined, ofSyntax_unlined]

end TypeRef

end DaoGen
