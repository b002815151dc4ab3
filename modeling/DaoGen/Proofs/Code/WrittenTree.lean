import DaoGen.Proofs.Code.TypeSum

/-!
# Texts of types

A text is that of a type if it spells the tokens of a tree that is read as a type from them. Texts
of references, slices, paths and arguments are put together from those of their parts, and a type
that is legible is read from the text of its tokens.

## Main definitions

* `IsTextOf`: a text that is read as a type.
* `IsArgumentText`: a text that is read as an argument between angle brackets.

## Main results

* `IsTextOf.parse_eq`: a text of a type is read as that type.
* `isTextOf_textOf`: a legible type is read from the text of its tokens.
* `isTextOf_path`: a path is read if its names and arguments are.
-/
namespace DaoGen.Code

open Code.Language

/-! ## Texts -/

/-- What is seen where a given type is read. -/
structure Begins (tree : ParseTree Part) (us : List Token) : Prop where
  starts : StartsType us
  lifetime : isSum tree = false → atLifetime us = false

/-- A text is read as a type wherever it stands, unless the type is a sum and none may stand
there. -/
structure IsTextOf (text : String) (tree : ParseTree Part) : Prop where
  reads : ∀ plus, (isSum tree = true → plus = true) →
    Rereads Closes (Begins tree) 2 (Language.call (.type plus)) [tree]
  node : isNode .type tree = true
  spells : Spells text.toList tree.pieces

/-- What is read as a type begins as one. -/
theorem Rereads.begins {front : List Token → Prop} {plus : Bool} {tree : ParseTree Part}
    (h : Rereads Closes front 2 (Language.call (.type plus)) [tree]) :
    Rereads Closes (Begins tree) 2 (Language.call (.type plus)) [tree] :=
  h.startsType.notAtLifetime.mono (fun _ => id) (fun _ hus => ⟨hus.1.2, hus.2⟩) (Nat.le_refl _)

/-- A text of a type is read as that type. -/
theorem IsTextOf.parse_eq {text : String} {tree : ParseTree Part} (h : IsTextOf text tree) :
    parseText (.type true) (lex text) = some [tree] := by
  obtain ⟨us, hus, hlex⟩ := h.spells.lex_eq
  have hspell : Spell (piecesOf [tree]) us := by simpa using hus
  have hread := ((h.reads true fun _ => rfl).reads hspell closes_nil).2 (Grammar.depthFor us)
    (by rw [Grammar.depthFor]; omega)
  rw [List.append_nil] at hread
  have hparse : language.read (Grammar.depthFor us) (.type true) us =
      .success { trees := [tree], rest := [] } := hread
  simp [parseText, hlex, Grammar.parse, hparse, Except.toOption]

/-! ## Types that keep their text -/

section Kept

variable {rules : Rule → List Token → Match Part} {ts : List Token} {plus : Bool}

/-- Nothing is read as a type where the tokens end. -/
theorem yields_type_nil : Yields rules (Language.type plus) [] fun _ _ => False := by
  have hnone {look : Look} (hlook : look [] = false) {p : P} {post : Trees → List Token → Prop}
      (h : look [] = true) : Yields rules p [] post := absurd h (by simp [hlook])
  have hop (text : String) : atOp text [] = false := by simp [atOp, takeOperator]
  exact .labelled <|
    .select_cons (hnone rfl) fun _ => .select_cons (hnone rfl) fun _ =>
    .select_cons (hnone rfl) fun _ =>
    .select_cons (hnone (by simp [startsPathType, hop, atPathName])) fun _ =>
    .select_cons (hnone rfl) fun _ => .select_cons (hnone rfl) fun _ =>
    .select_cons (hnone (hop _)) fun _ => .select_cons (hnone (hop _)) fun _ =>
    .select_cons (hnone (hop _)) fun _ => .select_cons (hnone rfl) fun _ =>
    .select_cons (hnone rfl) fun _ => .select_cons (hnone rfl) fun _ => .select_nil .noneOf

/-- Neither is anything at square brackets with nothing between them. -/
theorem yields_type_emptySlice {depth : Nat} {rest : List Token} :
    Yields (language.read depth) (Language.type plus) (.group .bracket [] :: rest)
      fun _ _ => False := by
  have hnone {look : Look} (hlook : look (.group .bracket [] :: rest) = false) {p : P}
      {post : Trees → List Token → Prop} (h : look (.group .bracket [] :: rest) = true) :
      Yields (language.read depth) p (.group .bracket [] :: rest) post :=
    absurd h (by simp [hlook])
  have hop (text : String) : atOp text (.group .bracket [] :: rest) = false := by
    simp [atOp, takeOperator]
  refine .labelled <|
    .select_cons (hnone rfl) fun _ => .select_cons (hnone rfl) fun _ =>
    .select_cons (hnone rfl) fun _ =>
    .select_cons (hnone (by simp [startsPathType, hop, atPathName])) fun _ =>
    .select_cons (hnone rfl) fun _ => .select_cons (fun _ => ?_)
      fun h => absurd h (by simp [atGroup])
  refine .labelled (.enclosed fun content later hts => .append (.call fun parsed hparsed => ?_))
  obtain rfl : [] = content := (Token.group.inj (List.cons.inj hts).1).2
  cases depth with
  | zero => cases hparsed
  | succ depth => exact (yields_type_nil parsed hparsed).elim

/-- There are tokens, and the first one is more than square brackets. -/
def HasText (ts : List Token) : Prop := ts ≠ [] ∧ ∀ rest, ts ≠ .group .bracket [] :: rest

/-- The text of such tokens is not that of empty square brackets. -/
theorem HasText.text_ne {ts : List Token} (h : HasText ts) (hplain : ArePlain ts) :
    textOf ts ≠ "[]" := by
  match ts, h, hplain with
  | t :: rest, h, hplain =>
    obtain ⟨c, tail, htext, -, hbracket⟩ := head_textOf hplain.1 rest
    intro heq
    rw [heq] at htext
    obtain ⟨content, rfl⟩ := hbracket (List.cons.inj htext).1.symm
    cases content with
    | nil => exact h.2 rest rfl
    | cons u content =>
      obtain ⟨d, inside, hinside, -⟩ := head_textOf (hplain.1 : ArePlain (u :: content)).1 content
      have hgroup : (Token.group .bracket (u :: content)).text.toList =
          '[' :: d :: (inside ++ [']']) := by
        rw [toList_group, insideOf, hinside]
        rfl
      have hlength := congrArg (fun text => text.toList.length) heq
      cases rest <;> simp [textOf, hgroup] at hlength
  | [], h, _ => exact absurd rfl h.1

theorem hasText_of_rereads {front : List Token → Prop} {extra : Nat} {tree : ParseTree Part}
    (h : Rereads Closes front extra (Language.call (.type plus)) [tree]) :
    HasText tree.tokens := by
  have hread := (h.reads (spell_tokensOf [tree]) closes_nil).2 _ (Nat.le_refl _)
  obtain ⟨less, -, hread⟩ := exists_run_of_reads hread
  rw [tokensOf_cons, tokensOf_nil, List.append_nil, List.append_nil] at hread
  refine ⟨fun hnone => ?_, fun rest hslice => ?_⟩
  · rw [hnone] at hread
    exact yields_type_nil _ hread
  · rw [hslice] at hread
    exact yields_type_emptySlice _ hread

theorem textOf_tokens_unlined (tree : ParseTree Part) :
    textOf tree.unlined.tokens = textOf tree.tokens := by
  rw [tree.tokens_unlined, textOf_unlinedTokens]

/-- The text of plain tokens is read as the pieces of their tree. -/
theorem ParseTree.spells_textOf {tree : ParseTree Part} (h : ArePlain tree.tokens) :
    Spells (textOf tree.tokens).toList tree.pieces := by
  rw [← tree.toTokens_pieces] at h ⊢
  exact Code.spells_textOf h

/-- A legible type is read from the text of its tokens. -/
theorem isTextOf_textOf {tree : ParseTree Part} (h : IsType tree) (hlegible : tree.IsLegible) :
    IsTextOf (textOf tree.tokens) tree.unlined ∧ textOf tree.tokens ≠ "[]" := by
  obtain ⟨depth, plus, ts, parsed, hparsed, htree⟩ := h
  have hreads := (rereads_type hparsed htree hlegible).mono
    (fun _ hus => Closes.ends hus parsed.rest) (fun _ => id) (Nat.le_refl _)
  have hplain : ArePlain tree.unlined.tokens := by simpa using hreads.plain
  have hnode : isNode .type tree = true := by
    obtain ⟨type, htype, hnode⟩ := (rulesStable_read depth).types plus ts parsed hparsed
    obtain rfl : type = tree := by simpa [htree] using htype.symm
    exact hnode
  have htext := (hasText_of_rereads hreads).text_ne hplain
  rw [← textOf_tokens_unlined]
  exact ⟨⟨fun plus' hsum => (hreads.atPlace hsum).begins, (isNode_unlined _ _).trans hnode,
    tree.unlined.spells_textOf hplain⟩, htext⟩

end Kept

/-! ## References, slices and the unit type -/

section Forms

variable {text : String} {tree : ParseTree Part}

theorem Begins.unmarked {us : List Token} (h : Begins tree us) (hsum : isSum tree = false) :
    atLifetime us = false ∧ atWord "mut" us = false := ⟨h.lifetime hsum, h.starts.writable⟩

/-- The tree of a shared reference. -/
def referenceTree (target : ParseTree Part) : ParseTree Part :=
  .node .type [.node .referenceType [.leaf (.punct '&'), target]]

/-- A type is read by its rule. -/
theorem Rereads.asType {front : List Token → Prop} {plus : Bool}
    (h : Rereads Closes front 1 (Language.type plus) [tree]) :
    Rereads Closes (Begins tree) 2 (Language.call (.type plus)) [tree] :=
  (h.call (r := .type plus)).begins

/-- A reference to anything but a sum is read from the text after a mark. -/
theorem IsTextOf.reference (h : IsTextOf text tree) (hsum : isSum tree = false) :
    IsTextOf ("&" ++ text) (referenceTree tree) where
  reads plus _ := by
    have hmark : Rereads (Begins tree) (MarkThen '&' (Begins tree)) 1 (Language.op "&")
        [.leaf (.punct '&')] := rereads_mark (by decide)
    have hlifetime : Rereads (Begins tree) (Begins tree) 1 optLifetime [] :=
      .given_neg fun us hus => (hus.unmarked hsum).1
    have hwritable : Rereads (Begins tree) (Begins tree) 1 (optWord "mut") [] :=
      .given_neg fun us hus => (hus.unmarked hsum).2
    have hmarks := (hmark.append hlifetime (Nat.le_add_right 1 _) (Nat.le_add_right 1 _)).append
      hwritable (Nat.le_add_right 1 _) (Nat.le_add_right 1 _)
    have hall : Rereads Closes (MarkThen '&' (Begins tree)) 1 referenceType
        [.node .referenceType [.leaf (.punct '&'), tree]] :=
      (hmarks.append (h.reads false (by simp [hsum])) (Nat.le_add_right 1 _) (by decide)).labelled
    have htype : Rereads Closes (MarkThen '&' (Begins tree)) 1 (Language.type plus)
        [referenceTree tree] := by
      refine .labelled <| .either_neg (.either_neg (.either_neg (.either_neg (.either_neg
        (.either_neg (.either_neg (.either_pos hall ?_) ?_) ?_) ?_) ?_) ?_) ?_) ?_ <;>
      · rintro _ ⟨joint, rest, rfl, -⟩
        simp [atWord, atGroup, atPointer, atAnyWord, startsPathType, atPathName, atOp, takeOperator]
    exact htype.asType
  node := rfl
  spells := by
    have hmark : Spells _ (.token (.punct '&') :: _) := .mark (c := '&') (by decide)
      (fun h => absurd h Bool.false_ne_true) h.spells fun h => absurd h (by decide)
    simpa [referenceTree] using hmark

/-- The tree of a slice. -/
def sliceTree (element : ParseTree Part) : ParseTree Part :=
  .node .type [.node .sliceType [.group .bracket [element]]]

/-- A slice is read from the text of its elements in square brackets. -/
theorem IsTextOf.slice (h : IsTextOf text tree) :
    IsTextOf ("[" ++ text ++ "]") (sliceTree tree) where
  reads plus _ := by
    have helement : Rereads Nothing (Begins tree) 2 (Language.call (.type true)) [tree] :=
      (h.reads true fun _ => rfl).mono (fun _ hus => hus ▸ closes_nil) (fun _ => id) (Nat.le_refl _)
    have hall : Rereads Closes (AtGroup .bracket) 1 sliceType
        [.node .sliceType [.group .bracket [tree]]] :=
      (rereads_slice helement).mono (fun _ _ => trivial) (fun _ => id) (Nat.le_refl 1)
    have htype : Rereads Closes (AtGroup .bracket) 1 (Language.type plus) [sliceTree tree] := by
      refine .labelled <| .either_neg (.either_neg (.either_neg (.either_neg (.either_neg
        (.either_pos hall ?_) ?_) ?_) ?_) ?_) ?_ <;>
      · rintro _ ⟨content, rest, rfl⟩
        simp [atWord, atGroup, atPointer, atAnyWord, startsPathType, atPathName, atOp, takeOperator]
    exact htype.asType
  node := rfl
  spells := by
    have hgroup := Spells.group (d := .bracket) (fun _ => rfl) h.spells .nil
    simpa [sliceTree, ParseTree.pieces, isSliceOf, h.node, bracketsOf] using hgroup

/-- The tree of the unit type. -/
def unitTree : ParseTree Part := .node .type [.node .unitType [.group .paren []]]

theorem isTextOf_unit : IsTextOf "()" unitTree where
  reads plus _ := by
    have hinside : Rereads Nothing Nothing 1 insideParens [] := by
      refine Rereads.empty.either_pos ?_
      rintro _ rfl
      rfl
    have hgroup : Rereads Closes (AtGroup .paren) 1 (parens insideParens) [.group .paren []] :=
      (hinside.enclosed (by decide)).mono (fun _ _ => trivial) (fun _ => id) (Nat.le_refl 1)
    have hafter : Rereads Closes Closes 1 (afterParens plus [.group .paren []]) [] := .empty
    have hall : Rereads Closes (AtGroup .paren) 1 (parenType plus)
        [.node .unitType [.group .paren []]] :=
      (hgroup.bind hafter (Nat.le_add_right 1 _) (Nat.le_add_right 1 _)).edited rfl rfl
    have htype : Rereads Closes (AtGroup .paren) 1 (Language.type plus) [unitTree] := by
      refine .labelled <| .either_neg (.either_pos hall ?_) ?_ <;>
      · rintro _ ⟨content, rest, rfl⟩
        rfl
    exact htype.asType
  node := rfl
  spells := unitTree.spells_textOf
    ⟨trivial, fun h => absurd h Bool.false_ne_true, trivial⟩

end Forms

/-! ## Arguments -/

section Arguments

variable {text : String} {tree : ParseTree Part}

/-- What is seen where an argument is read. -/
structure BeginsArgument (us : List Token) : Prop where
  greater : atOp ">" us = false
  equals : atOp "=" us = false
  less : atOp "<=" us = false

/-- A text is read as an argument that is no lifetime. -/
structure IsArgumentText (text : String) (tree : ParseTree Part) : Prop where
  reads : Rereads EndsArgument BeginsArgument 2 typeArgument [tree]
  node : isLeaf tree = false
  lifetime : isLifetimeTree tree = false
  tokens : tree.tokens ≠ []
  spells : Spells text.toList tree.pieces

/-- A type is read as an argument of its own. -/
theorem IsTextOf.argument (h : IsTextOf text tree) :
    IsArgumentText text (.node .typeArgument [tree]) where
  reads := by
    have htype : Rereads Closes (Begins tree) 2 (Language.call (.type true)) [tree] :=
      h.reads true fun _ => rfl
    have hnext : Rereads EndsArgument EndsArgument 2
        (if isSingleName [tree] then associated else .empty) [] := by
      split
      · exact (Rereads.empty.either_neg fun us hus => hus.marks.2.1).either_neg
          fun us hus => hus.marks.1
      · exact .empty
    have hall : Rereads EndsArgument (Begins tree) 2 (.labelled .typeArgument
        (.bind (Language.call (.type true)) fun type =>
          if isSingleName type then associated else .empty)) [.node .typeArgument [tree]] :=
      ((htype.mono (fun _ => EndsArgument.closes) (fun _ => id) (Nat.le_refl 2)).bind hnext
        (Nat.le_add_right 2 _) (Nat.le_add_right 2 _)).labelled
    refine ((hall.either_neg fun us hus => hus.starts.const).either_neg fun us hus => ?_).mono
      (fun _ => id) (fun us hus => ⟨hus.starts.greater, hus.starts.equals, hus.starts.less⟩)
        (Nat.le_refl 2)
    cases hlifetime : atLifetime us with
    | false => rfl
    | true => simp [hus.starts.lifetime hlifetime]
  node := rfl
  lifetime := rfl
  tokens := by simpa using (hasText_of_rereads (h.reads true fun _ => rfl)).1
  spells := by simpa using h.spells

section Edges

variable {depth : Nat} {ts rest : List Token}

/-- An argument that is no lifetime does not begin with the bracket that ends the list. -/
theorem yields_typeArgument_greater : Yields (language.read depth) typeArgument ts
    fun trees _ => trees.any isLifetimeTree = false → atOp ">" ts = false := by
  refine .select_cons (fun _ => .labelled (.lifetime fun _ _ _ => nofun)) fun _ =>
    .select_cons (fun hconst => Yields.any.mono fun _ _ _ _ => ?_) fun _ => .select_nil
      (.labelled (.bind (.call fun parsed hparsed => Yields.any.mono fun _ _ _ _ => ?_)))
  · match ts, hconst with
    | .ident _ _ :: _, _ | .literal _ :: _, _ | .group _ _ :: _, _ => simp [atOp, takeOperator]
    | .punct c joint :: _, hconst =>
      have hc : '>' ≠ c := by
        rintro rfl
        simp [atConstArgument, atLiteral, takeLiteral, atGroup] at hconst
      simp [atOp, takeOperator, hc]
  · exact (startsType_of_read hparsed).greater

/-- Nothing is read as an argument at square brackets with nothing between them. -/
theorem yields_typeArgument_emptySlice :
    Yields (language.read depth) typeArgument (.group .bracket [] :: rest) fun _ _ => False := by
  refine .select_cons (fun h => nomatch h) fun _ => .select_cons (fun h => nomatch h) fun _ =>
    .select_nil (.labelled (.bind (.call fun parsed hparsed => ?_)))
  cases depth with
  | zero => cases hparsed
  | succ depth => exact (yields_type_emptySlice parsed hparsed).elim

end Edges

theorem isLeaf_unlined (tree : ParseTree Part) : isLeaf tree.unlined = isLeaf tree := by
  cases tree <;> rfl

/-- An argument that is no type is read from the text of its tokens. -/
theorem isArgumentText_textOf (h : IsArgument tree) (hlegible : tree.IsLegible)
    (hnode : isLeaf tree = false) (hlifetime : isLifetimeTree tree = false) :
    IsArgumentText (textOf tree.tokens) tree.unlined ∧ textOf tree.tokens ≠ "[]" := by
  obtain ⟨depth, ts, parsed, hparsed, htree⟩ := h
  have hreads := stable_typeArgument (rulesStable_read depth) parsed hparsed
  rw [htree] at hreads
  obtain ⟨hsize, hreads⟩ := hreads (List.forall_mem_singleton.mpr hlegible)
  have hne : tree.unlined.tokens ≠ [] := by
    intro hnone
    simp [unlinedTrees, hnone, sizeOfTokens] at hsize
  have hplain : ArePlain tree.unlined.tokens := by simpa [unlinedTrees] using hreads.plain
  have hkept : isLifetimeTree tree.unlined = false := (isLifetimeTree_unlined tree).trans hlifetime
  have htext : HasText tree.unlined.tokens := by
    refine ⟨hne, fun rest hslice => ?_⟩
    have hread := (hreads.reads (spell_tokensOf _) (.inl ⟨false, [], rfl⟩)).2 _ (Nat.le_refl _)
    simp only [unlinedTrees, tokensOf_cons, tokensOf_nil, List.append_nil, hslice] at hread
    exact yields_typeArgument_emptySlice _ hread
  rw [← textOf_tokens_unlined]
  refine ⟨⟨⟨hreads.plain, fun hus hafter => ?_⟩, (isLeaf_unlined tree).trans hnode, hkept, hne,
    tree.unlined.spells_textOf hplain⟩, htext.text_ne hplain⟩
  obtain ⟨hfront, hread⟩ := hreads.reads hus hafter
  refine ⟨⟨?_, hfront.equals, hfront.less⟩, hread⟩
  exact yields_typeArgument_greater _ (hread _ (Nat.le_refl _)) (by simp [unlinedTrees, hkept])

/-- The tree of arguments between angle brackets. -/
def argumentsTree (members : Trees) : ParseTree Part :=
  .node .arguments (.leaf (.punct '<') :: (commaList members false ++ [.leaf (.punct '>')]))

/-- Arguments are read if each of them is. -/
theorem rereads_argumentsTree {members : Trees}
    (h : ∀ tree ∈ members, ∃ text, IsArgumentText text tree) :
    Rereads Anything (fun us => atArguments false us = true) 0 typeArguments
      [argumentsTree members] := by
  have hlist : Rereads (AtMark '>') OpensArguments 2
      (separated atAngleEnd (Language.op ",") typeArgument) (commaList members false) := by
    have hfront (us : List Token) (hus : AtMark '>' us ∨ BeginsArgument us) :
        OpensArguments us := hus.imp_right fun h => ⟨h.equals, h.less⟩
    refine (rereads_separated rereads_comma ?_ ?_ (fun tree htree => ?_) false).mono
      (fun _ => id) hfront (Nat.le_refl 2)
    · rintro _ ⟨joint, rest, rfl⟩
      simp [atAngleEnd, atOp, takeOperator]
    · rintro _ ⟨joint, rest, rfl⟩
      simp [atAngleEnd, atOp, takeOperator]
    · obtain ⟨text, hmember⟩ := h tree htree
      exact ⟨hmember.tokens, hmember.reads.mono (fun _ => id) (fun us hus => ⟨hus.greater, hus⟩)
        (Nat.le_refl 2)⟩
  have hmember (tree : ParseTree Part) (htree : tree ∈ members) :
      isLifetimeTree tree = false ∧ isMark ',' tree = false := by
    obtain ⟨text, hmember⟩ := h tree htree
    refine ⟨hmember.lifetime, ?_⟩
    cases tree with
    | leaf token => cases hmember.node
    | group | node => rfl
  have hnone : ∀ tree ∈ ([] : Trees), isLifetimeTree tree = true := List.forall_mem_nil _
  have hedit : lifetimesFirst (commaList members false) = commaList members false :=
    lifetimesFirst_eq_self hnone (fun tree htree => (hmember tree htree).1)
      (fun tree htree => (hmember tree htree).2) false
  have hopen : Rereads OpensArguments (MarkThen '<' OpensArguments) 0 (Language.op "<")
      [.leaf (.punct '<')] := rereads_mark (by decide)
  have hclose : Rereads Anything (AtMark '>') 0 (Language.op ">") [.leaf (.punct '>')] :=
    (rereads_mark (c := '>') (by decide)).mono (fun _ => id) (fun _ => MarkThen.atMark)
      (Nat.le_refl 0)
  have hangled : Rereads Anything (MarkThen '<' OpensArguments) 0 (Language.angled typeArgument)
      ([.leaf (.punct '<')] ++ commaList members false ++ [.leaf (.punct '>')]) :=
    (hopen.append (hlist.edited hedit rfl) (Nat.zero_le _) (by decide)).append hclose
      (Nat.zero_le _) (Nat.zero_le _)
  have hcolons : Rereads (MarkThen '<' OpensArguments) (MarkThen '<' OpensArguments) 0
      (optOp "::") [] := .given_neg fun us hus => (atArguments_of_markThen hus).2
  exact ((hcolons.append hangled (Nat.zero_le _) (Nat.zero_le _)).labelled).mono (fun _ => id)
    (fun us hus => (atArguments_of_markThen hus).1) (Nat.le_refl 0)

/-- The trees of a name with its arguments, if there are any. -/
def segmentTrees (name : String) (members : Trees) : Trees :=
  .leaf (.ident name 1) :: if members.isEmpty then [] else [argumentsTree members]

/-- A name is read with its arguments, if it can have any. -/
theorem rereads_segmentTrees {name : String} {members : Trees} (hword : IsWord name)
    (hname : isPathName name = true ∨ name = "try")
    (htarget : members.isEmpty = false → isName name = true ∨ name = "Self")
    (h : ∀ tree ∈ members, ∃ text, IsArgumentText text tree) :
    Rereads NoArguments (AtIdent name) 0 (segment false)
      [.node .segment (segmentTrees name members)] := by
  unfold segmentTrees
  split
  · exact rereads_plainSegment hword hname
  · next hmembers =>
    exact (rereads_genericSegment hword (htarget (by simpa using hmembers))
      (rereads_argumentsTree h)).mono (fun _ _ => trivial) (fun _ => id) (Nat.le_refl 0)

end Arguments

/-! ## Paths -/

/-- The tree of a type that is a path. -/
def pathTypeTree (absolute : Bool) (first : Trees) (later : List Trees) : ParseTree Part :=
  .node .type [.node .pathType [.node .path (pathTrees absolute first later)]]

/-- A path is read as a type if each of its names is read. -/
theorem rereads_pathType {absolute : Bool} {name : String} {first : Trees} {later : List Trees}
    (hstart : absolute = false → isPathName name = true)
    (hfirst : Rereads NoArguments (AtIdent name) 0 (segment false) [.node .segment first])
    (hlater : ∀ names ∈ later, ∃ name,
      Rereads NoArguments (AtIdent name) 0 (segment false) [.node .segment names]) (plus : Bool) :
    Rereads Closes (Begins (pathTypeTree absolute first later)) 2 (Language.call (.type plus))
      [pathTypeTree absolute first later] := by
  have hlooks (us : List Token) (hus : StartsPath absolute name us) : atOp "<" us = false ∧
      atWord "for" us = false ∧ atGroup .paren us = false ∧ atPointer us = false ∧
        startsPathType us = true := by
    cases absolute with
    | true =>
      obtain ⟨joint, rest, rfl, -⟩ := hus
      simp [atOp, takeOperator, atWord, atGroup, atPointer, atAnyWord, startsPathType, atPathName]
    | false =>
      obtain ⟨rest, rfl⟩ := hus
      have hname := hstart rfl
      have hne (word : String) (hword : isPathName word = false) : name ≠ word :=
        ne_of_isPathName hname hword
      simp [atOp, takeOperator, atWord, atGroup, atPointer, atAnyWord, startsPathType, atPathName,
        hname, hne "for" (by decide), hne "fn" (by decide), hne "unsafe" (by decide),
        hne "extern" (by decide)]
  have hpath : Rereads EndsPath (StartsPath absolute name) 1 (anyKindOfPath false)
      [.node .path (pathTrees absolute first later)] :=
    ((rereads_pathWith hfirst hlater).either_neg fun us hus => (hlooks us hus).1).mono
      (fun _ => id) (fun _ => id) (Nat.zero_le 1)
  have hafter : Rereads Closes EndsPath 1
      (afterPath plus [.node .path (pathTrees absolute first later)]) [] := by
    have hnone : Rereads Closes Closes 1 .empty [] := .empty
    refine ((hnone.either_neg fun us hus => ?_).either_neg fun us hus => ?_).mono (fun _ => id)
      (fun us hus => Ends.endsPath hus) (Nat.le_refl 1)
    · simp [hus.plus_eq_false]
    · simp [atMacroCall, atBang, hus.bang]
  have hall : Rereads Closes (StartsPath absolute name) 1 (.edited (pathType plus) labelPath)
      [.node .pathType [.node .path (pathTrees absolute first later)]] :=
    (hpath.bind hafter (Nat.le_add_right 1 _) (Nat.le_add_right 1 _)).edited rfl (by simp)
  have htype : Rereads Closes (StartsPath absolute name) 1 (Language.type plus)
      [pathTypeTree absolute first later] :=
    .labelled <| .either_neg (.either_neg (.either_neg (.either_pos hall
      fun us hus => (hlooks us hus).2.2.2.2) fun us hus => (hlooks us hus).2.2.2.1)
        fun us hus => (hlooks us hus).2.2.1) fun us hus => (hlooks us hus).2.1
  exact htype.asType

end DaoGen.Code
