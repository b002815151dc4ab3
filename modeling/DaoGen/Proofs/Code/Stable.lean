import DaoGen.Proofs.Code.Rereading

/-!
# Readings that are stable

What a production reads from a text is read again from its own tokens, unless some part of it is not
read at all but kept as it was written. `IsLegible` says that a tree has no such parts, or that they
are read again. `Stable` says that whatever a production reads is then read again; it goes from the
end of the text to its beginning: if what stands after the tokens goes on like what stood there
before, then the tokens begin as they did before.

## Main definitions

* `FillsAgain`: what is no type is read again from its own tokens.
* `ParseTree.IsLegible`: all of a tree can be read again.
* `Stable`: what a production reads is read again.
-/
namespace DaoGen.Code

open Code.Language

/-! ## Legible trees -/

/-- Whether a token is read from its text, on whatever line it stands. -/
def Token.IsLegible : Token → Prop
  | .ident text _ => IsWord text
  | .lifetime name => IsWord name
  | .punct ch _ => ch ∈ plainMarks ∨ ch = '/'
  | .literal text => IsLiteral text
  | .group _ content => ArePlain (unlinedTokens content)

/-- Whether what fills a group is read again from its own tokens. -/
structure FillsAgain (p : P) (trees : Trees) : Prop where
  plain : ArePlain (tokensOf (unlinedTrees trees))
  reads : Reads (language.read (64 * (sizeOfTokens (tokensOf (unlinedTrees trees)) + 1))) p
    (tokensOf (unlinedTrees trees)) (unlinedTrees trees) []

/-- What fills a group that is read as it is. -/
theorem FillsAgain.enclosed {p : P} {trees : Trees} {d : Delimiter} {extra : Nat}
    (h : FillsAgain p trees) (hd : isSliceOf d (unlinedTrees trees) = false) :
    Rereads Anything (AtGroup d) extra (.enclosed d p) [.group d (unlinedTrees trees)] :=
  rereads_enclosed h.plain hd fun _ hdepth => h.reads.mono hdepth

def isLeaf : ParseTree Part → Bool
  | .leaf _ => true
  | _ => false

mutual

/-- Whether all of a tree can be read again. This is asked of the parts that are no types: the
lengths of arrays, blocks and what attributes hold. A receiver with `mut`, an object type with a
star and a bound with a mark of constants, which are kept as written, are not legible, and neither
is a macro after binders. -/
def ParseTree.IsLegible : ParseTree Part → Prop
  | .leaf token => token.IsLegible
  | .group .brace children => FillsAgain (innerAttributes ++ call .statements) children
  | .group .paren children => children.any (isWord "mut") = false ∧ AreLegible children
  | .group .bracket children => AreLegible children
  | .node .attribute children => ∃ content,
    children = [.leaf (.punct '#'), .group .bracket content] ∧ FillsAgain attributeContent content
  | .node .sliceType [.group .bracket (element :: .leaf (.punct ';' _) :: length)] =>
    element.IsLegible ∧ FillsAgain (call (.expression true)) length
  | .node .otherType (.leaf (.ident "dyn" _) :: .leaf (.punct '*' _) :: _) => False
  | .node .macroType (.node .boundType _ :: _) => False
  | .node .bound children => children.all isLeaf = false ∧ AreLegible children
  | .node .constMark _ => False
  | .node _ children => AreLegible children

def AreLegible : Trees → Prop
  | [] => True
  | tree :: rest => tree.IsLegible ∧ AreLegible rest

end

theorem areLegible_iff_forall {trees : Trees} :
    AreLegible trees ↔ ∀ tree ∈ trees, tree.IsLegible := by
  induction trees with
  | nil => exact iff_of_true trivial nofun
  | cons tree trees ih => rw [AreLegible, ih, List.forall_mem_cons]

theorem areLegible_append {trees later : Trees} :
    AreLegible (trees ++ later) ↔ AreLegible trees ∧ AreLegible later := by
  simp only [areLegible_iff_forall, List.forall_mem_append]

theorem areLegible_singleton {tree : ParseTree Part} : AreLegible [tree] ↔ tree.IsLegible := by
  rw [AreLegible, AreLegible, and_true]

/-- The labels of parts that are legible only if what is inside is. -/
def isOpen (label : Part) : Bool := !decide (label ∈ [.attribute, .sliceType])

theorem areLegible_of_node {label : Part} {children : Trees} (hlabel : isOpen label = true)
    (h : (ParseTree.node label children).IsLegible) : AreLegible children := by
  unfold ParseTree.IsLegible at h
  split at h <;> simp_all [isOpen]

theorem areLegible_of_group {d : Delimiter} {children : Trees} (hd : d ≠ .brace)
    (h : (ParseTree.group d children : ParseTree Part).IsLegible) : AreLegible children := by
  cases d with
  | paren => exact h.2
  | bracket => exact h
  | brace => exact absurd rfl hd

/-! ## Trees on the first line -/

theorem unlinedTrees_append (trees later : Trees) :
    unlinedTrees (trees ++ later) = unlinedTrees trees ++ unlinedTrees later := by
  simp only [unlinedTrees_eq_map, List.map_append]

theorem isNode_unlined (label : Part) (tree : ParseTree Part) :
    isNode label tree.unlined = isNode label tree := by
  cases tree <;> rfl

theorem isMark_unlined (ch : Char) (tree : ParseTree Part) :
    isMark ch tree.unlined = isMark ch tree := by
  match tree with
  | .leaf (.ident _ _) | .leaf (.lifetime _) | .leaf (.punct _ _) | .leaf (.literal _)
  | .leaf (.group _ _) | .group _ _ | .node _ _ => rfl

theorem isWord_unlined (word : String) (tree : ParseTree Part) :
    isWord word tree.unlined = isWord word tree := by
  match tree with
  | .leaf (.ident _ _) | .leaf (.lifetime _) | .leaf (.punct _ _) | .leaf (.literal _)
  | .leaf (.group _ _) | .group _ _ | .node _ _ => rfl

/-- A test that does not see lines. -/
theorem any_unlinedTrees {test : ParseTree Part → Bool}
    (h : ∀ tree, test tree.unlined = test tree) (trees : Trees) :
    (unlinedTrees trees).any test = trees.any test := by
  rw [unlinedTrees_eq_map, List.any_map]
  exact congrArg _ (funext h)

/-- A single node on the first line comes from a single node. -/
theorem exists_of_unlinedTrees_eq {trees : Trees} {label : Part} {children : Trees}
    (h : unlinedTrees trees = [.node label children]) :
    ∃ children', trees = [.node label children'] ∧ unlinedTrees children' = children := by
  match trees, h with
  | [.node label' children'], h =>
    simp only [unlinedTrees, ParseTree.unlined, List.cons.injEq, ParseTree.node.injEq] at h
    obtain ⟨⟨rfl, rfl⟩, -⟩ := h
    exact ⟨children', rfl, rfl⟩
  | [.leaf _], h | [.group _ _], h => simp [unlinedTrees, ParseTree.unlined] at h
  | [], h | _ :: _ :: _, h => simp [unlinedTrees] at h

/-! ## Stable productions -/

/-- A relation between tokens and other ones that are read in their place. -/
abbrev Likeness := List Token → List Token → Prop

/-- Any tokens can stand in the place of any other ones. -/
def Unlike : Likeness := fun _ _ => True

/-- No tokens are left. -/
def Ended : Likeness := fun _ us => us = []

section Stable

variable (rules : Rule → List Token → Match Part) (legible : ParseTree Part → Prop)

/-- What a production reads is read again if it is legible and what stands after it is like what
stood there before; then all of it is like before. There are at least `size` tokens in it. -/
def Stable (follow front : Likeness) (size extra : Nat) (p : P) (ts : List Token) : Prop :=
  Yields rules p ts fun trees rest => (∀ tree ∈ trees, legible tree) →
    size ≤ sizeOfTokens (tokensOf (unlinedTrees trees)) ∧
      Rereads (follow rest) (front ts) extra p (unlinedTrees trees)

variable {rules legible} {legible' : ParseTree Part → Prop}
  {follow follow' mid front front' : Likeness} {size size₁ size₂ extra extra₁ extra₂ : Nat}
  {p q : P} {ts : List Token} {look : Look}

theorem Stable.mono (h : Stable rules legible follow front size₁ extra₁ p ts)
    (hfollow : ∀ ts us, follow' ts us → follow ts us) (hfront : ∀ us, front ts us → front' ts us)
    (hsize : size ≤ size₁) (hextra : extra₁ ≤ extra) :
    Stable rules legible follow' front' size extra p ts :=
  Yields.mono h fun _ _ h htrees =>
    ⟨hsize.trans (h htrees).1, (h htrees).2.mono (fun _ => hfollow _ _) hfront hextra⟩

theorem Stable.weaken (h : Stable rules legible follow front size extra p ts)
    (hlegible : ∀ tree, legible' tree → legible tree) :
    Stable rules legible' follow front size extra p ts :=
  Yields.mono h fun _ _ h htrees => h fun tree htree => hlegible tree (htrees tree htree)

theorem Stable.empty : Stable rules legible follow follow 0 extra .empty ts :=
  Yields.empty fun _ => ⟨Nat.zero_le _, .empty⟩

theorem Stable.missing {things : List String} :
    Stable rules legible follow front size extra (missing things) ts := Yields.missing

theorem Stable.noneOf {choices : List Choice} :
    Stable rules legible follow front size extra (noneOf choices) ts := Yields.noneOf

theorem Stable.refuse {reason : String} :
    Stable rules legible follow front size extra (refuse reason) ts := Yields.take nofun

/-- A production is stable where nothing that it reads is legible. -/
theorem Stable.of_illegible
    (h : Yields rules p ts fun trees _ => ∃ tree ∈ trees, ¬ legible tree) :
    Stable rules legible follow front size extra p ts :=
  Yields.mono h fun _ _ ⟨tree, htree, hillegible⟩ hlegible =>
    absurd (hlegible tree htree) hillegible

/-- A production that depends on what was read before it. -/
theorem Stable.bind {next : Trees → P} (hp : Stable rules legible mid front size₁ extra₁ p ts)
    (hnext : Yields rules p ts fun trees ms => (∀ tree ∈ trees, legible tree) →
      next (unlinedTrees trees) = next trees ∧
        Stable rules legible follow mid size₂ extra₂ (next trees) ms)
    (hleft : extra₁ ≤ extra + 64 * size₂) (hright : extra₂ ≤ extra + 64 * size₁) :
    Stable rules legible follow front (size₁ + size₂) extra (.bind p next) ts := by
  refine Yields.bind fun parsed hparsed more hmore hlegible => ?_
  obtain ⟨htrees, hlater⟩ := List.forall_mem_append.mp hlegible
  obtain ⟨hsize, hfirst⟩ := hp parsed hparsed htrees
  obtain ⟨hsame, hstable⟩ := hnext parsed hparsed htrees
  obtain ⟨hsize', hrest⟩ := hstable more hmore hlater
  rw [← hsame] at hrest
  rw [unlinedTrees_append, tokensOf_append, sizeOfTokens_append]
  exact ⟨by omega, hfirst.bind hrest (by omega) (by omega)⟩

/-- The second production is read where the first one ends. -/
theorem Stable.append_at (hp : Stable rules legible mid front size₁ extra₁ p ts)
    (hq : Yields rules p ts fun _ ms => Stable rules legible follow mid size₂ extra₂ q ms)
    (hleft : extra₁ ≤ extra + 64 * size₂) (hright : extra₂ ≤ extra + 64 * size₁) :
    Stable rules legible follow front (size₁ + size₂) extra (p ++ q) ts :=
  hp.bind (hq.mono fun _ _ hstable _ => ⟨rfl, hstable⟩) hleft hright

theorem Stable.append (hp : Stable rules legible mid front size₁ extra₁ p ts)
    (hq : ∀ ms, Stable rules legible follow mid size₂ extra₂ q ms)
    (hleft : extra₁ ≤ extra + 64 * size₂) (hright : extra₂ ≤ extra + 64 * size₁) :
    Stable rules legible follow front (size₁ + size₂) extra (p ++ q) ts :=
  hp.append_at (Yields.any.mono fun _ ms _ => hq ms) hleft hright

theorem Stable.labelled {label : Part}
    (hlegible : ∀ trees, legible (.node label trees) → ∀ tree ∈ trees, legible' tree)
    (h : Stable rules legible' follow front size extra p ts) :
    Stable rules legible follow front size extra (.labelled label p) ts := by
  refine Yields.labelled (Yields.mono h fun trees rest h htree => ?_)
  obtain ⟨hsize, hreads⟩ := h (hlegible trees (htree _ List.mem_cons_self))
  exact ⟨by simpa [unlinedTrees, ParseTree.unlined] using hsize, hreads.labelled⟩

/-- A label of parts that are legible if what is inside is. -/
theorem Stable.part {label : Part} (hlabel : isOpen label = true)
    (h : Stable rules ParseTree.IsLegible follow front size extra p ts) :
    Stable rules ParseTree.IsLegible follow front size extra (.labelled label p) ts :=
  h.labelled fun _ htree => areLegible_iff_forall.mp (areLegible_of_node hlabel htree)

/-- A label that is put on all that was read. -/
theorem Stable.relabelled {edit : Trees → Trees}
    (h : Stable rules ParseTree.IsLegible follow front size extra p ts)
    (hlines : ∀ trees, edit (unlinedTrees trees) = unlinedTrees (edit trees))
    (hedit : Yields rules p ts fun trees _ => (∀ tree ∈ edit trees, tree.IsLegible) →
      ∃ label, isOpen label = true ∧ edit trees = [.node label trees]) :
    Stable rules ParseTree.IsLegible follow front size extra (.edited p edit) ts := by
  refine Yields.edited fun parsed hparsed hlegible => ?_
  obtain ⟨label, hopen, heq⟩ := hedit parsed hparsed hlegible
  have hunlined : edit (unlinedTrees parsed.trees) = [.node label (unlinedTrees parsed.trees)] := by
    rw [hlines, heq]
    rfl
  rw [heq] at hlegible ⊢
  have htrees := areLegible_of_node hopen (hlegible _ List.mem_cons_self)
  obtain ⟨hsize, hreads⟩ := h parsed hparsed (areLegible_iff_forall.mp htrees)
  have hall := hreads.edited hunlined (by simp)
  exact ⟨by simpa [unlinedTrees, ParseTree.unlined] using hsize, hall⟩

/-- The test of the tokens ahead decides as it did before. -/
theorem Stable.either (hlook : ∀ us, front ts us → look us = look ts)
    (hyes : look ts = true → Stable rules legible follow front size extra p ts)
    (hno : look ts = false → Stable rules legible follow front size extra q ts) :
    Stable rules legible follow front size extra (.either look p q) ts := by
  refine Yields.either (fun h => ?_) fun h => ?_
  · refine Yields.mono (hyes h) fun trees rest hp htrees => ⟨(hp htrees).1, ?_⟩
    exact (hp htrees).2.either_pos fun us hus => (hlook us hus).trans h
  · refine Yields.mono (hno h) fun trees rest hq htrees => ⟨(hq htrees).1, ?_⟩
    exact (hq htrees).2.either_neg fun us hus => (hlook us hus).trans h

theorem Stable.given (hlook : ∀ us, front ts us → look us = look ts)
    (hyes : look ts = true → Stable rules legible follow front 0 extra p ts)
    (hno : look ts = false → ∀ us, follow ts us → front ts us) :
    Stable rules legible follow front 0 extra (.given look p) ts :=
  .either hlook hyes fun h =>
    Stable.empty.mono (fun _ _ => id) (hno h) (Nat.le_refl 0) (Nat.le_refl extra)

theorem Stable.select_cons {alternatives : List (Look × P)}
    (hlook : ∀ us, front ts us → look us = look ts)
    (hyes : look ts = true → Stable rules legible follow front size extra p ts)
    (hno : look ts = false →
      Stable rules legible follow front size extra (select alternatives q) ts) :
    Stable rules legible follow front size extra (select ((look, p) :: alternatives) q) ts :=
  .either hlook hyes hno

theorem Stable.select_nil (h : Stable rules legible follow front size extra q ts) :
    Stable rules legible follow front size extra (select [] q) ts := h

/-- What is between brackets is read again up to its end. -/
theorem Stable.enclosed {d : Delimiter}
    (hlegible : ∀ trees, legible (.group d trees) → ∀ tree ∈ trees, legible' tree)
    (h : ∀ content, Stable rules legible' Ended front size extra₁ p content)
    (hextra : extra₁ ≤ extra + 64) :
    Stable rules legible Unlike (fun ts us => SameHead ts us ∧ atGroup d us = true) 1 extra
      (.enclosed d p) ts := by
  refine Yields.enclosed fun content rest hts parsed hparsed htree => ?_
  obtain ⟨_, hreads⟩ := h content parsed hparsed (hlegible _ (htree _ List.mem_cons_self))
  refine ⟨by simp [unlinedTrees, ParseTree.unlined, sizeOfTokens, Token.size], ?_⟩
  refine (hreads.enclosed hextra).mono (fun _ _ => trivial) ?_ (Nat.le_refl _)
  rintro _ ⟨inside, later, rfl⟩
  subst hts
  exact ⟨⟨⟨_, _, _, _, rfl, rfl, rfl⟩, by simp [atOp, takeOperator]⟩, by simp [atGroup]⟩

/-! ## Single tokens -/

theorem takeCharacters_eq_some {cs : List Char} {taken rest : List Token}
    (h : takeCharacters cs ts = some (taken, rest)) :
    taken = Code.operator cs ∧
      ∃ c joint later, cs.head? = some c ∧ ts = .punct c joint :: later := by
  fun_induction takeCharacters cs ts generalizing taken with
  | case1 | case3 | case5 | case6 => cases h
  | case2 c joint =>
    cases h
    exact ⟨rfl, c, joint, _, rfl, rfl⟩
  | case4 c d cs later ih =>
    obtain ⟨⟨more, _⟩, hmore, heq⟩ := Option.map_eq_some_iff.mp h
    cases heq
    exact ⟨by rw [(ih hmore).1]; rfl, _, true, later, rfl, rfl⟩

theorem unlinedTrees_operator (cs : List Char) :
    unlinedTrees ((Code.operator cs).map .leaf : Trees) = (Code.operator cs).map .leaf := by
  induction cs using operator.induct with
  | case1 | case2 => rfl
  | case3 c rest hrest ih =>
    rw [operator.eq_3 _ _ hrest, List.map_cons, unlinedTrees, ih]
    rfl

theorem one_le_sizeOfTokens (h : ts ≠ []) : 1 ≤ sizeOfTokens ts :=
  (List.length_pos_iff.mpr h).trans_le (length_le_sizeOfTokens ts)

theorem operator_ne_nil {cs : List Char} (h : cs ≠ []) : Code.operator cs ≠ [] := by
  match cs, h with
  | [c], _ | c :: _ :: _, _ => exact nofun

/-- Whether a text is an operator that is seen by its first mark. A single colon is not, since it
may begin two. -/
def isMarked (text : String) : Bool :=
  !text.toList.isEmpty && text.toList.all plainMarks.contains &&
    (text.toList.head? != some ':' || text == "::")

theorem sameHead_of_takeOperator {text : String} (h : isMarked text = true) {us : List Token}
    {split : List Token × List Token} (hts : takeOperator text ts = some split)
    (hus : atOp text us = true) : SameHead ts us := by
  obtain ⟨split', hus'⟩ := Option.isSome_iff_exists.mp hus
  obtain ⟨c, joint, later, hc, rfl⟩ := (takeCharacters_eq_some hts).2
  obtain ⟨c', joint', later', hc', rfl⟩ := (takeCharacters_eq_some hus').2
  obtain rfl : c = c' := Option.some.inj (hc.symm.trans hc')
  refine ⟨⟨_, _, _, _, rfl, rfl, rfl⟩, ?_⟩
  rw [isMarked, Bool.and_eq_true, Bool.or_eq_true] at h
  rcases h.2 with hother | hcolons
  · have hne : ':' ≠ c := by
      rintro rfl
      simp [hc] at hother
    simp [atOp, takeOperator, hne]
  · obtain rfl : text = "::" := by simpa using hcolons
    rw [hus, atOp, hts]
    rfl

theorem Stable.op {text : String} (h : isMarked text = true) :
    Stable rules legible Unlike (fun ts us => SameHead ts us ∧ atOp text us = true) 1 extra
      (Language.op text) ts := by
  refine Yields.op fun taken rest htake _ => ?_
  obtain ⟨⟨hne, hmarks⟩, -⟩ : (text.toList ≠ [] ∧ ∀ c ∈ text.toList, c ∈ plainMarks) ∧ _ := by
    simpa [isMarked] using h
  rw [(takeCharacters_eq_some htake).1, unlinedTrees_operator]
  refine ⟨?_, (rereads_op hne hmarks).mono (fun _ _ => trivial)
    (fun us hus => ⟨sameHead_of_takeOperator h htake hus, hus⟩) (Nat.le_refl _)⟩
  rw [tokensOf_map_leaf]
  exact one_le_sizeOfTokens (operator_ne_nil hne)

/-- A mark, and what stands after it. -/
def AfterMark (c : Char) (after : Likeness) (ts us : List Token) : Prop :=
  ∃ joint rest joint' later, ts = .punct c joint :: rest ∧ us = .punct c joint' :: later ∧
    after rest later

theorem Yields.markAt {c : Char} {post : Trees → List Token → Prop}
    (h : ∀ joint rest, ts = .punct c joint :: rest → post [.leaf (.punct c)] rest) :
    Yields rules (Language.op (String.singleton c)) ts post := by
  refine Yields.op fun taken rest htake => ?_
  have htake : takeCharacters [c] ts = some (taken, rest) := by simpa [takeOperator] using htake
  obtain ⟨rfl, d, joint, more, hd, rfl⟩ := takeCharacters_eq_some htake
  obtain rfl : c = d := Option.some.inj hd
  obtain ⟨-, rfl⟩ : [Token.punct c] = Code.operator [c] ∧ more = rest := by simpa using htake
  exact h joint more rfl

theorem Stable.mark {c : Char} (hc : c ∈ plainMarks) :
    Stable rules legible follow (AfterMark c follow) 1 extra (Language.op (String.singleton c))
      ts := by
  refine Yields.markAt fun joint rest hts _ => ⟨Nat.le_refl 1, ?_⟩
  refine (rereads_mark hc).mono (fun _ => id) ?_ (Nat.le_refl _)
  rintro _ ⟨joint', later, rfl, hlater⟩
  exact ⟨joint, rest, joint', later, hts, rfl, hlater⟩

theorem AfterMark.atMark {c : Char} {after : Likeness} {us : List Token}
    (h : AfterMark c after ts us) : AtMark c us := by
  obtain ⟨-, -, joint, later, -, rfl, -⟩ := h
  exact ⟨joint, later, rfl⟩

theorem AfterMark.markThen {c : Char} {after : List Token → Prop} {us : List Token}
    (h : AfterMark c (fun _ => after) ts us) : MarkThen c after us := by
  obtain ⟨-, -, joint, later, -, rfl, hlater⟩ := h
  exact ⟨joint, later, rfl, hlater⟩

/-- A mark that ends something, whatever stands after it. -/
theorem Stable.closing {c : Char} (hc : c ∈ plainMarks) :
    Stable rules legible follow (fun _ => AtMark c) 1 extra (Language.op (String.singleton c)) ts :=
  (Stable.mark hc).mono (fun _ _ => id) (fun _ => AfterMark.atMark) (Nat.le_refl _) (Nat.le_refl _)

/-- A colon with what is read after it. -/
theorem Stable.colon_append (hq : ∀ ms, Stable rules legible follow mid size extra q ms)
    (hfollow : ∀ ts us, follow ts us → atOp ":" us = false) :
    Stable rules legible follow (fun _ us => atColon us = true) (1 + size) extra
      (Language.op ":" ++ q) ts := by
  refine Yields.append (.mark (c := ':') fun rest later hlater hlegible => ?_)
  obtain ⟨hsize, hreads⟩ := hq rest later hlater fun tree htree =>
    hlegible tree (List.mem_append_right _ htree)
  have hboth := rereads_colon (hreads.mono (fun _ => id) (fun _ _ => trivial) (Nat.le_refl _))
    (hfollow later.rest)
  refine ⟨?_, hboth⟩
  simp only [List.singleton_append, unlinedTrees, tokensOf_cons, sizeOfTokens_append]
  simp only [ParseTree.unlined, Token.unlined, ParseTree.tokens_leaf, sizeOfTokens, Token.size]
  omega

theorem sameHead_ident (text : String) {line line' : Nat} (rest later : List Token) :
    SameHead (.ident text line :: rest) (.ident text line' :: later) :=
  sameHead_cons (t := .ident text line) (u := .ident text line') rfl rfl rfl rest later

theorem Stable.word {text : String} :
    Stable rules ParseTree.IsLegible Unlike (fun ts us => SameHead ts us ∧ AtIdent text us) 1 extra
      (Language.word text) ts := by
  refine Yields.word fun line rest hts htree => ⟨Nat.le_refl _, ?_⟩
  have hword : IsWord text := htree _ List.mem_cons_self
  refine (rereads_word hword).mono (fun _ _ => trivial) ?_ (Nat.le_refl _)
  rintro _ ⟨later, rfl⟩
  exact ⟨hts ▸ sameHead_ident text rest later, later, rfl⟩

theorem Stable.anyName :
    Stable rules ParseTree.IsLegible Unlike SameHead 1 extra anyName ts := by
  refine Yields.anyName fun text line rest hts htree => ⟨Nat.le_refl _, ?_⟩
  have hword : IsWord text := htree _ List.mem_cons_self
  refine (rereads_anyName hword).mono (fun _ _ => trivial) ?_ (Nat.le_refl _)
  rintro _ ⟨later, rfl⟩
  exact hts ▸ sameHead_ident text rest later

theorem Stable.name : Stable rules ParseTree.IsLegible Unlike SameHead 1 extra name ts := by
  refine Yields.name fun text line rest hts hname htree => ⟨Nat.le_refl _, ?_⟩
  have hword : IsWord text := htree _ List.mem_cons_self
  refine (rereads_name hword hname).mono (fun _ _ => trivial) ?_ (Nat.le_refl _)
  rintro _ ⟨later, rfl⟩
  exact hts ▸ sameHead_ident text rest later

/-- A lifetime, and what stands after it. -/
def AfterLifetime (after : Likeness) (ts us : List Token) : Prop :=
  ∃ name rest later, ts = .lifetime name :: rest ∧ us = .lifetime name :: later ∧ after rest later

theorem AfterLifetime.sameHead {after : Likeness} {us : List Token}
    (h : AfterLifetime after ts us) : SameHead ts us := by
  obtain ⟨name, rest, later, rfl, rfl, -⟩ := h
  exact sameHead_cons (t := .lifetime name) rfl rfl rfl rest later

theorem Stable.lifetime :
    Stable rules ParseTree.IsLegible follow (AfterLifetime follow) 1 extra lifetime ts := by
  refine Yields.lifetime fun name rest hts htree => ⟨Nat.le_refl _, ?_⟩
  have hword : IsWord name := htree _ List.mem_cons_self
  refine (rereads_lifetime hword).mono (fun _ => id) ?_ (Nat.le_refl _)
  rintro _ ⟨later, rfl, hlater⟩
  exact ⟨name, rest, later, hts, rfl, hlater⟩

/-- The colons of a path, and what stands after them. -/
def AfterColons (after : Likeness) (ts us : List Token) : Prop :=
  ∃ joint rest joint' later, ts = .punct ':' true :: .punct ':' joint :: rest ∧
    us = .punct ':' true :: .punct ':' joint' :: later ∧ after rest later

theorem AfterColons.sameHead {after : Likeness} {us : List Token} (h : AfterColons after ts us) :
    SameHead ts us := by
  obtain ⟨joint, rest, joint', later, rfl, rfl, -⟩ := h
  exact ⟨⟨_, _, _, _, rfl, rfl, rfl⟩, by simp [atOp, takeOperator]⟩

theorem Yields.colonsAt {post : Trees → List Token → Prop}
    (h : ∀ joint rest, ts = .punct ':' true :: .punct ':' joint :: rest → post colonTrees rest) :
    Yields rules (Language.op "::") ts post := by
  refine Yields.op fun taken rest htake => ?_
  have htake : takeCharacters [':', ':'] ts = some (taken, rest) := htake
  match ts with
  | [] | .ident _ _ :: _ | .lifetime _ :: _ | .literal _ :: _ | .group _ _ :: _ =>
    simp at htake
  | .punct ch joint :: later =>
    rw [takeCharacters_cons_cons] at htake
    split at htake
    · next hjoint =>
      obtain ⟨rfl, rfl⟩ := hjoint
      obtain ⟨⟨second, _⟩, hsecond, heq⟩ := Option.map_eq_some_iff.mp htake
      obtain ⟨hsecond', d, joint, more, hd, rfl⟩ := takeCharacters_eq_some hsecond
      obtain rfl : ':' = d := Option.some.inj hd
      obtain ⟨-, rfl⟩ : _ ∧ more = _ := by simpa using hsecond
      cases heq
      exact hsecond' ▸ h joint _ rfl
    · cases htake

theorem Stable.colons :
    Stable rules legible follow (AfterColons follow) 2 extra (Language.op "::") ts := by
  refine Yields.colonsAt fun joint rest hts _ => ⟨Nat.le_refl 2, ?_⟩
  refine rereads_colons.mono (fun _ => id) ?_ (Nat.le_refl _)
  rintro _ ⟨joint', later, rfl, hlater⟩
  exact ⟨joint, rest, joint', later, hts, rfl, hlater⟩

theorem Yields.literal {post : Trees → List Token → Prop}
    (h : ∀ taken rest, takeLiteral ts = some (taken, rest) → post (taken.map .leaf) rest) :
    Yields rules literal ts post := by
  refine .take fun taken rest hscan => h taken rest ?_
  dsimp only at hscan
  split at hscan
  · next split hsplit =>
    cases hscan
    exact hsplit
  · cases hscan

theorem literalAhead?_eq {taken rest : List Token} (h : takeLiteral ts = some (taken, rest)) :
    literalAhead? ts = LiteralValue.of? (literalText taken) := by
  rw [literalAhead?, h]
  rfl

/-- A literal is ahead again, and denotes the same. -/
theorem Stable.literal : Stable rules ParseTree.IsLegible Unlike
    (fun ts us => SameHead ts us ∧ atLiteral us = true ∧ literalAhead? us = literalAhead? ts)
      1 extra literal ts := by
  refine Yields.literal fun taken rest htaken hlegible => ?_
  have hahead := literalAhead?_eq htaken
  -- what is taken begins with the same token, in each of the forms of a literal
  have hsame (trees us after : List Token) (hhead : SameHead ts (us ++ after))
      (htext : literalText trees = literalText taken)
      (h : takeLiteral (us ++ after) = some (trees, after)) :
      (SameHead ts (us ++ after) ∧ atLiteral (us ++ after) = true ∧
        literalAhead? (us ++ after) = literalAhead? ts) ∧ ∀ depth,
          Reads (language.read depth) Language.literal (us ++ after) (trees.map .leaf) after :=
    ⟨⟨hhead, by simp [atLiteral, h], by rw [literalAhead?_eq h, htext, hahead]⟩,
      fun _ => .take trees (by simp [h])⟩
  unfold takeLiteral at htaken
  split at htaken
  · next text later =>
    cases htaken
    have hliteral : IsLiteral text := hlegible _ List.mem_cons_self
    refine ⟨Nat.le_refl _, ?_, fun {us after} hus _ => ?_⟩
    · simpa [unlinedTrees, ParseTree.unlined, Token.unlined, ArePlain, Token.IsPlain,
        Token.isJoint] using hliteral
    · obtain rfl : us = [.literal text] := by
        simpa [unlinedTrees, ParseTree.unlined, Token.unlined] using hus
      have hread := hsame [.literal text] [.literal text] after
        (sameHead_cons (t := .literal text) rfl rfl rfl _ _) rfl rfl
      exact ⟨hread.1, fun depth _ => hread.2 depth⟩
  · next text line later =>
    split at htaken
    · next hbool =>
      cases htaken
      have hword : IsWord text := hlegible _ List.mem_cons_self
      refine ⟨Nat.le_refl _, ?_, fun {us after} hus _ => ?_⟩
      · simpa [unlinedTrees, ParseTree.unlined, Token.unlined, ArePlain, Token.IsPlain,
          Token.isJoint] using hword
      · obtain rfl : us = [.ident text 1] := by
          simpa [unlinedTrees, ParseTree.unlined, Token.unlined] using hus
        have hread := hsame [.ident text 1] [.ident text 1] after
          (sameHead_ident text _ _) (by simp [literalText, Token.text])
          (by simp [takeLiteral, hbool])
        exact ⟨hread.1, fun depth _ => hread.2 depth⟩
    · cases htaken
  · next joint text later =>
    split at htaken
    · next hnumber =>
      cases htaken
      have hliteral : IsLiteral text := hlegible _ (List.mem_cons_of_mem _ List.mem_cons_self)
      refine ⟨by simp [unlinedTrees, ParseTree.unlined, Token.unlined, sizeOfTokens, Token.size],
        ?_, fun {us after} hus _ => ?_⟩
      · simpa [unlinedTrees, ParseTree.unlined, Token.unlined, ArePlain, Token.IsPlain,
          Token.isJoint, plainMarks] using hliteral
      · obtain ⟨joint', rfl⟩ : ∃ joint', us = [.punct '-' joint', .literal text] := by
          simpa [unlinedTrees, ParseTree.unlined, Token.unlined] using hus
        have hread := hsame [.punct '-', .literal text] [.punct '-' joint', .literal text] after
          (sameHead_cons (t := .punct '-' joint) (u := .punct '-' joint') rfl rfl rfl _ _) rfl
          (by simp [takeLiteral, hnumber])
        exact ⟨hread.1, fun depth _ => hread.2 depth⟩
    · cases htaken
  · cases htaken

/-! ## Repetitions -/

/-- A repeated production is stable if each repetition is, consumes tokens and leaves something like
before. -/
theorem Stable.repeated {R : Likeness} (hnil : look [] = false)
    (hlook : ∀ ts us, R ts us → look us = look ts)
    (hend : ∀ ts, look ts = false → ∀ us, follow ts us → R ts us)
    (hitem : ∀ ts, look ts = true → Stable rules legible R R 1 extra p ts)
    (hless : ∀ ts, look ts = true → Yields rules p ts fun _ rest => rest.length < ts.length) :
    Stable rules legible follow R 0 extra (.repeated look p) ts := by
  have hmany : ∀ fuel ts parsed, ts.length ≤ fuel →
      repeatMatch look (p.run rules) fuel ts = .success parsed →
      (∀ tree ∈ parsed.trees, legible tree) →
        RereadsMany (follow parsed.rest) (R ts) extra look p (unlinedTrees parsed.trees) := by
    have hdone (ts : List Token) (h : look ts = false) :
        RereadsMany (follow ts) (R ts) extra look p [] :=
      (RereadsMany.nil fun us hus => (hlook ts us hus).trans h).mono (hend ts h) fun _ => id
    intro fuel
    induction fuel with
    | zero =>
      intro ts parsed hfuel hparsed _
      obtain rfl : ts = [] := by simpa using hfuel
      cases hparsed
      exact hdone [] hnil
    | succ fuel ih =>
      intro ts parsed hfuel hparsed htrees
      rw [repeatMatch] at hparsed
      split at hparsed
      · next hts =>
        obtain ⟨first, more, hfirst, hmore, rfl⟩ := Match.andThen_eq_success.mp hparsed
        have hshorter := hless ts hts first hfirst
        rw [if_pos hshorter] at hmore
        obtain ⟨htrees, hlater⟩ := List.forall_mem_append.mp htrees
        obtain ⟨hsize, hreads⟩ := hitem ts hts first hfirst htrees
        have hrest := ih first.rest more (by omega) hmore hlater
        rw [Parsed.followedBy, unlinedTrees_append]
        refine hrest.cons hreads (fun us hus => (hlook ts us hus).trans hts) ?_
        intro hnone
        rw [hnone] at hsize
        simp [sizeOfTokens] at hsize
      · next hts =>
        cases hparsed
        exact hdone ts (by simpa using hts)
  intro parsed hparsed htrees
  rw [Production.run] at hparsed
  exact ⟨Nat.zero_le _, (hmany ts.length ts parsed (Nat.le_refl _) hparsed htrees).rereads⟩

end Stable

end DaoGen.Code
