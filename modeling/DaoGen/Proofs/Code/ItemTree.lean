import DaoGen.Proofs.Code.Words

/-!
# Names of items

What a file declares is called by the words of the file. The names are found at the places where
declarations introduce them, and the tokens there are tokens of the file: a production takes tokens
from the front only, so what comes after an item is an end of what came before it.

## Main definitions

* `ItemSyntax.HasNames`: an item and the items inside it have names with a property.
* `IsItemName`: a word that can be the name of an item.
* `ReadsItems`: every item among what a production reads has such names.

## Main results

* `hasNames_of_parseFile`: the names of all items of a file are words.
-/
namespace DaoGen.Code

open Code.Language

/-! ## Names -/

mutual

/-- An item and the items inside it have names with a property. -/
def ItemSyntax.HasNames (p : String → Prop) : ItemSyntax → Prop
  | .struct _ name _ _ | .interface _ name _ _ => p name.text
  | .module name items => p name.text ∧ HaveNames p items

def HaveNames (p : String → Prop) : List ItemSyntax → Prop
  | [] => True
  | item :: rest => item.HasNames p ∧ HaveNames p rest

end

theorem haveNames_append {p : String → Prop} {items items' : List ItemSyntax} :
    HaveNames p (items ++ items') ↔ HaveNames p items ∧ HaveNames p items' := by
  induction items with
  | nil => simp [HaveNames]
  | cons item items ih => simp [HaveNames, ih, and_assoc]

theorem ItemSyntax.hasNames_withAttributes {p : String → Prop} (attributes : List Attribute)
    (item : ItemSyntax) : (item.withAttributes attributes).HasNames p ↔ item.HasNames p := by
  cases item <;> simp [ItemSyntax.withAttributes, ItemSyntax.HasNames]

theorem haveNames_map_withAttributes {p : String → Prop} (attributes : List Attribute)
    (items : List ItemSyntax) :
    HaveNames p (items.map (.withAttributes attributes)) ↔ HaveNames p items := by
  induction items with
  | nil => rfl
  | cons item items ih =>
    rw [List.map_cons, HaveNames, HaveNames, ih, item.hasNames_withAttributes]

/-- A word that can be the name of an item. -/
def IsItemName (text : String) : Prop := IsWord text ∧ (isName text = true ∨ text = "try")

theorem IsItemName.ne_empty {text : String} (h : IsItemName text) : text ≠ "" := by
  rintro rfl
  exact absurd h.1 (by decide)

theorem itemsOfTrees_append (trees later : Trees) :
    itemsOfTrees (trees ++ later) = itemsOfTrees trees ++ itemsOfTrees later := by
  induction trees with
  | nil => rfl
  | cons tree trees ih => rw [List.cons_append, itemsOfTrees, itemsOfTrees, ih, List.append_assoc]

theorem itemsOfTrees_leaves (tokens : List Token) : itemsOfTrees (tokens.map .leaf) = [] := by
  induction tokens with
  | nil => rfl
  | cons token tokens ih => rw [List.map_cons, itemsOfTrees, ih, itemsOfTree, List.append_nil]

/-- The items among trees have names that items can have. -/
def HaveItemNames (trees : Trees) : Prop := HaveNames IsItemName (itemsOfTrees trees)

theorem haveItemNames_append {trees later : Trees} :
    HaveItemNames (trees ++ later) ↔ HaveItemNames trees ∧ HaveItemNames later := by
  rw [HaveItemNames, itemsOfTrees_append, haveNames_append]
  rfl

theorem haveItemNames_leaves (tokens : List Token) : HaveItemNames (tokens.map .leaf) := by
  rw [HaveItemNames, itemsOfTrees_leaves]
  trivial

theorem haveItemNames_iff_forall {trees : Trees} :
    HaveItemNames trees ↔ ∀ tree ∈ trees, HaveItemNames [tree] := by
  induction trees with
  | nil => exact iff_of_true trivial (List.forall_mem_nil _)
  | cons tree trees ih =>
    rw [List.forall_mem_cons, ← ih]
    exact @haveItemNames_append [tree] trees

/-- The parts of a file that declare items or have items among their own parts. -/
def itemParts : List Part := [.structItem, .traitItem, .moduleItem, .item]

theorem haveItemNames_node {label : Part} (h : label ∉ itemParts) (trees : Trees) :
    HaveItemNames [.node label trees] := by
  have hnone : itemsOfTree (.node label trees) = [] := by
    simp only [itemParts, List.mem_cons, List.not_mem_nil, or_false, not_or] at h
    unfold itemsOfTree
    split <;> simp_all
  rw [HaveItemNames, itemsOfTrees, hnone]
  trivial

namespace ParseTree

theorem childrenOf?_append (label : Part) (trees later : Trees) :
    childrenOf? label (trees ++ later) = (childrenOf? label trees).or (childrenOf? label later) :=
  List.findSome?_append

theorem childrenOf?_leaves (label : Part) (tokens : List Token) :
    childrenOf? label (tokens.map .leaf) = none := by
  simp [childrenOf?]

theorem declaredName_of_childrenOf? {trees : Trees} {text : String} {line : Nat}
    (h : childrenOf? .declaredName trees = some [.leaf (.ident text line)]) :
    declaredName trees = ⟨text, line⟩ := by
  rw [declaredName, h]

end ParseTree

section Declared

variable {trees : Trees} {text : String} {line : Nat}
  (hdeclared : ParseTree.childrenOf? .declaredName trees = some [.leaf (.ident text line)])
  (htext : IsItemName text)

include hdeclared htext

theorem haveItemNames_structItem : HaveItemNames [.node .structItem trees] := by
  rw [HaveItemNames, itemsOfTrees, itemsOfTree, ParseTree.declaredName_of_childrenOf? hdeclared]
  exact ⟨htext, trivial⟩

theorem haveItemNames_traitItem : HaveItemNames [.node .traitItem trees] := by
  rw [HaveItemNames, itemsOfTrees, itemsOfTree, ParseTree.declaredName_of_childrenOf? hdeclared]
  exact ⟨htext, trivial⟩

theorem haveItemNames_moduleItem (hitems : HaveItemNames trees) :
    HaveItemNames [.node .moduleItem trees] := by
  rw [HaveItemNames, itemsOfTrees, itemsOfTree, ParseTree.declaredName_of_childrenOf? hdeclared]
  exact ⟨⟨htext, hitems⟩, trivial⟩

end Declared

theorem haveItemNames_item {trees : Trees} (h : HaveItemNames trees) :
    HaveItemNames [.node .item trees] := by
  rw [HaveItemNames] at h
  simpa [HaveItemNames, itemsOfTrees, itemsOfTree, haveNames_map_withAttributes] using h

/-! ## Productions -/

section ReadsItems

variable (rules : Rule → List Token → Match Part)

/-- If tokens have words only, the items that a production reads from them have names, and so do the
tokens that it leaves. -/
def ReadsItems (p : P) : Prop :=
  ∀ ts, HasWords ts → Yields rules p ts fun trees rest => HaveItemNames trees ∧ HasWords rest

/-- What a production reads from words introduces the name of an item, after single tokens. -/
def ReadsName (p : P) : Prop :=
  ∀ ts, HasWords ts → Yields rules p ts fun trees rest =>
    (∃ text line, ParseTree.childrenOf? .declaredName trees = some [.leaf (.ident text line)] ∧
      IsItemName text) ∧ HasWords rest

/-- A production reads single tokens. -/
def ReadsLeaves (p : P) : Prop :=
  ∀ ts, Yields rules p ts fun trees _ => ∃ tokens : List Token, trees = tokens.map .leaf

variable {rules}

/-- What rules of a grammar can be relied on: they take tokens from the front, and the items among
what is read as an item have names. -/
structure RulesReadItems (rules : Rule → List Token → Match Part) : Prop where
  suffix : ∀ r ts parsed, rules r ts = .success parsed → parsed.rest <:+ ts
  item : ReadsItems rules (call .item)

variable (hrules : RulesReadItems rules) {p q : P} {look : Look}

include hrules in
/-- What a production leaves has words, whatever it reads. -/
theorem RulesReadItems.yields {ts : List Token} (hts : HasWords ts) {post : Trees → Prop}
    (h : Yields rules p ts fun trees _ => post trees) :
    Yields rules p ts fun trees rest => post trees ∧ HasWords rest := fun parsed hparsed =>
  ⟨h parsed hparsed, hts.of_isSuffix (Yields.isSuffix hrules.suffix p ts parsed hparsed)⟩

namespace ReadsItems

theorem empty : ReadsItems rules .empty := fun _ hts => .empty ⟨trivial, hts⟩

theorem take {scan : Scan} : ReadsItems rules (.take scan) := fun _ hts =>
  .take fun taken _ hsplit => ⟨haveItemNames_leaves taken, hts.of_isSuffix (scan.isSuffix hsplit)⟩

theorem bind {next : Trees → P} (hp : ReadsItems rules p)
    (hnext : ∀ trees, ReadsItems rules (next trees)) : ReadsItems rules (.bind p next) := by
  refine fun ts hts => .bind ((hp ts hts).mono fun trees mid hmid => ?_)
  refine (hnext trees mid hmid.2).mono fun later rest hrest => ?_
  exact ⟨haveItemNames_append.mpr ⟨hmid.1, hrest.1⟩, hrest.2⟩

theorem append (hp : ReadsItems rules p) (hq : ReadsItems rules q) : ReadsItems rules (p ++ q) :=
  hp.bind fun _ => hq

theorem choose {next : List Token → P} (h : ∀ ts, ReadsItems rules (next ts)) :
    ReadsItems rules (.choose next) := fun ts hts => .choose (h ts ts hts)

theorem either (hp : ReadsItems rules p) (hq : ReadsItems rules q) :
    ReadsItems rules (.either look p q) := fun ts hts =>
  .either (fun _ => hp ts hts) (fun _ => hq ts hts)

theorem given (hp : ReadsItems rules p) : ReadsItems rules (.given look p) := hp.either empty

theorem select {alternatives : List (Look × P)}
    (h : ∀ alternative ∈ alternatives, ReadsItems rules alternative.2) (hq : ReadsItems rules q) :
    ReadsItems rules (Language.select alternatives q) := by
  induction alternatives with
  | nil => exact hq
  | cons alternative alternatives ih =>
    obtain ⟨hfirst, hlater⟩ := List.forall_mem_cons.mp h
    exact hfirst.either (ih hlater)

theorem noneOf {choices : List Choice} : ReadsItems rules (Language.noneOf choices) :=
  choose fun _ => take

theorem oneOf {alternatives : List (Choice × P)}
    (h : ∀ alternative ∈ alternatives, ReadsItems rules alternative.2) :
    ReadsItems rules (Language.oneOf alternatives) := by
  refine select (fun alternative halternative => ?_) noneOf
  obtain ⟨choice, hchoice, rfl⟩ := List.mem_map.mp halternative
  exact h choice hchoice

theorem repeated (hp : ReadsItems rules p) : ReadsItems rules (.repeated look p) := by
  intro ts hts
  have hall : Yields rules (.repeated look p) ts
      fun trees rest => (∀ tree ∈ trees, HaveItemNames [tree]) ∧ HasWords rest :=
    .repeatedWithin hts fun mid hmid _ =>
      (hp mid hmid).mono fun _ _ h => ⟨haveItemNames_iff_forall.mp h.1, h.2⟩
  exact hall.mono fun _ _ h => ⟨haveItemNames_iff_forall.mpr h.1, h.2⟩

theorem enclosed {d : Delimiter} (hp : ReadsItems rules p) : ReadsItems rules (.enclosed d p) := by
  intro ts hts
  refine .enclosed fun content rest heq => ?_
  rw [heq, hasWords_cons, hasWords_group] at hts
  refine (hp content hts.1).mono fun trees _ h => ⟨?_, hts.2⟩
  simpa [HaveItemNames, itemsOfTrees, itemsOfTree] using h.1

include hrules in
/-- A part that declares nothing may be anything. -/
theorem labelled {label : Part} (h : label ∉ itemParts) :
    ReadsItems rules (.labelled label p) := fun _ hts =>
  hrules.yields hts (.labelled (Yields.any.mono fun trees _ _ => haveItemNames_node h trees))

include hrules in
theorem keptIf {applies : Trees → Bool} : ReadsItems rules (Language.keptIf applies p) := by
  refine fun _ hts => hrules.yields hts (.edited (Yields.any.mono fun trees _ _ => ?_))
  split
  · exact haveItemNames_node (by decide) trees
  · exact haveItemNames_node (by decide) trees

theorem asWritten {applies : Trees → Bool} (hp : ReadsItems rules p) :
    ReadsItems rules (.asWritten p applies) := by
  refine fun ts hts => .shaped ((hp ts hts).mono fun trees rest h => ⟨?_, h.2⟩)
  split
  · exact haveItemNames_leaves _
  · exact h.1

end ReadsItems

/-! ## Declared names -/

namespace ReadsLeaves

theorem word {text : String} : ReadsLeaves rules (Language.word text) := fun _ =>
  .word fun line _ _ => ⟨[.ident text line], rfl⟩

theorem given (hp : ReadsLeaves rules p) : ReadsLeaves rules (.given look p) := fun ts =>
  .given (fun _ => hp ts) fun _ => ⟨[], rfl⟩

theorem append (hp : ReadsLeaves rules p) (hq : ReadsLeaves rules q) :
    ReadsLeaves rules (p ++ q) := by
  refine fun ts => .append ((hp ts).mono fun trees mid htrees => ?_)
  refine (hq mid).mono fun later _ hlater => ?_
  obtain ⟨tokens, rfl⟩ := htrees
  obtain ⟨more, rfl⟩ := hlater
  exact ⟨tokens ++ more, List.map_append.symm⟩

end ReadsLeaves

namespace ReadsName

include hrules

theorem labelled (hp : ∀ ts, HasWords ts → Yields rules p ts fun trees _ =>
      ∃ text line, trees = [.leaf (.ident text line)] ∧ IsItemName text) :
    ReadsName rules (.labelled .declaredName p) := by
  refine fun ts hts => hrules.yields hts (.labelled ((hp ts hts).mono fun trees _ h => ?_))
  obtain ⟨text, line, rfl, htext⟩ := h
  exact ⟨text, line, rfl, htext⟩

theorem name : ReadsName rules (.labelled .declaredName Language.name) := by
  refine labelled hrules fun ts hts => .name fun text line rest heq hname => ?_
  rw [heq, hasWords_cons, hasWords_ident] at hts
  exact ⟨text, line, rfl, hts.1, .inl hname⟩

/-- The name of a module may be a word that is reserved for later. -/
theorem moduleName :
    ReadsName rules (.labelled .declaredName (.either (atWord "try") anyName Language.name)) := by
  refine labelled hrules fun ts hts => .either (fun htry => ?_) fun _ => ?_
  · refine .anyName fun text line rest heq => ?_
    rw [heq, hasWords_cons, hasWords_ident] at hts
    exact ⟨text, line, rfl, hts.1, .inr (by simpa [heq, atWord] using htry)⟩
  · refine .name fun text line rest heq hname => ?_
    rw [heq, hasWords_cons, hasWords_ident] at hts
    exact ⟨text, line, rfl, hts.1, .inl hname⟩

theorem append (hp : ReadsName rules p) : ReadsName rules (p ++ q) := by
  refine fun ts hts => hrules.yields hts (.append ((hp ts hts).mono fun trees mid h => ?_))
  obtain ⟨⟨text, line, hfirst, htext⟩, _⟩ := h
  refine Yields.any.mono fun later _ _ => ⟨text, line, ?_, htext⟩
  rw [ParseTree.childrenOf?_append, hfirst, Option.some_or]

theorem after (hp : ReadsLeaves rules p) (hq : ReadsName rules q) : ReadsName rules (p ++ q) := by
  intro ts hts
  have hrest := hrules.yields hts (hp ts)
  refine .append (hrest.mono fun trees mid h => ?_)
  obtain ⟨⟨tokens, rfl⟩, hmid⟩ := h
  refine (hq mid hmid).mono fun later rest hlater => ?_
  obtain ⟨⟨text, line, hname, htext⟩, hwords⟩ := hlater
  refine ⟨⟨text, line, ?_, htext⟩, hwords⟩
  rw [ParseTree.childrenOf?_append, ParseTree.childrenOf?_leaves, Option.none_or, hname]

end ReadsName

/-! ## Items -/

include hrules

theorem readsItems_attributes : ReadsItems rules attributes :=
  .repeated (.labelled hrules (by decide))

theorem readsItems_innerAttributes : ReadsItems rules innerAttributes :=
  .repeated (.labelled hrules (by decide))

theorem readsItems_members {member : P} (h : ReadsItems rules member) :
    ReadsItems rules (members member) :=
  .enclosed ((readsItems_innerAttributes hrules).append h.repeated)

theorem readsName_traitHead : ReadsName rules traitHead :=
  .append hrules (.after hrules .word (.name hrules))

theorem readsItems_structItem : ReadsItems rules structItem := by
  have hname : ReadsName rules
      (word "struct" ++ .labelled .declaredName name ++ generics ++ structRest) :=
    .append hrules (.append hrules (.after hrules .word (.name hrules)))
  refine fun ts hts => .labelled ((hname ts hts).mono fun trees rest h => ⟨?_, h.2⟩)
  obtain ⟨text, line, hdeclared, htext⟩ := h.1
  exact haveItemNames_structItem hdeclared htext

theorem readsItems_markedTrait : ReadsItems rules markedTrait := by
  have hname : ReadsName rules
      (optWord "unsafe" ++ optWord "auto" ++ traitHead ++ traitRest) :=
    .append hrules (.after hrules (.append (.given .word) (.given .word))
      (readsName_traitHead hrules))
  refine fun ts hts => .labelled ((hname ts hts).mono fun trees rest h => ⟨?_, h.2⟩)
  obtain ⟨text, line, hdeclared, htext⟩ := h.1
  exact haveItemNames_traitItem hdeclared htext

theorem readsItems_traitItem : ReadsItems rules traitItem := by
  refine fun ts hts => .edited ((ReadsName.append hrules (readsName_traitHead hrules) ts hts).mono
    fun trees rest h => ⟨?_, h.2⟩)
  obtain ⟨text, line, hdeclared, htext⟩ := h.1
  split
  · exact haveItemNames_node (by decide) trees
  · exact haveItemNames_traitItem hdeclared htext

theorem readsItems_moduleItem : ReadsItems rules moduleItem := by
  have hname : ReadsName rules
      (optWord "unsafe" ++ word "mod" ++
        .labelled .declaredName (.either (atWord "try") anyName name) ++
        oneOf [(.op ";", Language.op ";"), (.group .brace, members (call .item))]) :=
    .append hrules (.after hrules (.append (.given .word) .word) (.moduleName hrules))
  have hitems : ReadsItems rules
      (optWord "unsafe" ++ word "mod" ++
        .labelled .declaredName (.either (atWord "try") anyName name) ++
        oneOf [(.op ";", Language.op ";"), (.group .brace, members (call .item))]) := by
    have hbody : ReadsItems rules
        (oneOf [(.op ";", Language.op ";"), (.group .brace, members (call .item))]) := by
      refine .oneOf (List.forall_mem_cons.mpr ⟨.take, List.forall_mem_cons.mpr ⟨?_, nofun⟩⟩)
      exact readsItems_members hrules hrules.item
    exact (((ReadsItems.given .take).append .take).append
      (.labelled hrules (by decide))).append hbody
  refine fun ts hts => .labelled fun parsed hparsed => ?_
  obtain ⟨⟨text, line, hdeclared, htext⟩, hwords⟩ := hname ts hts parsed hparsed
  exact ⟨haveItemNames_moduleItem hdeclared htext (hitems ts hts parsed hparsed).1, hwords⟩

theorem readsItems_foreignItem (hasVisibility : Bool) :
    ReadsItems rules (foreignItem hasVisibility) := by
  unfold foreignItem
  split
  · exact .take
  · exact .labelled hrules (by decide)

theorem readsItems_unsafeItem (hasVisibility : Bool) :
    ReadsItems rules (unsafeItem hasVisibility) := by
  refine .choose fun tokens => ?_
  dsimp only
  split
  · exact readsItems_markedTrait hrules
  split
  · exact .keptIf hrules
  split
  · exact readsItems_foreignItem hrules hasVisibility
  split
  · exact readsItems_moduleItem hrules
  · exact .append .take .noneOf

theorem readsItems_externItem (hasVisibility : Bool) :
    ReadsItems rules (externItem hasVisibility) := by
  refine .choose fun tokens => ?_
  dsimp only
  split
  · exact .labelled hrules (by decide)
  split
  · exact readsItems_foreignItem hrules hasVisibility
  split
  · split
    · exact readsItems_foreignItem hrules hasVisibility
    · exact .append (.append .take .take) .noneOf
  · exact .append .take .noneOf

theorem readsItems_itemRest (hasVisibility : Bool) :
    ReadsItems rules (itemRest hasVisibility) := by
  refine .select ?_ .noneOf
  simp only [List.forall_mem_cons]
  refine ⟨?function, ?outside, ?use, ?static, ?const, ?marked, ?module, ?type, ?struct, ?enum,
    ?union, ?trait, ?auto, ?impl, ?definition, ?invocation, nofun⟩
  case outside => exact readsItems_externItem hrules hasVisibility
  case marked => exact readsItems_unsafeItem hrules hasVisibility
  case module => exact readsItems_moduleItem hrules
  case struct => exact readsItems_structItem hrules
  case trait => exact readsItems_traitItem hrules
  case auto => exact readsItems_markedTrait hrules
  case enum | union | definition | invocation => exact .labelled hrules (by decide)
  case function | use | static | const | type | impl => exact .keptIf hrules

theorem readsItems_item : ReadsItems rules item := by
  have hinside : ReadsItems rules
      (attributes ++ .bind visibility fun visibility => itemRest !visibility.isEmpty) := by
    refine (readsItems_attributes hrules).append (.bind ?_ fun _ => readsItems_itemRest hrules _)
    exact .given (.labelled hrules (by decide))
  refine fun ts hts => .labelled ((hinside.asWritten ts hts).mono fun trees rest h => ?_)
  exact ⟨haveItemNames_item h.1, h.2⟩

theorem readsItems_file : ReadsItems rules file :=
  (readsItems_innerAttributes hrules).append (.repeated hrules.item)

end ReadsItems

/-! ## Files -/

/-- The rules of the source language read items with names. The induction is on the depth of what is
nested, since items stand inside of modules. -/
theorem rulesReadItems (depth : Nat) : RulesReadItems (language.read depth) where
  suffix _ _ _ := isSuffix_of_read language
  item := by
    induction depth with
    | zero => exact fun ts _ parsed hparsed => nomatch hparsed
    | succ depth ih =>
      have hrules : RulesReadItems (language.read depth) :=
        ⟨fun _ _ _ => isSuffix_of_read language, ih⟩
      exact readsItems_item hrules

/-- The names of all items of a file are words of its text. -/
theorem hasNames_of_parseFile {text : String} {items : List ItemSyntax}
    (h : parseFile text = some items) : HaveNames IsItemName items := by
  obtain ⟨trees, htrees, hitems⟩ := Option.bind_eq_some_iff.mp h
  cases hitems
  obtain ⟨tokens, htokens, hparse⟩ := Option.bind_eq_some_iff.mp htrees
  rw [Grammar.parse] at hparse
  split at hparse
  · cases hparse
  · cases hparse
  next parsed hread =>
  have hnames : HaveItemNames parsed.trees :=
    (readsItems_file (rulesReadItems _) tokens (hasWords_of_lexChars htokens) parsed hread).1
  split at hparse
  · cases hparse
  · cases hparse
  · cases hparse
    exact hnames

end DaoGen.Code
