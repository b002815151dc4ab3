import DaoGen.Declaration.Collection
import DaoGen.Proofs.Code.ItemTree
import DaoGen.Proofs.Failure
import Mathlib.Data.List.Forall2

/-!
# Collections of declarations

A collection grows at its end. What it holds of a file is found by going through the items of the
file and of its inline modules: the marked structs and traits, at their addresses, in order.

## Main definitions

* `itemAt?`: the item at an address, with the modules around it.
* `SourceFile.Declares`: what a file declares.
* `Collection.ofFiles`: a collection after any calls, those that failed included.

## Main results

* `declares_ofItems`: a walk through items finds what they declare.
* `Collection.ofFiles_accumulates`: a collection after any calls.
-/
namespace DaoGen

open Code

/-! ## Addresses -/

/-- The item at an address, with the names of the modules around it from the outside in. An address
has the place of an item, or that of a module and an address in it. -/
def itemAt? : List ItemSyntax → List Nat → Option (List String × ItemSyntax)
  | _, [] => none
  | items, [i] => items[i]?.map ([], ·)
  | items, i :: j :: address =>
    match items[i]? with
    | some (.module name inside) =>
      (itemAt? inside (j :: address)).map fun (modules, item) => (name.text :: modules, item)
    | _ => none

/-- What an item by itself declares in the root module. -/
def Code.ItemSyntax.declared? (file : String) : ItemSyntax → Option Collected
  | .struct attributes name isGeneric fields =>
    Collected.ofItem? file "" attributes name isGeneric (.fields fields)
  | .interface attributes name isGeneric methods =>
    Collected.ofItem? file "" attributes name isGeneric (.methods methods)
  | .module _ _ => none

/-- What the item at an address declares inside of the modules of a path. -/
def declaredAt? (file : String) (path : List String) (items : List ItemSyntax)
    (address : List Nat) : Option Collected := do
  let (modules, item) ← itemAt? items address
  let found ← item.declared? file
  return { found with name := ⟨"::".intercalate (path ++ modules ++ [found.name.path])⟩ }

/-- What items declare inside of the modules of a path: what is declared at each address, in the
order of the addresses. -/
def DeclareInOrder (file : String) (path : List String) (items : List ItemSyntax)
    (found : List Collected) : Prop :=
  ∃ addresses : List (List Nat), addresses.Pairwise (· < ·) ∧
    (∀ address, address ∈ addresses ↔ (declaredAt? file path items address).isSome = true) ∧
    found.map some = addresses.map (declaredAt? file path items)

/-- A path of modules is written as a text that is empty only for the root module. -/
structure IsPath (path : List String) (text : String) : Prop where
  joined : text = "::".intercalate path
  root : text = "" → path = []

theorem IsPath.inside {path : List String} {text : String} (h : IsPath path text) (name : String) :
    (QualifiedName.inside text name).path = "::".intercalate (path ++ [name]) := by
  cases path with
  | nil =>
    have htext : text = "" := by simpa using h.joined
    simp [QualifiedName.inside, htext]
  | cons first path =>
    have htext : text ≠ "" := fun heq => nomatch h.root heq
    rw [QualifiedName.inside, if_neg htext,
      String.intercalate_append_of_ne_nil (List.cons_ne_nil _ _) (List.cons_ne_nil _ _),
      String.intercalate_singleton, ← h.joined]

theorem IsPath.push {path : List String} {text : String} (h : IsPath path text) {name : String}
    (hname : name ≠ "") : IsPath (path ++ [name]) (QualifiedName.inside text name).path where
  joined := h.inside name
  root heq := by
    exfalso
    rw [QualifiedName.inside] at heq
    split at heq
    · exact hname heq
    · simp at heq

section Addresses

variable (file : String) (path : List String)

theorem declaredAt?_nil (items : List ItemSyntax) : declaredAt? file path items [] = none := rfl

theorem declaredAt?_empty (address : List Nat) : declaredAt? file path [] address = none := by
  match address with
  | [] | [_] | _ :: _ :: _ => rfl

theorem declaredAt?_cons_zero (item : ItemSyntax) (rest : List ItemSyntax) (address : List Nat) :
    declaredAt? file path (item :: rest) (0 :: address) =
      declaredAt? file path [item] (0 :: address) := by
  cases address <;> simp [declaredAt?, itemAt?]

theorem declaredAt?_cons_succ (item : ItemSyntax) (rest : List ItemSyntax) (i : Nat)
    (address : List Nat) :
    declaredAt? file path (item :: rest) ((i + 1) :: address) =
      declaredAt? file path rest (i :: address) := by
  cases address <;> simp [declaredAt?, itemAt?]

/-- An address in a module is that of an item of it, and what is declared there has the module in
its path. -/
theorem declaredAt?_module (name : PlacedName) (inside : List ItemSyntax) (address : List Nat) :
    declaredAt? file path [.module name inside] (0 :: address) =
      declaredAt? file (path ++ [name.text]) inside address := by
  cases address with
  | nil => rfl
  | cons j address =>
    simp only [declaredAt?, itemAt?, List.getElem?_cons_zero]
    cases itemAt? inside (j :: address) <;> simp

/-- An item that is no module declares at most itself. -/
theorem declaredAt?_single {item : ItemSyntax} (hitem : ∀ name inside, item ≠ .module name inside)
    (address : List Nat) :
    declaredAt? file path [item] address =
      if address = [0] then
        (item.declared? file).map fun found =>
          { found with name := ⟨"::".intercalate (path ++ [found.name.path])⟩ }
      else none := by
  match address with
  | [] => rfl
  | [0] => cases hfound : item.declared? file <;> simp [declaredAt?, itemAt?, hfound]
  | [i + 1] => simp [declaredAt?, itemAt?]
  | 0 :: j :: address =>
    cases item with
    | module name inside => exact absurd rfl (hitem name inside)
    | struct | interface => simp [declaredAt?, itemAt?]
  | (i + 1) :: j :: address => simp [declaredAt?, itemAt?]

end Addresses

/-! ## Walks -/

section Walk

variable {file : String} {path : List String}

/-- The address of the same item after one more has been put in front. -/
def nextAddress : List Nat → List Nat
  | [] => []
  | i :: address => (i + 1) :: address

theorem nextAddress_lt {a b : List Nat} (h : a < b) : nextAddress a < nextAddress b := by
  cases a with
  | nil =>
    cases b with
    | nil => exact absurd h (List.not_lt_nil _)
    | cons j b => exact List.nil_lt_cons _ _
  | cons i a =>
    cases b with
    | nil => exact absurd h (List.not_lt_nil _)
    | cons j b =>
      rcases List.cons_lt_cons_iff.mp h with hhead | ⟨rfl, htail⟩
      · exact List.cons_lt_cons_iff.mpr (.inl (Nat.succ_lt_succ hhead))
      · exact List.cons_lt_cons_iff.mpr (.inr ⟨rfl, htail⟩)

/-- What items declare comes after what the item before them declares. -/
theorem DeclareInOrder.cons {item : ItemSyntax} {rest : List ItemSyntax}
    {found later : List Collected} (h : DeclareInOrder file path [item] found)
    (hrest : DeclareInOrder file path rest later) :
    DeclareInOrder file path (item :: rest) (found ++ later) := by
  obtain ⟨addresses, horder, hmem, hfound⟩ := h
  obtain ⟨more, horder', hmem', hlater⟩ := hrest
  have hzero : ∀ address ∈ addresses, ∃ later, address = 0 :: later := by
    intro address haddress
    have hsome := (hmem address).mp haddress
    match address with
    | [] => cases hsome
    | 0 :: later => exact ⟨later, rfl⟩
    | (i + 1) :: later =>
      rw [declaredAt?_cons_succ, declaredAt?_empty] at hsome
      cases hsome
  have hsucc : ∀ address ∈ more, ∃ i later, address = i :: later := by
    intro address haddress
    have hsome := (hmem' address).mp haddress
    match address with
    | [] => cases hsome
    | i :: later => exact ⟨i, later, rfl⟩
  refine ⟨addresses ++ more.map nextAddress, ?order, fun address => ?mem, ?found⟩
  case order =>
    refine List.pairwise_append.mpr ⟨horder, horder'.map _ fun _ _ => nextAddress_lt, ?_⟩
    intro a ha b hb
    obtain ⟨address, haddress, rfl⟩ := List.mem_map.mp hb
    obtain ⟨_, rfl⟩ := hzero a ha
    obtain ⟨i, _, rfl⟩ := hsucc address haddress
    exact List.cons_lt_cons_iff.mpr (.inl (Nat.succ_pos i))
  case mem =>
    have hnext : address ∈ more.map nextAddress ↔ ∃ i tail, address = (i + 1) :: tail ∧
        i :: tail ∈ more := by
      constructor
      · intro h
        obtain ⟨address, haddress, rfl⟩ := List.mem_map.mp h
        obtain ⟨i, tail, rfl⟩ := hsucc address haddress
        exact ⟨i, tail, rfl, haddress⟩
      · rintro ⟨i, tail, rfl, h⟩
        exact List.mem_map_of_mem (f := nextAddress) h
    rw [List.mem_append, hnext]
    match address with
    | [] =>
      refine iff_of_false (fun h => ?_) Bool.false_ne_true
      rcases h with h | ⟨_, _, h, _⟩
      · obtain ⟨_, h⟩ := hzero [] h
        cases h
      · cases h
    | 0 :: tail => simp [declaredAt?_cons_zero, hmem]
    | (i + 1) :: tail =>
      have hnot : (i + 1) :: tail ∉ addresses := fun h => nomatch hzero _ h
      simp [declaredAt?_cons_succ, hmem', hnot]
  case found =>
    have hfirst : addresses.map (declaredAt? file path (item :: rest)) =
        addresses.map (declaredAt? file path [item]) := by
      refine List.map_congr_left fun address haddress => ?_
      obtain ⟨later, rfl⟩ := hzero address haddress
      exact declaredAt?_cons_zero file path item rest later
    have hothers : (more.map nextAddress).map (declaredAt? file path (item :: rest)) =
        more.map (declaredAt? file path rest) := by
      rw [List.map_map]
      refine List.map_congr_left fun address haddress => ?_
      obtain ⟨i, later, rfl⟩ := hsucc address haddress
      exact declaredAt?_cons_succ file path item rest i later
    rw [List.map_append, List.map_append, hfirst, hothers, hfound, hlater]

/-- An item that is no module declares itself if it is marked. -/
theorem declares_single {item : ItemSyntax} (hitem : ∀ name inside, item ≠ .module name inside)
    {found : List Collected}
    (hfound : found = (item.declared? file).toList.map fun found =>
      { found with name := ⟨"::".intercalate (path ++ [found.name.path])⟩ }) :
    DeclareInOrder file path [item] found := by
  subst hfound
  refine ⟨if (item.declared? file).isSome then [[0]] else [], ?_, fun address => ?_, ?_⟩
  · split <;> simp
  · rw [declaredAt?_single file path hitem]
    cases item.declared? file <;> simp
  · cases hdeclared : item.declared? file with
    | none => rfl
    | some found => simp [declaredAt?_single file path hitem, hdeclared]

/-- What a marked item declares has the path of the modules around it. -/
theorem Collected.ofItem?_eq {module : String} (h : IsPath path module)
    (attributes : List Attribute) (name : PlacedName) (isGeneric : Bool)
    (members : WrittenMembers) :
    (Collected.ofItem? file module attributes name isGeneric members).toList =
      (Collected.ofItem? file "" attributes name isGeneric members).toList.map fun found =>
        { found with name := ⟨"::".intercalate (path ++ [found.name.path])⟩ } := by
  have hname : QualifiedName.inside module name.text =
      ⟨"::".intercalate (path ++ [(QualifiedName.inside "" name.text).path])⟩ :=
    QualifiedName.mk.injEq .. ▸ h.inside name.text
  unfold Collected.ofItem?
  cases Collected.kindOf? attributes with
  | none => rfl
  | some kind => simp [hname]

end Walk

mutual

theorem declares_ofItem {file : String} {path : List String} {module : String}
    (h : IsPath path module) (item : ItemSyntax) (hnames : item.HasNames IsItemName) :
    DeclareInOrder file path [item] (Collected.ofItem file module item) := by
  cases item with
  | struct attributes name isGeneric fields =>
    exact declares_single (by simp) (Collected.ofItem?_eq h attributes name isGeneric _)
  | interface attributes name isGeneric methods =>
    exact declares_single (by simp) (Collected.ofItem?_eq h attributes name isGeneric _)
  | module name inside =>
    obtain ⟨addresses, horder, hmem, hfound⟩ :=
      @declares_ofItems file _ _ (h.push hnames.1.ne_empty) inside hnames.2
    refine ⟨addresses.map (0 :: ·), ?_, fun address => ?_, ?_⟩
    · exact horder.map _ fun _ _ hlt => List.cons_lt_cons_iff.mpr (.inr ⟨rfl, hlt⟩)
    · match address with
      | [] => simp [declaredAt?_nil]
      | 0 :: address => simp [declaredAt?_module, hmem]
      | (i + 1) :: address => simp [declaredAt?_cons_succ, declaredAt?_empty]
    · rw [Collected.ofItem, hfound, List.map_map]
      exact List.map_congr_left fun address _ =>
        (declaredAt?_module file path name inside address).symm

/-- A walk finds what items declare. -/
theorem declares_ofItems {file : String} {path : List String} {module : String}
    (h : IsPath path module) (items : List ItemSyntax) (hnames : HaveNames IsItemName items) :
    DeclareInOrder file path items (Collected.ofItems file module items) := by
  cases items with
  | nil => exact ⟨[], .nil, fun address => by simp [declaredAt?_empty], rfl⟩
  | cons item rest =>
    exact (declares_ofItem h item hnames.1).cons (declares_ofItems h rest hnames.2)

end

/-! ## Members -/

/-- A field or a method as written. -/
inductive WrittenMember where
  | field (written : FieldSyntax)
  | method (written : MethodSyntax)

namespace WrittenMember

def name : WrittenMember → PlacedName
  | .field f => f.name
  | .method m => m.name

def kind : WrittenMember → Except String MemberKind
  | .field f => return .field (← TypeRef.ofSyntax f.type)
  | .method m => return .method (← Collected.signatureOf m)

def annotations : WrittenMember → List Annotation
  | .field f => f.attributes.map Annotation.ofMemberAttribute
  | .method m => Collected.methodAnnotations m

end WrittenMember

/-- The fields or methods of a declaration, in order. -/
def WrittenMembers.each : WrittenMembers → List WrittenMember
  | .fields (.named fs) => fs.map .field
  | .fields _ => []
  | .methods ms => ms.map .method

/-- Members are read one by one. -/
theorem Collected.forall₂_of_membersOf {members : WrittenMembers}
    {found : List (PlacedName × MemberKind)} (h : Collected.membersOf members = .ok found) :
    List.Forall₂ (fun w m => w.name = m.1 ∧ w.kind = .ok m.2) members.each found := by
  match members with
  | .fields (.named fields) =>
    refine List.forall₂_map_left_iff.mpr ((Except.forall₂_of_mapM h).imp fun field m hm => ?_)
    obtain ⟨ty, hty, hm⟩ := Except.bind_eq_ok.mp hm
    cases hm
    exact ⟨rfl, Except.bind_eq_ok.mpr ⟨ty, hty, rfl⟩⟩
  | .fields (.tuple _) | .fields .unit =>
    cases h
    exact .nil
  | .methods methods =>
    refine List.forall₂_map_left_iff.mpr ((Except.forall₂_of_mapM h).imp fun method m hm => ?_)
    obtain ⟨signature, hsignature, hm⟩ := Except.bind_eq_ok.mp hm
    cases hm
    exact ⟨rfl, Except.bind_eq_ok.mpr ⟨signature, hsignature, rfl⟩⟩

/-- The annotations at the place of a member are those of the member. -/
theorem Collected.memberAnnotations_getElem? {members : WrittenMembers} {i : Nat}
    {w : WrittenMember} (h : members.each[i]? = some w) :
    (Collected.memberAnnotations members)[i]? = some w.annotations := by
  match members with
  | .fields (.named fields) =>
    rw [WrittenMembers.each, List.getElem?_map] at h
    obtain ⟨field, hfield, rfl⟩ := Option.map_eq_some_iff.mp h
    simp [Collected.memberAnnotations, hfield, WrittenMember.annotations]
  | .fields (.tuple _) | .fields .unit => cases h
  | .methods methods =>
    rw [WrittenMembers.each, List.getElem?_map] at h
    obtain ⟨method, hmethod, rfl⟩ := Option.map_eq_some_iff.mp h
    simp [Collected.memberAnnotations, hmethod, WrittenMember.annotations]

/-- What has other labels makes no difference to the parts of a label. -/
theorem ParseTree.allChildrenOf_filter {label : Part} {keeps : ParseTree Part → Bool}
    (h : ∀ children, keeps (.node label children) = true) (trees : Language.Trees) :
    ParseTree.allChildrenOf label (trees.filter keeps) = ParseTree.allChildrenOf label trees := by
  induction trees with
  | nil => rfl
  | cons tree trees ih =>
    unfold ParseTree.allChildrenOf at ih ⊢
    by_cases hkeeps : keeps tree = true
    · rw [List.filter_cons_of_pos hkeeps, List.filterMap_cons, List.filterMap_cons, ih]
    · rw [List.filter_cons_of_neg hkeeps, ih, List.filterMap_cons]
      cases tree with
      | leaf | group => rfl
      | node l children =>
        have hlabel : l ≠ label := by
          rintro rfl
          exact hkeeps (h children)
        simp [hlabel]

theorem ParseTree.groupChildren_append {head : Language.Trees}
    (hhead : ∀ d inside, .group d inside ∉ head) (d : Delimiter) (parts : Language.Trees) :
    ParseTree.groupChildren (head ++ [.group d parts]) = parts := by
  induction head with
  | nil => rfl
  | cons tree head ih =>
    have hrest := ih fun d inside h => hhead d inside (List.mem_cons_of_mem _ h)
    cases tree with
    | leaf | node => exact hrest
    | group d inside => exact absurd List.mem_cons_self (hhead d inside)

/-- What stands in the braces of a trait besides methods and attributes changes nothing. -/
theorem itemsOfTree_traitItem {head : Language.Trees} (hhead : ∀ d inside, .group d inside ∉ head)
    (d : Delimiter) (parts : Language.Trees) :
    itemsOfTree (.node .traitItem (head ++ [.group d parts])) =
      itemsOfTree (.node .traitItem (head ++ [.group d (parts.filter fun tree =>
        Language.isNode .method tree || Language.isNode .innerAttribute tree)])) := by
  have hsame (label : Part) (parts : Language.Trees) :
      ParseTree.childrenOf? label (head ++ [.group d parts]) =
        ParseTree.childrenOf? label head := by
    rw [ParseTree.childrenOf?_append]
    exact Option.or_none
  simp only [itemsOfTree, readInnerAttributes, ParseTree.declaredName, ParseTree.isGeneric,
    ParseTree.groupChildren_append hhead, hsame]
  rw [ParseTree.allChildrenOf_filter fun _ => rfl, ParseTree.allChildrenOf_filter fun _ => rfl]

/-! ## Sessions -/

/-- A file as it is handed to a collection. -/
structure SourceFile where
  file : String
  module : String
  code : String

namespace SourceFile

/-- The path of the module that the file is. -/
def path (f : SourceFile) : List String := if f.module = "" then [] else [f.module]

theorem isPath (f : SourceFile) : IsPath f.path f.module := by
  unfold path
  constructor
  · split <;> simp_all
  · intro h
    rw [if_pos h]

/-- What a file declares; nothing if its text cannot be parsed. -/
def Declares (f : SourceFile) (found : List Collected) : Prop :=
  match parseFile f.code with
  | none => found = []
  | some items => DeclareInOrder f.file f.path items found

end SourceFile

/-- What was collected, as a declaration with a number. -/
def Collected.declaration (id : Nat) (item : Collected) : Declaration where
  id := id
  kind := item.kind
  name := item.name
  annotations := item.annotations
  location := some item.location

namespace Collection

def addFile (c : Collection) (f : SourceFile) : Except UnreadableFile Collection :=
  c.add f.file f.module f.code

/-- A collection after a call; one that fails leaves it as it is. -/
def after (c : Collection) (f : SourceFile) : Collection := (c.addFile f).toOption.getD c

/-- A collection after any calls. -/
def ofFiles (files : List SourceFile) : Collection := files.foldl after {}

theorem addFile_eq_error_iff {c : Collection} {f : SourceFile} {e : UnreadableFile} :
    c.addFile f = .error e ↔ parseFile f.code = none ∧ e = ⟨f.file⟩ := by
  unfold addFile add
  cases parseFile f.code <;> simp [eq_comm]

/-- A call puts what its file declares to the end. -/
theorem exists_items_after (c : Collection) (f : SourceFile) :
    ∃ found, f.Declares found ∧ (c.after f).items = c.items ++ found := by
  unfold after addFile add SourceFile.Declares
  cases hparse : parseFile f.code with
  | none => exact ⟨[], rfl, (List.append_nil _).symm⟩
  | some items =>
    exact ⟨_, declares_ofItems f.isPath items (hasNames_of_parseFile hparse), rfl⟩

/-- Calls put what their files declare to the end, in order. -/
theorem exists_items_foldl (c : Collection) (files : List SourceFile) :
    ∃ found : List (List Collected), List.Forall₂ SourceFile.Declares files found ∧
      (files.foldl after c).items = c.items ++ found.flatten := by
  induction files generalizing c with
  | nil => exact ⟨[], .nil, (List.append_nil _).symm⟩
  | cons f files ih =>
    obtain ⟨first, hfirst, hitems⟩ := c.exists_items_after f
    obtain ⟨found, hfound, hlater⟩ := ih (c.after f)
    refine ⟨first :: found, .cons hfirst hfound, ?_⟩
    rw [List.foldl_cons, hlater, hitems, List.flatten_cons, List.append_assoc]

/-- The declaration with a number is that at the place of the number. -/
theorem declarations_getElem? (c : Collection) (i : Nat) :
    c.declarations[i]? = c.items[i]?.map (Collected.declaration i) := by
  simp [declarations, List.getElem?_zipIdx, Function.comp_def]
  rfl

theorem getElem?_of_mem_declarations {c : Collection} {d : Declaration}
    (h : d ∈ c.declarations) : c.declarations[d.id]? = some d := by
  obtain ⟨i, hi⟩ := List.getElem?_of_mem h
  have hid := hi
  rw [declarations_getElem?] at hid
  obtain ⟨item, _, rfl⟩ := Option.map_eq_some_iff.mp hid
  exact hi

/-- The members of a declaration are its fields or methods, each with its annotations. -/
theorem getElem?_members {c : Collection} {d : Declaration} {item : Collected}
    (hitem : c.items[d.id]? = some item) {ms : List Member} (h : c.members d = .ok ms) :
    ms.length = item.members.each.length ∧
      ∀ i m, ms[i]? = some m → ∃ w, item.members.each[i]? = some w ∧
        m.owner = d.id ∧ m.index = i ∧ m.name = w.name.text ∧ w.kind = .ok m.kind ∧
        c.annotationsOf m = w.annotations := by
  rw [members, hitem] at h
  dsimp only at h
  split at h
  · cases h
  next found hfound =>
  cases h
  have hread := Collected.forall₂_of_membersOf hfound
  refine ⟨by simp [hread.length_eq], fun i m hm => ?_⟩
  simp only [List.getElem?_map, List.getElem?_zipIdx, Option.map_map, Option.map_eq_some_iff] at hm
  obtain ⟨⟨name, kind⟩, hmember, rfl⟩ := hm
  obtain ⟨w, hw, hname, hkind⟩ := hread.flip.exists_getElem? hmember
  refine ⟨w, hw, rfl, by simp, (congrArg PlacedName.text hname).symm, hkind, ?_⟩
  simp [annotationsOf, hitem, Collected.memberAnnotations_getElem? hw]

/-- A declaration that stays at its place keeps its members and their annotations. -/
theorem members_eq_of_getElem? {c c' : Collection} {d : Declaration}
    (h : c'.items[d.id]? = c.items[d.id]?) :
    c'.members d = c.members d ∧
      ∀ m : Member, m.owner = d.id → c'.annotationsOf m = c.annotationsOf m := by
  refine ⟨by rw [members, members, h], fun m hm => ?_⟩
  rw [annotationsOf, annotationsOf, hm, h]

/-- Collections accumulate what files declare. A call fails just if the text cannot be parsed, and
leaves the collection as it is. The declarations are those of the files, file by file, each with its
place as its number. A member is a field or method of its declaration, with the annotations of this
very one, and what else stands in the braces of a trait makes no difference. Later calls change
neither the declarations that are there nor their members and annotations. -/
theorem ofFiles_accumulates (files : List SourceFile) :
    let c := ofFiles files
    (∀ f, (parseFile f.code = none ↔ ∃ e, c.addFile f = .error e) ∧
      (parseFile f.code = none → c.addFile f = .error ⟨f.file⟩ ∧ c.after f = c)) ∧
    (∃ found : List (List Collected), List.Forall₂ SourceFile.Declares files found ∧
      (∀ i, c.declarations[i]? = found.flatten[i]?.map (Collected.declaration i)) ∧
      ∀ d ∈ c.declarations, ∃ item, found.flatten[d.id]? = some item ∧
        ∀ ms, c.members d = .ok ms → ms.length = item.members.each.length ∧
          ∀ i m, ms[i]? = some m → ∃ w, item.members.each[i]? = some w ∧
            m.owner = d.id ∧ m.index = i ∧ m.name = w.name.text ∧ w.kind = .ok m.kind ∧
            c.annotationsOf m = w.annotations) ∧
    (∀ head : Language.Trees, (∀ d inside, .group d inside ∉ head) → ∀ d parts,
      itemsOfTree (.node .traitItem (head ++ [.group d parts])) =
        itemsOfTree (.node .traitItem (head ++ [.group d (parts.filter fun tree =>
          Language.isNode .method tree || Language.isNode .innerAttribute tree)]))) ∧
    ∀ later, let c' := ofFiles (files ++ later)
      c.declarations <+: c'.declarations ∧
      ∀ d ∈ c.declarations, c'.declarations[d.id]? = some d ∧ c'.members d = c.members d ∧
        ∀ m : Member, m.owner = d.id → c'.annotationsOf m = c.annotationsOf m := by
  intro c
  refine ⟨fun f => ⟨?_, fun hparse => ?_⟩, ?_, fun head hhead => itemsOfTree_traitItem hhead, ?_⟩
  · simp [addFile_eq_error_iff]
  · have herror : c.addFile f = .error ⟨f.file⟩ := addFile_eq_error_iff.mpr ⟨hparse, rfl⟩
    exact ⟨herror, by rw [after, herror]; rfl⟩
  · obtain ⟨found, hfound, hitems⟩ := exists_items_foldl {} files
    have hitems : c.items = found.flatten := hitems
    refine ⟨found, hfound, fun i => hitems ▸ c.declarations_getElem? i, fun d hd => ?_⟩
    have hplace := getElem?_of_mem_declarations hd
    rw [declarations_getElem?] at hplace
    obtain ⟨item, hitem, _⟩ := Option.map_eq_some_iff.mp hplace
    exact ⟨item, hitems ▸ hitem, fun ms hms => getElem?_members hitem hms⟩
  · intro later c'
    obtain ⟨found, _, hitems⟩ := exists_items_foldl c later
    have hitems : c'.items = c.items ++ found.flatten := by
      rw [← hitems]
      exact congrArg items List.foldl_append
    have hkept (d : Declaration) (hd : d ∈ c.declarations) : c'.items[d.id]? = c.items[d.id]? := by
      have hplace := getElem?_of_mem_declarations hd
      rw [declarations_getElem?] at hplace
      obtain ⟨item, hitem, _⟩ := Option.map_eq_some_iff.mp hplace
      rw [hitems, List.getElem?_append_left (List.getElem?_eq_some_iff.mp hitem).1]
    refine ⟨?_, fun d hd => ?_⟩
    · rw [declarations, declarations, hitems, List.zipIdx_append, List.map_append]
      exact List.prefix_append _ _
    · refine ⟨?_, members_eq_of_getElem? (hkept d hd)⟩
      rw [declarations_getElem?, hkept d hd, ← declarations_getElem?]
      exact getElem?_of_mem_declarations hd

/-- A trait with a constant between its methods and an entity two modules deep, in a file that is
followed by one that cannot be parsed and by another one. -/
theorem ofFiles_accumulates_nested :
    let first : SourceFile := ⟨"a.rs", "a", "#[dao] trait A \x7b #[update] fn x(&self); " ++
      "const N: u8; #[delete] fn y(&self); \x7d " ++
      "mod m \x7b mod n \x7b #[entity] struct E; \x7d \x7d"⟩
    let broken : SourceFile := ⟨"b.rs", "b", "struct \x7b"⟩
    let last : SourceFile := ⟨"c.rs", "", "#[dao] trait C \x7b\x7d"⟩
    let c := ofFiles [first, broken]
    let c' := ofFiles [first, broken, last]
    (∃ e, c.addFile broken = .error e) ∧ c.after broken = c ∧
    c'.declarations.map (·.name.path) = ["a::A", "a::m::n::E", "C"] ∧
    ∃ d ∈ c.declarations, c'.declarations[d.id]? = some d ∧ ∃ ms, c'.members d = .ok ms ∧
      ms.map (fun m => (m.name, c'.annotationsOf m)) = [("x", [.update]), ("y", [.delete])] ∧
      ms.map c.annotationsOf = ms.map c'.annotationsOf := by
  intro first broken last c c'
  obtain ⟨hfails, _, _, hlater⟩ := ofFiles_accumulates [first, broken]
  have hrun : (parseFile broken.code).isNone = true ∧
      c'.declarations.map (·.name.path) = ["a::A", "a::m::n::E", "C"] ∧
      c.declarations.head?.any (fun d => (c'.members d).toOption.any fun ms =>
        decide (ms.map (fun m => (m.name, c'.annotationsOf m)) =
          [("x", [.update]), ("y", [.delete])]) && ms.all (·.owner == d.id)) = true := by
    decide +kernel
  obtain ⟨hparse, hnames, hfirst⟩ := hrun
  have hbroken : parseFile broken.code = none := Option.isNone_iff_eq_none.mp hparse
  refine ⟨(hfails broken).1.mp hbroken, ((hfails broken).2 hbroken).2, hnames, ?_⟩
  obtain ⟨d, hd, hmembers⟩ := (Option.any_eq_true _ _).mp hfirst
  obtain ⟨ms, hms, hread⟩ := Except.exists_of_any hmembers
  rw [Bool.and_eq_true, decide_eq_true_eq, List.all_eq_true] at hread
  obtain ⟨hplace, _, hsame⟩ := (hlater [last]).2 d (List.mem_of_head? hd)
  refine ⟨d, List.mem_of_head? hd, hplace, ms, hms, hread.1, ?_⟩
  exact List.map_congr_left fun m hm => (hsame m (beq_iff_eq.mp (hread.2 m hm))).symm

end Collection

end DaoGen
