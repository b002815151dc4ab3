import DaoGen.Code.Phrase
import DaoGen.Proofs.Code.Ahead
import DaoGen.Proofs.Code.Lines
import DaoGen.Proofs.Code.TypeTree

/-!
# Reading again

What a grammar has read can be written as the tokens of its trees. `Rereads` says that a production
reads trees again from tokens that spell theirs, at any depth that suffices for that many tokens.
There is one law for each way to build a production; what has to be checked is that every test of
the tokens ahead decides as it should.
-/
namespace DaoGen.Code

open Code.Language

/-! ## Sizes -/

theorem sizeOfTokens_append (ts us : List Token) :
    sizeOfTokens (ts ++ us) = sizeOfTokens ts + sizeOfTokens us := by
  induction ts with
  | nil => simp [sizeOfTokens]
  | cons t ts ih => simp [sizeOfTokens, ih, Nat.add_assoc]

theorem Token.Spell.size_eq {t u : Token} (h : t.Spell u) : u.size = t.size := by
  cases t with
  | ident | lifetime | literal | group =>
    obtain rfl := h
    rfl
  | punct ch joint =>
    obtain ⟨_, _, rfl⟩ := h
    rfl

mutual

theorem Piece.Spell.size_eq {p : Piece} {u : Token} (h : p.Spell u) : u.size = p.toToken.size := by
  match p with
  | .token t => exact Token.Spell.size_eq h
  | .group d content =>
    obtain ⟨content', hcontent, rfl⟩ := h
    simp [Piece.toToken, Token.size, size_of_spell hcontent]

/-- Tokens are as many as those of the pieces that they are read from. -/
theorem size_of_spell {ps : List Piece} {us : List Token} (h : Spell ps us) :
    sizeOfTokens us = sizeOfTokens (toTokens ps) := by
  match ps with
  | [] =>
    obtain rfl := h
    rfl
  | p :: ps =>
    obtain ⟨u, us, hp, _, hps, rfl⟩ := h
    simp [toTokens, sizeOfTokens, hp.size_eq, size_of_spell hps]

end

theorem ne_nil_of_spell {ps : List Piece} {us : List Token} (h : Spell ps us)
    (hps : toTokens ps ≠ []) : us ≠ [] := by
  cases ps with
  | nil => exact absurd rfl hps
  | cons p ps =>
    obtain ⟨u, later, _, _, _, rfl⟩ := h
    exact List.cons_ne_nil u later

theorem length_le_sizeOfTokens (ts : List Token) : ts.length ≤ sizeOfTokens ts := by
  induction ts with
  | nil => exact Nat.le_refl 0
  | cons t ts ih =>
    have hone : 1 ≤ t.size := by cases t <;> simp [Token.size]
    rw [List.length_cons, sizeOfTokens]
    omega

/-! ## Pieces of trees -/

/-- Whether a group is square brackets around a single type. -/
def isSliceOf : Delimiter → Trees → Bool
  | .bracket, [tree] => isNode .type tree
  | _, _ => false

mutual

/-- The pieces of a tree. Only square brackets around a single type have pieces inside; what is
between other brackets is read as it is. -/
def ParseTree.pieces : ParseTree Part → List Piece
  | .leaf token => [.token token]
  | .group d children =>
    if isSliceOf d children then [.group d (piecesOf children)]
    else [.token (.group d (tokensOf children))]
  | .node _ children => piecesOf children

def piecesOf : Trees → List Piece
  | [] => []
  | tree :: trees => tree.pieces ++ piecesOf trees

end

section Pieces

@[simp] theorem piecesOf_nil : piecesOf [] = [] := by simp [piecesOf]

@[simp] theorem piecesOf_cons (tree : ParseTree Part) (trees : Trees) :
    piecesOf (tree :: trees) = tree.pieces ++ piecesOf trees := by simp [piecesOf]

@[simp] theorem piecesOf_append (trees later : Trees) :
    piecesOf (trees ++ later) = piecesOf trees ++ piecesOf later := by
  induction trees with
  | nil => simp
  | cons tree trees ih => simp [ih]

@[simp] theorem ParseTree.pieces_leaf (token : Token) :
    (ParseTree.leaf token : ParseTree Part).pieces = [.token token] := by simp [ParseTree.pieces]

@[simp] theorem ParseTree.pieces_node (label : Part) (children : Trees) :
    (ParseTree.node label children).pieces = piecesOf children := by simp [ParseTree.pieces]

theorem piecesOf_map_leaf (ts : List Token) : piecesOf (ts.map .leaf) = ts.map .token := by
  induction ts with
  | nil => rfl
  | cons t ts ih => simp [ih]

mutual

theorem ParseTree.toTokens_pieces (tree : ParseTree Part) : toTokens tree.pieces = tree.tokens := by
  match tree with
  | .leaf token => simp [toTokens, Piece.toToken]
  | .group d children =>
    rw [ParseTree.pieces]
    split
    · simp [toTokens, Piece.toToken, toTokens_piecesOf children]
    · simp [toTokens, Piece.toToken]
  | .node label children => simp [toTokens_piecesOf children]

/-- The tokens of the pieces are those of the trees. -/
theorem toTokens_piecesOf (trees : Trees) : toTokens (piecesOf trees) = tokensOf trees := by
  match trees with
  | [] => rfl
  | tree :: trees =>
    rw [piecesOf_cons, toTokens_append, tree.toTokens_pieces, toTokens_piecesOf trees,
      tokensOf_cons]

end

/-- Trees are spelled by their own tokens. -/
theorem spell_tokensOf (trees : Trees) : Spell (piecesOf trees) (tokensOf trees) := by
  simpa only [toTokens_piecesOf] using spell_refl (piecesOf trees)

variable {trees : Trees} {us : List Token}

theorem size_of_spell_piecesOf (h : Spell (piecesOf trees) us) :
    sizeOfTokens us = sizeOfTokens (tokensOf trees) := by
  rw [size_of_spell h, toTokens_piecesOf]

/-- What is between brackets can be read from its own pieces. -/
theorem exists_of_spell_group {d : Delimiter}
    (h : Spell (piecesOf [.group d trees]) us) :
    ∃ content, Spell (piecesOf trees) content ∧ us = [.group d content] := by
  rw [piecesOf_cons, piecesOf_nil, List.append_nil, ParseTree.pieces] at h
  split at h
  · simpa using h
  · obtain rfl : us = [.group d (tokensOf trees)] := by simpa using h
    exact ⟨tokensOf trees, spell_tokensOf trees, rfl⟩

end Pieces

/-! ## Productions that read again -/

/-- A production reads trees again from tokens that spell theirs, if `follow` holds of what stands
after these; then `front` holds of all that is ahead. -/
structure Rereads (follow front : List Token → Prop) (extra : Nat) (p : P) (trees : Trees) :
    Prop where
  plain : ArePlain (tokensOf trees)
  reads : ∀ {us after : List Token}, Spell (piecesOf trees) us → follow after →
    front (us ++ after) ∧ ∀ depth, 64 * sizeOfTokens us + extra ≤ depth →
      Reads (language.read depth) p (us ++ after) trees after

/-- Any tokens. -/
def Anything (_ : List Token) : Prop := True

/-- No tokens. -/
def Nothing (ts : List Token) : Prop := ts = []

/-- A group is ahead. -/
def AtGroup (d : Delimiter) (ts : List Token) : Prop :=
  ∃ content rest, ts = .group d content :: rest

section Laws

variable {follow follow' mid front front' : List Token → Prop} {extra extra₁ extra₂ : Nat}
  {p q : P} {trees later : Trees} {look : Look}

theorem Rereads.mono (h : Rereads follow front extra₁ p trees)
    (hfollow : ∀ ts, follow' ts → follow ts) (hfront : ∀ ts, front ts → front' ts)
    (hextra : extra₁ ≤ extra) : Rereads follow' front' extra p trees where
  plain := h.plain
  reads hus hafter :=
    have hread := h.reads hus (hfollow _ hafter)
    ⟨hfront _ hread.1, fun depth hdepth => hread.2 depth (by omega)⟩

/-- Something has tokens if it does not begin like what has none. -/
theorem Rereads.tokens_ne_nil (h : Rereads follow front extra p trees) (hfollow : follow [])
    (hfront : ¬front []) : tokensOf trees ≠ [] := by
  intro hnone
  have hspell := spell_tokensOf trees
  rw [hnone] at hspell
  exact hfront (h.reads hspell hfollow).1

theorem Rereads.empty : Rereads follow follow extra .empty [] where
  plain := trivial
  reads hus hafter := by
    obtain rfl : _ = [] := hus
    exact ⟨hafter, fun _ _ => .empty⟩

/-- What is ahead of the second production stands after what the first one reads. -/
theorem Rereads.bind {next : Trees → P} (hp : Rereads mid front extra₁ p trees)
    (hnext : Rereads follow mid extra₂ (next trees) later)
    (hleft : extra₁ ≤ extra + 64 * sizeOfTokens (tokensOf later))
    (hright : extra₂ ≤ extra + 64 * sizeOfTokens (tokensOf trees)) :
    Rereads follow front extra (.bind p next) (trees ++ later) where
  plain := by
    rw [tokensOf_append]
    exact arePlain_append hp.plain hnext.plain
  reads {us after} hus hafter := by
    rw [piecesOf_append] at hus
    obtain ⟨vs, ws, hvs, hws, rfl⟩ := exists_of_spell_append hus
    obtain ⟨hmid, hlater⟩ := hnext.reads hws hafter
    obtain ⟨hfront, hfirst⟩ := hp.reads hvs hmid
    rw [List.append_assoc]
    refine ⟨hfront, fun depth hdepth => ?_⟩
    rw [sizeOfTokens_append] at hdepth
    have hvsize := size_of_spell_piecesOf hvs
    have hwsize := size_of_spell_piecesOf hws
    exact (hfirst depth (by omega)).bind (hlater depth (by omega))

theorem Rereads.append (hp : Rereads mid front extra₁ p trees)
    (hq : Rereads follow mid extra₂ q later)
    (hleft : extra₁ ≤ extra + 64 * sizeOfTokens (tokensOf later))
    (hright : extra₂ ≤ extra + 64 * sizeOfTokens (tokensOf trees)) :
    Rereads follow front extra (p ++ q) (trees ++ later) := hp.bind hq hleft hright

theorem Rereads.labelled {label : Part} (h : Rereads follow front extra p trees) :
    Rereads follow front extra (.labelled label p) [.node label trees] where
  plain := by simpa using h.plain
  reads hus hafter :=
    have hread := h.reads (by simpa using hus) hafter
    ⟨hread.1, fun depth hdepth => (hread.2 depth hdepth).labelled⟩

/-- An edit that keeps the pieces. -/
theorem Rereads.edited {edit : Trees → Trees} {edited : Trees}
    (h : Rereads follow front extra p trees) (hedit : edit trees = edited)
    (hpieces : piecesOf edited = piecesOf trees) :
    Rereads follow front extra (.edited p edit) edited where
  plain := by
    rw [← toTokens_piecesOf, hpieces, toTokens_piecesOf]
    exact h.plain
  reads hus hafter := by
    rw [hpieces] at hus
    obtain ⟨hfront, hread⟩ := h.reads hus hafter
    exact ⟨hfront, fun depth hdepth => hedit ▸ (hread depth hdepth).edited⟩

theorem Rereads.asWritten {applies : Trees → Bool} (h : Rereads follow front extra p trees)
    (happlies : applies trees = false) :
    Rereads follow front extra (.asWritten p applies) trees where
  plain := h.plain
  reads hus hafter :=
    have hread := h.reads hus hafter
    ⟨hread.1, fun depth hdepth => (hread.2 depth hdepth).asWritten happlies⟩

theorem Rereads.either_pos (h : Rereads follow front extra p trees)
    (hlook : ∀ ts, front ts → look ts = true) :
    Rereads follow front extra (.either look p q) trees where
  plain := h.plain
  reads hus hafter :=
    have hread := h.reads hus hafter
    ⟨hread.1, fun depth hdepth => .either_pos (hlook _ hread.1) (hread.2 depth hdepth)⟩

theorem Rereads.either_neg (h : Rereads follow front extra q trees)
    (hlook : ∀ ts, front ts → look ts = false) :
    Rereads follow front extra (.either look p q) trees where
  plain := h.plain
  reads hus hafter :=
    have hread := h.reads hus hafter
    ⟨hread.1, fun depth hdepth => .either_neg (hlook _ hread.1) (hread.2 depth hdepth)⟩

theorem Rereads.given_neg (hlook : ∀ ts, follow ts → look ts = false) :
    Rereads follow follow extra (.given look p) [] := Rereads.empty.either_neg hlook

theorem Rereads.enclosed {d : Delimiter} (h : Rereads Nothing front extra₁ p trees)
    (hextra : extra₁ ≤ extra + 64) :
    Rereads Anything (AtGroup d) extra (.enclosed d p) [.group d trees] where
  plain := by simpa [ArePlain, Token.IsPlain, Token.isJoint] using h.plain
  reads {us after} hus _ := by
    obtain ⟨content, hcontent, rfl⟩ := exists_of_spell_group hus
    obtain ⟨_, hread⟩ := h.reads hcontent rfl
    rw [List.append_nil] at hread
    refine ⟨⟨content, after, rfl⟩, fun depth hdepth => .enclosed (hread depth ?_)⟩
    simp only [sizeOfTokens, Token.size] at hdepth
    omega

/-- What is between brackets that are read as they are is read again if its own tokens are. -/
theorem rereads_enclosed {d : Delimiter} (hplain : ArePlain (tokensOf trees))
    (hslice : isSliceOf d trees = false)
    (h : ∀ depth, 64 * (sizeOfTokens (tokensOf trees) + 1) ≤ depth →
      Reads (language.read depth) p (tokensOf trees) trees []) :
    Rereads Anything (AtGroup d) extra (.enclosed d p) [.group d trees] where
  plain := by simpa [ArePlain, Token.IsPlain, Token.isJoint] using hplain
  reads {us after} hus _ := by
    obtain rfl : us = [.group d (tokensOf trees)] := by simpa [ParseTree.pieces, hslice] using hus
    refine ⟨⟨_, after, rfl⟩, fun depth hdepth => .enclosed (h depth ?_)⟩
    simp only [sizeOfTokens, Token.size] at hdepth
    omega

/-- A rule is nested one deeper than its production. -/
theorem Rereads.call {r : Rule} (h : Rereads follow front extra (language r) trees) :
    Rereads follow front (extra + 1) (call r) trees where
  plain := h.plain
  reads hus hafter := by
    obtain ⟨hfront, hread⟩ := h.reads hus hafter
    refine ⟨hfront, fun depth hdepth => ?_⟩
    obtain ⟨depth, rfl⟩ : ∃ less, depth = less + 1 :=
      Nat.exists_eq_succ_of_ne_zero (by rintro rfl; omega)
    exact .call (hread depth (by omega))

/-! ## Single tokens -/

/-- A production of a single token reads it again. -/
theorem rereads_token {t : Token} (ht : t.IsPlain) (hjoint : t.isJoint = false)
    (h : ∀ {u after}, t.Spell u → front (u :: after) ∧
      ∀ depth, Reads (language.read depth) p (u :: after) [.leaf t] after) :
    Rereads Anything front extra p [.leaf t] where
  plain := by simp [ArePlain, ht, hjoint]
  reads {us after} hus _ := by
    obtain ⟨u, _, hu, _, rfl, rfl⟩ : Spell [.token t] us := by simpa using hus
    exact ⟨(h hu).1, fun depth _ => (h hu).2 depth⟩

/-- A mark of punctuation is ahead. -/
def AtMark (c : Char) (ts : List Token) : Prop := ∃ joint rest, ts = .punct c joint :: rest

/-- A mark of punctuation is ahead, with the given tokens after it. -/
def MarkThen (c : Char) (after : List Token → Prop) (ts : List Token) : Prop :=
  ∃ joint rest, ts = .punct c joint :: rest ∧ after rest

/-- The colons of a path are ahead, with the given tokens after them. -/
def ColonsThen (after : List Token → Prop) (ts : List Token) : Prop :=
  ∃ joint rest, ts = .punct ':' true :: .punct ':' joint :: rest ∧ after rest

/-- A word is ahead. -/
def AtIdent (text : String) (ts : List Token) : Prop := ∃ rest, ts = .ident text 1 :: rest

theorem MarkThen.atMark {c : Char} {after : List Token → Prop} {ts : List Token}
    (h : MarkThen c after ts) : AtMark c ts :=
  let ⟨joint, rest, hts, _⟩ := h
  ⟨joint, rest, hts⟩

theorem rereads_mark {c : Char} (hc : c ∈ plainMarks) :
    Rereads follow (MarkThen c follow) extra (Language.op (String.singleton c))
      [.leaf (.punct c)] where
  plain := by simp [ArePlain, Token.IsPlain, hc, Token.isJoint]
  reads {us after} hus hafter := by
    obtain ⟨_, _, ⟨joint, -, rfl⟩, -, rfl, rfl⟩ : Spell [.token (.punct c)] us := by
      simpa using hus
    exact ⟨⟨joint, after, rfl, hafter⟩, fun _ _ => .mark⟩

theorem rereads_colons :
    Rereads follow (ColonsThen follow) extra (Language.op "::") colonTrees where
  plain := by simp [colonTrees, ArePlain, Token.IsPlain, Token.isJoint, joins, plainMarks]
  reads {us after} hus hafter := by
    obtain ⟨joint, rfl⟩ : ∃ joint, us = [.punct ':' true, .punct ':' joint] := by
      simpa [colonTrees] using hus
    exact ⟨⟨joint, after, rfl, hafter⟩, fun _ _ => .colons⟩

/-- The marks of an operator stay together. -/
theorem takeCharacters_of_spell {cs : List Char} (hcs : cs ≠ []) {us after : List Token}
    (hus : Spell ((Code.operator cs).map .token) us) :
    takeCharacters cs (us ++ after) = some (Code.operator cs, after) := by
  induction cs using operator.induct generalizing us with
  | case1 => exact absurd rfl hcs
  | case2 c =>
    obtain ⟨_, _, ⟨joint, _, rfl⟩, _, rfl, rfl⟩ := hus
    simp [Code.operator]
  | case3 c rest hrest ih =>
    obtain ⟨d, rest, rfl⟩ := List.exists_cons_of_ne_nil hrest
    rw [operator.eq_3 _ _ hrest] at hus ⊢
    obtain ⟨later, hlater, rfl⟩ := spell_joint.mp hus
    simp [ih hrest hlater]

theorem arePlain_operator {cs : List Char} (h : ∀ c ∈ cs, c ∈ plainMarks) :
    ArePlain (Code.operator cs) := by
  induction cs using operator.induct with
  | case1 => trivial
  | case2 c =>
    exact ⟨.inl (h c List.mem_cons_self), fun h => absurd h Bool.false_ne_true, trivial⟩
  | case3 c rest hrest ih =>
    obtain ⟨hc, hrests⟩ := List.forall_mem_cons.mp h
    rw [operator.eq_3 _ _ hrest]
    have hslash : c ≠ '/' := by
      rintro rfl
      exact absurd hc (by decide)
    refine ⟨.inl hc, fun _ => ?_, ih hrests⟩
    match rest, hrest with
    | [d], _ | d :: _ :: _, _ =>
      have hd : d ∈ plainMarks := hrests d List.mem_cons_self
      simp [Code.operator, joins, hd, hslash]

theorem tokensOf_map_leaf {L : Type} (ts : List Token) :
    tokensOf (ts.map .leaf : List (ParseTree L)) = ts := by
  induction ts with
  | nil => rfl
  | cons t ts ih => simp [ih]

theorem rereads_op {text : String} (hne : text.toList ≠ [])
    (hmarks : ∀ c ∈ text.toList, c ∈ plainMarks) :
    Rereads Anything (fun ts => atOp text ts = true) extra (Language.op text)
      ((Code.operator text.toList).map .leaf) where
  plain := tokensOf_map_leaf (L := Part) _ ▸ arePlain_operator hmarks
  reads {us after} hus _ := by
    rw [piecesOf_map_leaf] at hus
    have htake : takeOperator text (us ++ after) = some (Code.operator text.toList, after) :=
      takeCharacters_of_spell hne hus
    exact ⟨by simp [atOp, htake], fun _ _ => .op _ htake⟩

/-- A colon stays apart from what is read after it. -/
theorem rereads_colon (hq : Rereads follow front extra q later)
    (hfollow : ∀ ts, follow ts → atOp ":" ts = false) :
    Rereads follow (fun ts => atColon ts = true) extra (Language.op ":" ++ q)
      (.leaf (.punct ':') :: later) where
  plain := ((rereads_mark (c := ':') (by decide)).append hq (Nat.le_add_right _ _)
    (Nat.le_add_right _ _)).plain
  reads {us after} hus hafter := by
    have hboth := ((rereads_mark (c := ':') (by decide)).append hq (Nat.le_add_right _ _)
      (Nat.le_add_right _ _)).reads hus hafter
    refine ⟨?_, hboth.2⟩
    rw [piecesOf_cons, ParseTree.pieces_leaf, List.singleton_append, spell_colon] at hus
    obtain ⟨joint, ws, hapart, hws, rfl⟩ := hus
    have hcolons : joint = true → takeCharacters [':'] (ws ++ after) = none := by
      rintro rfl
      cases hlater : piecesOf later with
      | nil =>
        rw [hlater] at hws
        obtain rfl := hws
        simpa [atOp, takeOperator] using hfollow after hafter
      | cons p rest =>
        rw [hlater] at hws hapart
        obtain ⟨u, ws, hu, -, -, rfl⟩ := hws
        have hp : p.isColon = false := by simpa using hapart
        cases p with
        | group d content =>
          obtain ⟨content, -, rfl⟩ := hu
          simp
        | token t =>
          cases t with
          | ident | lifetime | literal | group =>
            obtain rfl := hu
            simp
          | punct ch joint =>
            obtain ⟨joint, -, rfl⟩ := hu
            have hch : ':' ≠ ch := by
              rintro rfl
              cases hp
            simp [hch]
    simpa [atColon, atOp, takeOperator] using hcolons

theorem rereads_word {text : String} (h : IsWord text) :
    Rereads Anything (AtIdent text) extra (word text) [.leaf (.ident text 1)] :=
  rereads_token ⟨h, rfl⟩ rfl fun hu => by
    obtain rfl := hu
    exact ⟨⟨_, rfl⟩, fun _ => .word⟩

theorem rereads_name {text : String} (h : IsWord text) (hname : isName text = true) :
    Rereads Anything (AtIdent text) extra name [.leaf (.ident text 1)] :=
  rereads_token ⟨h, rfl⟩ rfl fun hu => by
    obtain rfl := hu
    exact ⟨⟨_, rfl⟩, fun _ => .name hname⟩

theorem rereads_anyName {text : String} (h : IsWord text) :
    Rereads Anything (AtIdent text) extra anyName [.leaf (.ident text 1)] :=
  rereads_token ⟨h, rfl⟩ rfl fun hu => by
    obtain rfl := hu
    exact ⟨⟨_, rfl⟩, fun _ => .anyName⟩

theorem rereads_lifetime {name : String} (h : IsWord name) :
    Rereads follow (fun ts => ∃ rest, ts = .lifetime name :: rest ∧ follow rest) extra lifetime
      [.leaf (.lifetime name)] where
  plain := ⟨h, nofun, trivial⟩
  reads {us after} hus hafter := by
    obtain rfl : us = [.lifetime name] := by simpa using hus
    exact ⟨⟨after, rfl, hafter⟩, fun _ _ => .lifetime⟩

/-! ## Repetitions -/

/-- A production reads trees again in repetitions. -/
structure RereadsMany (follow front : List Token → Prop) (extra : Nat) (look : Look) (p : P)
    (trees : Trees) : Prop where
  plain : ArePlain (tokensOf trees)
  reads : ∀ {us after : List Token}, Spell (piecesOf trees) us → follow after →
    front (us ++ after) ∧ ∀ depth, 64 * sizeOfTokens us + extra ≤ depth →
      ReadsMany (language.read depth) p look (us ++ after) trees after

theorem RereadsMany.rereads (h : RereadsMany follow front extra look p trees) :
    Rereads follow front extra (.repeated look p) trees where
  plain := h.plain
  reads hus hafter :=
    have hread := h.reads hus hafter
    ⟨hread.1, fun depth hdepth => (hread.2 depth hdepth).reads⟩

theorem RereadsMany.mono (h : RereadsMany follow front extra look p trees)
    (hfollow : ∀ ts, follow' ts → follow ts) (hfront : ∀ ts, front ts → front' ts) :
    RereadsMany follow' front' extra look p trees where
  plain := h.plain
  reads hus hafter :=
    have hread := h.reads hus (hfollow _ hafter)
    ⟨hfront _ hread.1, hread.2⟩

theorem RereadsMany.nil (hlook : ∀ ts, follow ts → look ts = false) :
    RereadsMany follow follow extra look p [] where
  plain := trivial
  reads {us after} hus hafter := by
    obtain rfl : us = [] := by simpa using hus
    exact ⟨hafter, fun _ _ => .done (hlook _ hafter)⟩

theorem RereadsMany.cons (hp : Rereads mid front extra p trees)
    (hlook : ∀ ts, front ts → look ts = true) (hmore : tokensOf trees ≠ [])
    (hlater : RereadsMany follow mid extra look p later) :
    RereadsMany follow front extra look p (trees ++ later) where
  plain := by
    rw [tokensOf_append]
    exact arePlain_append hp.plain hlater.plain
  reads {us after} hus hafter := by
    rw [piecesOf_append] at hus
    obtain ⟨vs, ws, hvs, hws, rfl⟩ := exists_of_spell_append hus
    obtain ⟨hmid, hrest⟩ := hlater.reads hws hafter
    obtain ⟨hfront, hfirst⟩ := hp.reads hvs hmid
    have hpos := List.length_pos_iff.mpr
      (ne_nil_of_spell hvs (by rwa [toTokens_piecesOf]))
    rw [List.append_assoc]
    refine ⟨hfront, fun depth hdepth => ?_⟩
    rw [sizeOfTokens_append] at hdepth
    refine .more (hlook _ hfront) (hfirst depth (by omega)) ?_ (hrest depth (by omega))
    simp only [List.length_append]
    omega

end Laws

end DaoGen.Code
