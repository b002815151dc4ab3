import DaoGen.Text.Cluster.Table

/-!
# Clusters of characters

A letter and the marks that attach to it are one unit when words are split, and so are
pictographs with a joiner between them, some of which are letters in a circle. Characters that
join by other rules (syllable blocks, flags, conjuncts) have no letter case and are neither
digits nor separators, so their units do not matter for words and are not formed here.
-/
namespace DaoGen.Text

/-- Characters that attach to what stands before them. -/
def attachesBackward (c : Char) : Bool :=
  0x80 ≤ c.toNat && (clusterExtenders.contains c || clusterSpacingMarks.contains c)

/-- Characters that attach to what follows them. -/
def attachesForward (c : Char) : Bool :=
  0x80 ≤ c.toNat && clusterPrepends.contains c

/-- Controls and line ends, which attach to nothing. -/
def isClusterControl (c : Char) : Bool :=
  if c.toNat < 0x80 then c.toNat < 0x20 || c.toNat == 0x7f else clusterControls.contains c

def isPictograph (c : Char) : Bool := 0x80 ≤ c.toNat && pictographs.contains c

/-- The character that ties pictographs to each other. -/
def joiner : Char := '\u200d'

/-- Whether a pictograph with perhaps some marks stands up to a character, given whether one
stands before it. -/
def endsPictograph (before : Bool) (c : Char) : Bool :=
  isPictograph c || (before && c != joiner && 0x80 ≤ c.toNat && clusterExtenders.contains c)

/-- Whether two neighbours belong to one cluster, given whether a pictograph stands before the
first. -/
def joins (before : Bool) (a b : Char) : Bool :=
  if a = '\r' ∧ b = '\n' then true
  else if isClusterControl a || isClusterControl b then false
  else attachesBackward b || attachesForward a || (before && a == joiner && isPictograph b)

/-- Cuts text into clusters, given whether a pictograph stands before it. -/
def clustersAfter (before : Bool) : List Char → List (List Char)
  | [] => []
  | c :: cs =>
    match clustersAfter (endsPictograph before c) cs with
    | (d :: rest) :: later =>
      if joins before c d then (c :: d :: rest) :: later else [c] :: (d :: rest) :: later
    | later => [c] :: later

/-- Cuts text into clusters. -/
def clusters (cs : List Char) : List (List Char) := clustersAfter false cs

/-- Clusters lose no character. -/
theorem flatten_clustersAfter (before : Bool) (cs : List Char) :
    (clustersAfter before cs).flatten = cs := by
  induction cs generalizing before with
  | nil => rfl
  | cons c cs ih =>
    have tail := ih (endsPictograph before c)
    rw [clustersAfter]
    split
    · split <;> simp_all
    · simp [tail]

theorem flatten_clusters (cs : List Char) : (clusters cs).flatten = cs :=
  flatten_clustersAfter false cs

end DaoGen.Text
