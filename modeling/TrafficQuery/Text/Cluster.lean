import TrafficQuery.Text.Break

namespace TrafficQuery.Text

/-- The jamo and syllables that make one Hangul syllable together. -/
def joinsHangul (last next : Char) : Bool :=
  (isLeadingJamo last && (isLeadingJamo next || isVowelJamo next || isSyllable next)) ||
    ((isVowelJamo last || isOpenSyllable last) && (isVowelJamo next || isTrailingJamo next)) ||
    ((isTrailingJamo last || isSyllable last) && isTrailingJamo next)

/-- Whether characters, latest first, end in a pictograph with its marks and a joiner. -/
def endsInJoiner : List Char → Bool
  | [] => false
  | c :: cs => c == joiner && (cs.dropWhile isExtending).head?.any isPictograph

/-- Whether characters, latest first, end in a consonant with marks that join it to another one. -/
def endsInLinker (cs : List Char) : Bool :=
  let isLink (c : Char) : Bool := (isExtending c || c == joiner) && c != nonJoiner
  (cs.takeWhile isLink).any isLinker && (cs.dropWhile isLink).head?.any isConsonant

/-- Whether characters, latest first, end in half of a flag. -/
def endsInHalfFlag (cs : List Char) : Bool := (cs.takeWhile isRegional).length % 2 == 1

/-- Whether a character belongs to the cluster of the characters before it, latest first. These are
the rules of Unicode for extended grapheme clusters. -/
def continuesCluster (before : List Char) (next : Char) : Bool :=
  match before with
  | [] => false
  | last :: _ =>
    if last == '\r' && next == '\n' then true
    else if isControl last || isControl next then false
    else
      isExtending next || next == joiner || isSpacing next || isPrepended last ||
        joinsHangul last next || (isPictograph next && endsInJoiner before) ||
        (isConsonant next && endsInLinker before) || (isRegional next && endsInHalfFlag before)

/-- Adds a character to clusters, which are latest first and each latest first. -/
def addToClusters (clusters : List (List Char)) (c : Char) : List (List Char) :=
  match clusters with
  | [] => [[c]]
  | cluster :: earlier =>
    if continuesCluster cluster c then (c :: cluster) :: earlier else [c] :: cluster :: earlier

/-- The clusters that a reader takes for one character each. -/
def clusters (cs : List Char) : List (List Char) :=
  ((cs.foldl addToClusters []).map List.reverse).reverse

theorem flatten_addToClusters (clusters : List (List Char)) (c : Char) :
    (addToClusters clusters c).flatten = c :: clusters.flatten := by
  unfold addToClusters
  split
  · rfl
  · split <;> rfl

theorem flatten_foldl_addToClusters (cs : List Char) (earlier : List (List Char)) :
    (cs.foldl addToClusters earlier).flatten = cs.reverse ++ earlier.flatten := by
  induction cs generalizing earlier with
  | nil => rfl
  | cons c cs ih => simp [ih, flatten_addToClusters]

/-- The clusters of a text are a cut of it. -/
theorem flatten_clusters (cs : List Char) : (clusters cs).flatten = cs := by
  rw [clusters, ← List.reverse_flatten, flatten_foldl_addToClusters]
  simp

end TrafficQuery.Text
