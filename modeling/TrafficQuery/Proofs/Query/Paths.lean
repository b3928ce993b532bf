import TrafficQuery.Proofs.Query.Expressible

/-!
# How deep a condition is

The levels of nesting are counted while a query is read, and an operand is read before the connective
behind it. So a change of connective is not counted for the operand in front of it, which stands below
the change in the condition, and a condition can have twice the levels that may be open at once.
-/

namespace TrafficQuery
open Grammar

/-! ## Paths -/

/-- What a path from the root of a condition to a test leads through. -/
inductive Node
  | connective (op : Connective)
  | negation
  deriving DecidableEq, Repr

/-- The paths to the tests, from left to right. -/
def Condition.paths : Condition → List (List Node)
  | .test _ => [[]]
  | .binary op l r => (l.paths ++ r.paths).map (.connective op :: ·)
  | .negation c => c.paths.map (.negation :: ·)

/-- The levels of a path below a connective, if one is right above it: a connective is a level unless
it is the one above. -/
def levelsOn : Option Connective → List Node → Nat
  | _, [] => 0
  | above, .connective op :: path => (if above = some op then 0 else 1) + levelsOn (some op) path
  | _, .negation :: path => levelsOn none path

theorem levelsOn_le_none (above : Option Connective) (path : List Node) :
    levelsOn above path ≤ levelsOn none path := by
  cases path with
  | nil => exact Nat.le_refl 0
  | cons node path =>
    cases node with
    | connective op =>
      simp only [levelsOn, reduceCtorEq, if_false]
      split <;> omega
    | negation => exact Nat.le_refl _

theorem Condition.paths_unmarked (c : Condition) : c.unmarked.paths = c.paths := by
  induction c with
  | test t => rfl
  | binary op l r ihl ihr => simp only [unmarked, paths, ihl, ihr]
  | negation c ih => simp only [unmarked, paths, ih]

/-! ## No path has too many levels -/

/-- A connective is one level or none: the level that it adds to its chain, and one at the start. -/
theorem levelsOn_connective (above : Option Connective) (op : Connective) (path : List Node) :
    ∃ level ≤ 1, levelsOn above (.connective op :: path) = level + levelsOn (some op) path ∧
      level = switchLevel above op + (if above = none then 1 else 0) := by
  refine ⟨if above = some op then 0 else 1, by split <;> omega, rfl, ?_⟩
  cases above with
  | none => rfl
  | some last => by_cases h : last = op <;> simp [switchLevel, h]

/-- A path through an operand has less than twice its levels of nesting, and one through a chain has no
more than one level besides. -/
theorem Condition.levelsOn_le (c : Condition) : ∀ path ∈ c.paths,
    levelsOn none path ≤ 2 * c.levels .operand - 1 ∧
      ∀ above, levelsOn above path ≤
        2 * c.levels (.chain above) + (if above = none then 1 else 0) := by
  induction c with
  | test t =>
    intro path hpath
    obtain rfl := List.mem_singleton.mp hpath
    exact ⟨Nat.zero_le _, fun above => Nat.zero_le _⟩
  | negation c ih =>
    intro path hpath
    obtain ⟨below, hbelow, rfl⟩ := List.mem_map.mp hpath
    obtain ⟨hoperand, -⟩ := ih below hbelow
    refine ⟨hoperand, fun above => ?_⟩
    simp only [levelsOn, levels]
    omega
  | binary op l r ihl ihr =>
    intro path hpath
    have hchain (above : Option Connective) : levelsOn above path ≤
        2 * (binary op l r).levels (.chain above) + (if above = none then 1 else 0) := by
      obtain ⟨below, hbelow, rfl⟩ := List.mem_map.mp hpath
      obtain ⟨level, hone, hpath, hlevel⟩ := levelsOn_connective above op below
      simp only [levels]
      rcases List.mem_append.mp hbelow with hl | hr
      · -- The change in front of the rest of the chain is counted with the rest only.
        obtain ⟨hoperand, -⟩ := ihl below hl
        have hbelow := levelsOn_le_none (some op) below
        omega
      · have hrest : levelsOn (some op) below ≤ 2 * r.levels (.chain (some op)) + 0 :=
          (ihr below hr).2 (some op)
        omega
    refine ⟨?_, hchain⟩
    have hnone := hchain none
    rw [levels_operand_binary]
    simp only [if_true] at hnone
    omega

/-- The condition of a query does not need more levels than may be open at once. -/
theorem levels_le_of_parse {source : String} {q : Query} (h : parse source = .ok q) :
    q.root.levels (.chain none) ≤ maxNesting := by
  obtain ⟨-, depth, hle, k, r, w, us, -, -, -, -, hus⟩ := exists_isQuery_of_parse h
  exact Nat.le_trans hus.levels_le hle

theorem levelsOn_le_of_parse {source : String} {q : Query} (h : parse source = .ok q)
    {path : List Node} (hpath : path ∈ q.root.paths) : levelsOn none path ≤ 2 * maxNesting + 1 := by
  have hlevels := levels_le_of_parse h
  have hchain : levelsOn none path ≤ 2 * q.root.levels (.chain none) + 1 :=
    (q.root.levelsOn_le path hpath).2 none
  omega

/-! ## Some paths have as many -/

/-- The condition of the words `id = 1`. -/
def idCondition : Condition := .test (.id .eq "1")

/-- `id = 1 and (…) or id = 1`, with the same in the parentheses so many times, and `id = 1 and id = 1`
in the innermost. -/
def nestedCondition : Nat → Condition
  | 0 => .binary .and idCondition idCondition
  | n + 1 => .binary .and idCondition (.binary .or (nestedCondition n) idCondition)

/-- A token that is written with the word of its kind. -/
def fixedToken (k : Kind) : Token := ⟨k, 0, k.fixedWord?.getD ""⟩

def idTokens : List Token :=
  [⟨.identifier "id", 0, "id"⟩, fixedToken (.order .eq), ⟨.number 1, 0, "1"⟩]

def nestedTokens : Nat → List Token
  | 0 => idTokens ++ fixedToken (.connective .and) :: idTokens
  | n + 1 => idTokens ++ fixedToken (.connective .and) ::
      (fixedToken (.paren .opening) :: (nestedTokens n ++ [fixedToken (.paren .closing)]) ++
        fixedToken (.connective .or) :: idTokens)

/-- The three words that a query starts with. -/
def leadingTokens : List Token :=
  [.query, .requests, .whereClause].map fun word => fixedToken (.keyword word)

/-- The text of a query with the tokens of a condition. -/
def queryText (ts : List Token) : String := writeTokens (leadingTokens ++ ts)

theorem genuine_fixedToken {k : Kind} {s : String} (h : k.fixedWord? = some s) :
    (fixedToken k).Genuine := by
  have hlexeme : (fixedToken k).lexeme = s := by rw [fixedToken, h, Option.getD_some]
  rw [Token.Genuine, hlexeme]
  exact spells_of_fixedWord? h

theorem genuine_idTokens : ∀ t ∈ idTokens, t.Genuine := by
  have hid : classify "id".toList = .ok (.identifier "id") := by
    rw [classify_identifier (by decide) (by decide), String.ofList_toList]
  have hone : classify "1".toList = .ok (.number 1) := classify_number (n := 1) (by decide)
  simp only [idTokens, List.forall_mem_cons]
  exact ⟨spells_of_classify (by decide) (by decide) hid, genuine_fixedToken rfl,
    spells_of_classify (by decide) (by decide) hone, by simp⟩

theorem genuine_nestedTokens (n : Nat) : ∀ t ∈ nestedTokens n, t.Genuine := by
  induction n with
  | zero =>
    simp only [nestedTokens, List.forall_mem_append, List.forall_mem_cons]
    exact ⟨genuine_idTokens, genuine_fixedToken rfl, genuine_idTokens⟩
  | succ n ih =>
    simp only [nestedTokens, List.forall_mem_append, List.forall_mem_cons]
    exact ⟨genuine_idTokens, genuine_fixedToken rfl,
      ⟨genuine_fixedToken rfl, ih, genuine_fixedToken rfl, by simp⟩,
      genuine_fixedToken rfl, genuine_idTokens⟩

theorem derives_idTokens : Derives .operand idTokens idCondition 0 :=
  have hname : IsName ⟨.identifier "id", 0, "id"⟩ "id" := ⟨"id", rfl, rfl⟩
  have hfield : ("id", Field.id) ∈ requestFields := by decide
  .field ⟨.id, 0, _, _, rfl, .request hname hfield, .id rfl rfl⟩

/-- A nested condition has a level open for each of its parentheses, and no more. -/
theorem derives_nestedTokens (n : Nat) :
    Derives (.chain none) (nestedTokens n) (nestedCondition n) n := by
  induction n with
  | zero => exact .link derives_idTokens rfl (.last derives_idTokens)
  | succ n ih =>
    have hgroup : Derives .operand (fixedToken (.paren .opening) ::
        (nestedTokens n ++ [fixedToken (.paren .closing)])) (nestedCondition n) (n + 1) :=
      .group rfl ih rfl
    have hrest : Derives (.chain (some .and)) _ (.binary .or (nestedCondition n) idCondition)
        (max (n + 1) 1) := .link (t := fixedToken (.connective .or)) hgroup rfl (.last derives_idTokens)
    have hall : Derives (.chain none) (nestedTokens (n + 1)) (nestedCondition (n + 1))
        (max 0 (0 + max (n + 1) 1)) := .link derives_idTokens rfl hrest
    rwa [Nat.zero_add, Nat.zero_max, Nat.max_eq_left (Nat.le_add_left 1 n)] at hall

theorem exists_parse_queryText {ts : List Token} {c : Condition} {depth : Nat}
    (hts : ∀ t ∈ ts, t.Genuine) (h : Derives (.chain none) ts c depth) (hle : depth ≤ maxNesting) :
    ∃ q, parse (queryText ts) = .ok q ∧ q.root.paths = c.paths := by
  have hgenuine : ∀ t ∈ leadingTokens ++ ts, t.Genuine := by
    refine List.forall_mem_append.mpr ⟨?_, hts⟩
    simp only [leadingTokens, List.forall_mem_map]
    exact fun word _ => genuine_fixedToken rfl
  have hquery : IsQuery (leadingTokens ++ ts) c depth := ⟨_, _, _, ts, rfl, rfl, rfl, rfl, h⟩
  obtain ⟨hkinds, hending⟩ := scan_writeTokens hgenuine
  obtain ⟨c', hc', hunmarked⟩ := hquery.of_kinds hkinds
  have hread : (scan (queryText ts)).condition = .ok c' :=
    Scan.condition_eq_ok_iff.mpr ⟨hending, depth, hle, hc'⟩
  refine ⟨⟨.rows, c'⟩, bind_eq_ok_iff.mpr ⟨c', hread, rfl⟩, ?_⟩
  rw [← c'.paths_unmarked, hunmarked, Condition.paths_unmarked]

/-- A nested condition has a path of every number of levels up to twice its parentheses and one. -/
theorem exists_path_nestedCondition (n k : Nat) (hk : k ≤ 2 * n) :
    ∃ path, .connective .and :: path ∈ (nestedCondition n).paths ∧
      levelsOn none (.connective .and :: path) = k + 1 := by
  induction n generalizing k with
  | zero =>
    obtain rfl : k = 0 := by omega
    exact ⟨[], by decide, rfl⟩
  | succ n ih =>
    match k with
    | 0 => exact ⟨[], by simp [nestedCondition, Condition.paths, idCondition], rfl⟩
    | 1 =>
      refine ⟨[.connective .or], ?_, rfl⟩
      simp [nestedCondition, Condition.paths, idCondition]
    | k + 2 =>
      obtain ⟨path, hpath, hlevels⟩ := ih k (by omega)
      refine ⟨.connective .or :: .connective .and :: path, ?_, ?_⟩
      · simp only [nestedCondition, Condition.paths, List.map_append, List.mem_append, List.map_map,
          List.mem_map]
        exact .inr (.inl ⟨_, hpath, rfl⟩)
      · simp only [levelsOn, reduceCtorEq, if_false, Option.some.injEq] at hlevels ⊢
        omega

/-- The paths of parsed conditions have up to twice the levels that may be open at once, and one at
the root. -/
theorem exists_parse_levels_iff (n : Nat) :
    (∃ source q, ∃ path ∈ q.root.paths, parse source = .ok q ∧ levelsOn none path = n) ↔
      n ≤ 2 * maxNesting + 1 := by
  constructor
  · rintro ⟨source, q, path, hpath, hq, rfl⟩
    exact levelsOn_le_of_parse hq hpath
  · intro hn
    cases n with
    | zero =>
      obtain ⟨q, hq, hpaths⟩ :=
        exists_parse_queryText genuine_idTokens (.last derives_idTokens) (Nat.zero_le _)
      exact ⟨_, q, [], hpaths ▸ List.mem_singleton_self _, hq, rfl⟩
    | succ k =>
      obtain ⟨q, hq, hpaths⟩ := exists_parse_queryText (genuine_nestedTokens maxNesting)
        (derives_nestedTokens maxNesting) (Nat.le_refl _)
      obtain ⟨path, hpath, hlevels⟩ := exists_path_nestedCondition maxNesting k (by omega)
      exact ⟨_, q, _, hpaths ▸ hpath, hq, hlevels⟩

/-- With half as many parentheses as levels may be open, a path has more levels than may be open. -/
theorem exists_path_beyond_maxNesting : ∃ q, parse (queryText (nestedTokens 65)) = .ok q ∧
    ∃ path ∈ q.root.paths, maxNesting + 1 < levelsOn none path := by
  obtain ⟨q, hq, hpaths⟩ :=
    exists_parse_queryText (genuine_nestedTokens 65) (derives_nestedTokens 65) (by decide)
  obtain ⟨path, hpath, hlevels⟩ := exists_path_nestedCondition 65 130 (by decide)
  refine ⟨q, hq, _, hpaths ▸ hpath, ?_⟩
  rw [hlevels]
  decide

end TrafficQuery
