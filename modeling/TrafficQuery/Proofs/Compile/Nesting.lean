import TrafficQuery.Proofs.Compile.Calls
import TrafficQuery.Proofs.Compile.Truth
import TrafficQuery.Proofs.Query.Paths

/-!
# How deep a condition is compiled

The calls that are open at once, when a condition is compiled, are as many as the runs of a connective and
of negations on one of its paths, and one. On the paths of a condition that is read there are not many runs,
however long they are.
-/

namespace TrafficQuery
open Grammar

/-! ## Runs on a path -/

/-- The runs of equal nodes on a path, below a node if there is one above. -/
def runsOn : Option Node → List Node → Nat
  | _, [] => 0
  | above, node :: path => (if above = some node then 0 else 1) + runsOn (some node) path

/-- The runs of negations on a path, below one or not. -/
def negationsOn : Bool → List Node → Nat
  | _, [] => 0
  | _, .connective _ :: path => negationsOn false path
  | below, .negation :: path => (if below then 0 else 1) + negationsOn true path

/-- The runs on a path are those of a connective and those of negations. -/
theorem runsOn_eq (path : List Node) :
    (∀ op, runsOn (some (.connective op)) path = levelsOn (some op) path + negationsOn false path) ∧
      runsOn (some .negation) path = levelsOn none path + negationsOn true path ∧
        runsOn none path = levelsOn none path + negationsOn false path := by
  induction path with
  | nil => exact ⟨fun _ => rfl, rfl, rfl⟩
  | cons node path ih =>
    obtain ⟨hconnective, hnegation, hnone⟩ := ih
    cases node with
    | connective op => simp [runsOn, levelsOn, negationsOn, hconnective, Nat.add_assoc]
    | negation => simp [runsOn, levelsOn, negationsOn, hnegation, Nat.add_left_comm]

theorem runsOn_of_head?_ne {node : Node} {path : List Node} (h : path.head? ≠ some node) :
    runsOn (some node) path = runsOn none path := by
  cases path with
  | nil => rfl
  | cons first path =>
    have hne : some node ≠ some first := fun heq => h (heq ▸ rfl)
    rw [runsOn, runsOn, if_neg hne, if_neg (Option.some_ne_none first).symm]

namespace Condition
variable {n : Nat}

/-- A path through a chain has a run more than the path from its operand on. -/
theorem runsOn_operands_iff (op : Connective) (c : Condition) :
    (∀ d ∈ c.operands op, ∀ path ∈ d.paths, runsOn none path < n) ↔
      ∀ path ∈ c.paths, runsOn (some (.connective op)) path < n := by
  induction c with
  | test t => simp [operands, paths, runsOn]
  | negation c =>
    have hne (path : List Node) : (Node.negation :: path).head? ≠ some (.connective op) := by simp
    simp only [operands, List.forall_mem_singleton, paths, List.forall_mem_map,
      runsOn_of_head?_ne (hne _)]
  | binary own l r ihl ihr =>
    by_cases hop : own = op
    · subst hop
      rw [operands, if_pos rfl, List.forall_mem_append, ihl, ihr, paths, List.forall_mem_map,
        List.forall_mem_append]
      simp only [runsOn, if_true, Nat.zero_add]
    · have hne (path : List Node) :
          (Node.connective own :: path).head? ≠ some (.connective op) := by simp [hop]
      rw [operands, if_neg hop, List.forall_mem_singleton]
      simp only [paths, List.forall_mem_map, runsOn_of_head?_ne (hne _)]

/-- A path through a run of negations has a run more than the path from its core on. -/
theorem runsOn_core_iff (c : Condition) : (∀ path ∈ c.core.paths, runsOn none path < n) ↔
    ∀ path ∈ c.paths, runsOn (some .negation) path < n := by
  induction c with
  | test t => simp [core, paths, runsOn]
  | negation c ih =>
    rw [core, ih, paths, List.forall_mem_map]
    simp only [runsOn, if_true, Nat.zero_add]
  | binary op l r =>
    have hne (path : List Node) : (Node.connective op :: path).head? ≠ some .negation := by simp
    simp only [core, paths, List.forall_mem_map, runsOn_of_head?_ne (hne _)]

theorem exists_path (c : Condition) : ∃ path, path ∈ c.paths := by
  induction c with
  | test t => exact ⟨[], List.mem_singleton_self _⟩
  | negation c ih =>
    obtain ⟨path, hpath⟩ := ih
    exact ⟨_, List.mem_map_of_mem hpath⟩
  | binary op l r ihl _ =>
    obtain ⟨path, hpath⟩ := ihl
    exact ⟨_, List.mem_map_of_mem (List.mem_append_left _ hpath)⟩

/-- The calls that are open at once are as many as the runs on a path, and one for its test. -/
theorem callDepth_le_iff (c : Condition) :
    c.callDepth ≤ n ↔ ∀ path ∈ c.paths, runsOn none path < n := by
  induction n generalizing c with
  | zero =>
    have hpos := c.callDepth_pos
    obtain ⟨path, hpath⟩ := c.exists_path
    refine iff_of_false (by omega) fun h => ?_
    exact Nat.not_lt_zero _ (h path hpath)
  | succ n ih =>
    cases c with
    | test t => simp [callDepth, paths, runsOn]
    | negation c =>
      rw [callDepth, Nat.add_le_add_iff_right, ih, runsOn_core_iff, paths, List.forall_mem_map]
      simp [runsOn, Nat.add_comm 1]
    | binary op l r =>
      simp only [callDepth_binary_le_iff, ih, runsOn_operands_iff, paths, List.forall_mem_map]
      simp [runsOn, Nat.add_comm 1]

theorem callDepth_congr {c d : Condition} (h : c.paths = d.paths) : c.callDepth = d.callDepth := by
  refine Nat.le_antisymm ?_ ?_
  · exact (callDepth_le_iff c).mpr (h ▸ (callDepth_le_iff d).mp (Nat.le_refl _))
  · exact (callDepth_le_iff d).mpr (h ▸ (callDepth_le_iff c).mp (Nat.le_refl _))

/-! ## No path has too many runs -/

/-- Between two runs of negations on a path there are parentheses. -/
theorem negationsOn_le (c : Condition) : ∀ path ∈ c.paths,
    negationsOn true path ≤ c.levels .operand ∧
      ∀ before, negationsOn false path ≤ c.levels (.chain before) + 1 := by
  induction c with
  | test t =>
    intro path hpath
    obtain rfl := List.mem_singleton.mp hpath
    exact ⟨Nat.zero_le _, fun before => Nat.zero_le _⟩
  | negation c ih =>
    intro path hpath
    obtain ⟨below, hbelow, rfl⟩ := List.mem_map.mp hpath
    obtain ⟨hoperand, -⟩ := ih below hbelow
    simp only [negationsOn, levels, if_true, Bool.false_eq_true, if_false]
    exact ⟨by omega, fun before => by omega⟩
  | binary op l r ihl ihr =>
    intro path hpath
    have hchain (before : Option Connective) :
        negationsOn false path ≤ (binary op l r).levels (.chain before) + 1 := by
      obtain ⟨below, hbelow, rfl⟩ := List.mem_map.mp hpath
      simp only [negationsOn, levels]
      rcases List.mem_append.mp hbelow with hl | hr
      · have hle := (ihl below hl).2 none
        have hlevels := l.levels_chain_le none
        omega
      · have hle := (ihr below hr).2 (some op)
        omega
    refine ⟨?_, hchain⟩
    have hnone := hchain none
    obtain ⟨below, -, rfl⟩ := List.mem_map.mp hpath
    rw [levels_operand_binary]
    exact hnone

end Condition

theorem negationsOn_le_of_parse {source : String} {q : Query} (h : parse source = .ok q)
    {path : List Node} (hpath : path ∈ q.root.paths) : negationsOn false path ≤ maxNesting + 1 := by
  have hlevels := levels_le_of_parse h
  have hchain := (q.root.negationsOn_le path hpath).2 none
  omega

theorem callDepth_le_of_parse {source : String} {q : Query} (h : parse source = .ok q) :
    q.root.callDepth ≤ 3 * maxNesting + 3 := by
  refine q.root.callDepth_le_iff.mpr fun path hpath => ?_
  have hconnectives := levelsOn_le_of_parse h hpath
  have hnegations := negationsOn_le_of_parse h hpath
  rw [(runsOn_eq path).2.2]
  omega

/-! ## Some paths have as many, and some are longer -/

/-- An expressible condition that does not need too many levels is that of a query, apart from its
marks. -/
theorem exists_parse_of_levels {c : Condition} (h : ∀ t ∈ c.tests, t.Expressible)
    (hle : c.levels (.chain none) ≤ maxNesting) :
    ∃ source q, parse source = .ok q ∧ q.root.paths = c.paths := by
  obtain ⟨ts, c', hts, hderives, hc'⟩ := exists_derives h (.chain none)
  obtain ⟨us, hus, hkinds⟩ := exists_genuine hts
  obtain ⟨c'', hderives', hc''⟩ := hderives.of_kinds hkinds
  obtain ⟨q, hq, hpaths⟩ := exists_parse_queryText hus hderives' hle
  refine ⟨_, q, hq, ?_⟩
  rw [hpaths, ← c''.paths_unmarked, hc'', hc', c.paths_unmarked]

theorem expressible_idCondition : ∀ t ∈ idCondition.tests, t.Expressible := by
  have hone : Quotable "1" := quotable_toString 1
  exact List.forall_mem_singleton.mpr ⟨rfl, hone⟩

/-- `id = 1 and (not (…) or id = 1)`, with the same in the parentheses so many times, and
`id = 1 and not id = 1` in the innermost. -/
def deepCondition : Nat → Condition
  | 0 => .binary .and idCondition (.negation idCondition)
  | n + 1 => .binary .and idCondition (.binary .or (.negation (deepCondition n)) idCondition)

theorem expressible_deepCondition (n : Nat) : ∀ t ∈ (deepCondition n).tests, t.Expressible := by
  induction n with
  | zero => exact List.forall_mem_append.mpr ⟨expressible_idCondition, expressible_idCondition⟩
  | succ n ih =>
    simp only [deepCondition, Condition.tests, List.forall_mem_append]
    exact ⟨expressible_idCondition, ih, expressible_idCondition⟩

theorem deepCondition_eq (n : Nat) : ∃ l r, deepCondition n = .binary .and l r := by
  cases n <;> exact ⟨_, _, rfl⟩

theorem levels_deepCondition (n : Nat) : (deepCondition n).levels (.chain none) = n := by
  induction n with
  | zero => rfl
  | succ n ih =>
    have hgroup : (deepCondition n).levels .operand = n + 1 := by
      obtain ⟨l, r, h⟩ := deepCondition_eq n
      rw [h, Condition.levels_operand_binary, ← h, ih]
    have hand : switchLevel none .and = 0 := rfl
    have hor : switchLevel (some .and) .or = 1 := rfl
    simp only [deepCondition, Condition.levels, hgroup, idCondition, hand, hor]
    omega

theorem callDepth_idCondition : idCondition.callDepth = 1 := by
  rw [idCondition, Condition.callDepth]

/-- Each of the parentheses adds a run of `and`, one of `or` and one of `not`. -/
theorem callDepth_deepCondition (n : Nat) : (deepCondition n).callDepth = 3 * n + 3 := by
  induction n with
  | zero =>
    have hnot : (Condition.negation idCondition).callDepth = 2 := by
      rw [Condition.callDepth]
      exact congrArg (· + 1) callDepth_idCondition
    have hoperands : (deepCondition 0).operands .and = [idCondition, .negation idCondition] := rfl
    rw [deepCondition, Condition.callDepth_binary, ← deepCondition, hoperands]
    simp [callDepth_idCondition, hnot]
  | succ n ih =>
    have hnot : (Condition.negation (deepCondition n)).callDepth = 3 * n + 4 := by
      have hcore : (deepCondition n).core = deepCondition n := by
        obtain ⟨l, r, h⟩ := deepCondition_eq n
        rw [h]
        rfl
      rw [Condition.callDepth, hcore, ih]
    have hor : (Condition.binary .or (.negation (deepCondition n)) idCondition).callDepth =
        3 * n + 5 := by
      have hoperands : (Condition.binary .or (.negation (deepCondition n)) idCondition).operands .or =
        [.negation (deepCondition n), idCondition] := rfl
      rw [Condition.callDepth_binary, hoperands]
      simp [callDepth_idCondition, hnot]
    have hoperands : (deepCondition (n + 1)).operands .and =
      [idCondition, .binary .or (.negation (deepCondition n)) idCondition] := rfl
    rw [deepCondition, Condition.callDepth_binary, ← deepCondition, hoperands]
    simp [callDepth_idCondition, hor]
    omega

/-- A chain of `id = 1`, whose last operand is negated so many times. -/
def longCondition (negations : Nat) : Nat → Condition
  | 0 => .negations negations idCondition
  | n + 1 => .binary .and idCondition (longCondition negations n)

theorem expressible_longCondition (m n : Nat) :
    ∀ t ∈ (longCondition m n).tests, t.Expressible := by
  induction n with
  | zero =>
    rw [longCondition, Condition.tests_negations]
    exact expressible_idCondition
  | succ n ih => exact List.forall_mem_append.mpr ⟨expressible_idCondition, ih⟩

/-- A chain of one connective needs no level, and neither do negations. -/
theorem levels_longCondition (m n : Nat) : (longCondition m n).levels (.chain none) = 0 := by
  have hnegations (phrase : Phrase) : (Condition.negations m idCondition).levels phrase = 0 := by
    induction m generalizing phrase with
    | zero => rfl
    | succ m ih => exact ih .operand
  have hchain (before : Option Connective) (h : switchLevel before .and = 0) :
      (longCondition m n).levels (.chain before) = 0 := by
    induction n generalizing before with
    | zero => exact hnegations _
    | succ n ih =>
      rw [longCondition, Condition.levels, h, ih (some .and) rfl]
      rfl
  exact hchain none rfl

theorem mem_paths_longCondition (m n : Nat) :
    List.replicate n (.connective .and) ++ List.replicate m .negation ∈ (longCondition m n).paths := by
  induction n with
  | zero =>
    induction m with
    | zero => exact List.mem_singleton_self _
    | succ m ih => exact List.mem_map_of_mem ih
  | succ n ih => exact List.mem_map_of_mem (List.mem_append_right _ ih)

/-- The condition of a query is compiled with no more than 387 calls open at once, because no path of it
has more than 257 runs of a connective and 129 runs of negations. Some queries need as many calls. But the
runs can be of any length, so the paths can be too. -/
theorem parsed_condition_compiles_within :
    (∀ source q, parse source = .ok q → q.root.callDepth ≤ 387 ∧
      (∀ path ∈ q.root.paths, levelsOn none path ≤ 257 ∧ negationsOn false path ≤ 129) ∧
      ∀ s, ∃ e, Compile.filter s q.root = .ok e ∧ Compile.filterWithin s 387 q.root = some e) ∧
    (∃ source q, parse source = .ok q ∧ q.root.callDepth = 387) ∧
    ∀ m n, ∃ source q, parse source = .ok q ∧
      List.replicate n (.connective .and) ++ List.replicate m .negation ∈ q.root.paths := by
  refine ⟨fun source q h => ⟨callDepth_le_of_parse h, fun path hpath => ?_, fun s => ?_⟩, ?_,
    fun m n => ?_⟩
  · exact ⟨levelsOn_le_of_parse h hpath, negationsOn_le_of_parse h hpath⟩
  · obtain ⟨e, he⟩ := Compile.exists_filter_eq_ok s (comparesIds_of_parse h)
    exact ⟨e, he, Compile.filterWithin_eq_some_iff.mpr ⟨he, callDepth_le_of_parse h⟩⟩
  · obtain ⟨source, q, hq, hpaths⟩ := exists_parse_of_levels
      (expressible_deepCondition maxNesting) (levels_deepCondition maxNesting).le
    exact ⟨source, q, hq, (Condition.callDepth_congr hpaths).trans (callDepth_deepCondition _)⟩
  · obtain ⟨source, q, hq, hpaths⟩ := exists_parse_of_levels (expressible_longCondition m n)
      ((levels_longCondition m n).trans_le (Nat.zero_le maxNesting))
    exact ⟨source, q, hq, hpaths ▸ mem_paths_longCondition m n⟩

/-- A query with two negations around a chain. -/
def negatedChain : String := "query requests where id = 1 or not not (id = 2 and not id = 3)"

def negatedChainRoot : Condition :=
  .binary .or (.test (.id .eq "1")) (.negation (.negation
    (.binary .and (.test (.id .eq "2")) (.negation (.test (.id .eq "3"))))))

theorem parsed_condition_compiles_within_negatedChain :
    parse negatedChain = .ok ⟨.rows, negatedChainRoot⟩ ∧ negatedChainRoot.callDepth ≤ 387 ∧
      ∃ e, Compile.filterWithin {} 387 negatedChainRoot = some e := by
  have h : parse negatedChain = .ok ⟨.rows, negatedChainRoot⟩ := by decide +kernel
  obtain ⟨hdepth, -, hfilter⟩ := parsed_condition_compiles_within.1 _ _ h
  obtain ⟨e, -, he⟩ := hfilter {}
  exact ⟨h, hdepth, e, he⟩

end TrafficQuery
