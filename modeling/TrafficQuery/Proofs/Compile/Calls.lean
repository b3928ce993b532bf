import TrafficQuery.Proofs.Compile.Balance
import TrafficQuery.Proofs.Compile.Regrouping

/-!
# Compiling a condition call by call

One call compiles a test, a whole chain with a call for each of its operands, or a whole run of negations
with a call for what they negate. The depth of the calls depends on how the chains and the runs are nested,
and not on how long they are.
-/

namespace TrafficQuery
open Sql

namespace Condition

/-! ## The depth of the calls -/

theorem sizeOf_core_le (c : Condition) : sizeOf c.core ≤ sizeOf c := by
  induction c with
  | negation c ih =>
    have hsize : sizeOf (negation c) = 1 + sizeOf c := rfl
    rw [core, hsize]
    omega
  | _ => exact Nat.le_refl _

theorem sizeOf_le_of_mem_operands {op : Connective} {c d : Condition} (h : d ∈ c.operands op) :
    sizeOf d ≤ sizeOf c := by
  induction c with
  | binary own l r ihl ihr =>
    have hsize : sizeOf (binary own l r) = 1 + sizeOf own + sizeOf l + sizeOf r := rfl
    rw [operands] at h
    split at h
    case isTrue =>
      rcases List.mem_append.mp h with h | h
      · have hle := ihl h
        omega
      · have hle := ihr h
        omega
    case isFalse => rw [List.mem_singleton.mp h]
  | _ => rw [List.mem_singleton.mp h]

theorem sizeOf_lt_of_mem_chain {op : Connective} {l r d : Condition}
    (h : d ∈ l.operands op ++ r.operands op) : sizeOf d < sizeOf (binary op l r) := by
  have hsize : sizeOf (binary op l r) = 1 + sizeOf op + sizeOf l + sizeOf r := rfl
  rcases List.mem_append.mp h with h | h
  · have hle := sizeOf_le_of_mem_operands h
    omega
  · have hle := sizeOf_le_of_mem_operands h
    omega

/-- The calls that are open at once when a condition is compiled: one for a test, one for a chain around
those for its operands, and one for a run of negations around those for what is negated. -/
def callDepth : Condition → Nat
  | .test _ => 1
  | .binary op l r =>
    ((l.operands op ++ r.operands op).attach.map fun d => d.1.callDepth).foldr max 0 + 1
  | .negation c => c.core.callDepth + 1
termination_by c => sizeOf c
decreasing_by
  · exact sizeOf_lt_of_mem_chain d.2
  · exact Nat.lt_of_le_of_lt c.sizeOf_core_le (by simp)

theorem callDepth_binary (op : Connective) (l r : Condition) : (binary op l r).callDepth =
    (((binary op l r).operands op).map callDepth).foldr max 0 + 1 := by
  have hoperands : (binary op l r).operands op = l.operands op ++ r.operands op := if_pos rfl
  rw [callDepth, hoperands, List.attach_map_val]

theorem callDepth_binary_le_iff {op : Connective} {l r : Condition} {n : Nat} :
    (binary op l r).callDepth ≤ n + 1 ↔ ∀ d ∈ (binary op l r).operands op, d.callDepth ≤ n := by
  have hmax (ds : List Condition) :
      (ds.map callDepth).foldr max 0 ≤ n ↔ ∀ d ∈ ds, d.callDepth ≤ n := by
    induction ds with
    | nil => simp
    | cons d ds ih => rw [List.map_cons, List.foldr_cons, Nat.max_le, ih, List.forall_mem_cons]
  rw [callDepth_binary, Nat.add_le_add_iff_right, hmax]

theorem callDepth_pos (c : Condition) : 0 < c.callDepth := by
  cases c <;> rw [callDepth] <;> exact Nat.succ_pos _

end Condition

namespace Compile
variable {s : Settings} {op : Connective} {c : Condition} {e : Expr}

/-! ## Calls that are counted -/

/-- What a condition is compiled to by calls for tests, for whole chains and for whole runs of
negations, if no more than so many of them need to be open at once. -/
def filterWithin (s : Settings) : Nat → Condition → Option Expr
  | 0, _ => none
  | _ + 1, .test t => (test s t).toOption
  | n + 1, .binary op l r =>
    (((Condition.binary op l r).operands op).mapM (filterWithin s n)).bind fun
      | [] => none
      | first :: others => some (balance op first others)
  | n + 1, .negation c =>
    (filterWithin s n c.core).map fun e => if c.isInverted then e else .negation e

theorem mapM_eq_some_iff {α β : Type} {f : α → Option β} {as : List α} {bs : List β} :
    as.mapM f = some bs ↔ List.Forall₂ (fun a b => f a = some b) as bs := by
  induction as generalizing bs with
  | nil => cases bs <;> simp
  | cons a as ih => cases bs <;> simp [List.mapM_cons, Option.bind_eq_some_iff, ← ih]

/-- A chain compiles if its operands do. -/
theorem exists_run_of_operands (h : ∀ d ∈ c.operands op, ∃ e, filter s d = .ok e) :
    ∃ r, run s c = .ok r := by
  induction c with
  | binary own left right ihl ihr =>
    by_cases hop : own = op
    · subst hop
      rw [Condition.operands, if_pos rfl, List.forall_mem_append] at h
      obtain ⟨l, hl⟩ := ihl h.1
      obtain ⟨r, hr⟩ := ihr h.2
      exact ⟨_, run_binary_eq_ok_iff.mpr ⟨l, r, hl, hr, rfl⟩⟩
    · rw [Condition.operands, if_neg hop, List.forall_mem_singleton] at h
      obtain ⟨e, he⟩ := h
      obtain ⟨r, hr, -⟩ := filter_eq_ok_iff.mp he
      exact ⟨r, hr⟩
  | _ =>
    obtain ⟨e, he⟩ := h _ (List.mem_singleton_self _)
    obtain ⟨r, hr, -⟩ := filter_eq_ok_iff.mp he
    exact ⟨r, hr⟩

/-- A chain is compiled to its compiled operands, joined. -/
theorem filter_binary_eq_ok_iff {l r : Condition} : filter s (.binary op l r) = .ok e ↔
    ∃ first others, List.Forall₂ (fun d f => filter s d = .ok f)
      ((Condition.binary op l r).operands op) (first :: others) ∧ e = balance op first others := by
  constructor
  · intro h
    obtain ⟨chain, hchain, rfl⟩ := filter_eq_ok_iff.mp h
    have hoperands := operands_of_run hchain op
    obtain ⟨first, others, rfl⟩ := exists_chain_of_run hchain
    rw [Run.operands, if_pos rfl] at hoperands
    exact ⟨first, others, hoperands, rfl⟩
  · rintro ⟨first, others, h, rfl⟩
    have hboth : List.Forall₂ (fun d f => (∃ f, filter s d = .ok f) ∧ filter s d = .ok f) _ _ :=
      h.imp fun d f hf => ⟨⟨f, hf⟩, hf⟩
    obtain ⟨hcompiles, -⟩ := (List.forall₂_and_left _ _).mp hboth
    obtain ⟨chain, hchain⟩ := exists_run_of_operands hcompiles
    have hoperands := operands_of_run hchain op
    obtain ⟨first', others', rfl⟩ := exists_chain_of_run hchain
    rw [Run.operands, if_pos rfl] at hoperands
    have hunique : Relator.RightUnique fun d f => filter s d = .ok f :=
      fun d f g hf hg => Except.ok.inj (hf.symm.trans hg)
    obtain ⟨rfl, rfl⟩ := List.cons.inj (hunique.forall₂ h hoperands)
    exact filter_of_run hchain

/-- A run of negations is compiled to what it negates, or to the negation of that. -/
theorem filter_negation_eq_ok_iff : filter s (.negation c) = .ok e ↔
    ∃ f, filter s c.core = .ok f ∧ e = if c.isInverted then f else .negation f := by
  rw [filter, bind_eq_ok_iff]
  constructor
  · rintro ⟨f, hf, h⟩
    exact ⟨f, hf, (Except.ok.inj h).symm⟩
  · rintro ⟨f, hf, rfl⟩
    exact ⟨f, hf, rfl⟩

/-- Calls for tests, chains and runs of negations compile what can be compiled, and as many of them are
open at once as the depth of a condition says. -/
theorem filterWithin_eq_some_iff {n : Nat} :
    filterWithin s n c = some e ↔ filter s c = .ok e ∧ c.callDepth ≤ n := by
  induction n generalizing c e with
  | zero =>
    have hpos := c.callDepth_pos
    simp only [filterWithin, reduceCtorEq, false_iff, not_and]
    omega
  | succ n ih =>
    cases c with
    | test t =>
      rw [filterWithin, filter, Condition.callDepth]
      cases test s t <;> simp [Except.toOption]
    | negation c =>
      rw [filterWithin, Option.map_eq_some_iff, filter_negation_eq_ok_iff, Condition.callDepth,
        Nat.add_le_add_iff_right]
      constructor
      · rintro ⟨f, hf, rfl⟩
        obtain ⟨hfilter, hdepth⟩ := ih.mp hf
        exact ⟨⟨f, hfilter, rfl⟩, hdepth⟩
      · rintro ⟨⟨f, hfilter, rfl⟩, hdepth⟩
        exact ⟨f, ih.mpr ⟨hfilter, hdepth⟩, rfl⟩
    | binary op l r =>
      rw [filterWithin, Option.bind_eq_some_iff, filter_binary_eq_ok_iff,
        Condition.callDepth_binary_le_iff]
      constructor
      · rintro ⟨es, hes, he⟩
        have hboth := (mapM_eq_some_iff.mp hes).imp fun d f hf => (ih.mp hf).symm
        obtain ⟨hdepth, hfilter⟩ := (List.forall₂_and_left _ _).mp hboth
        cases es with
        | nil => cases he
        | cons first others => exact ⟨⟨first, others, hfilter, (Option.some.inj he).symm⟩, hdepth⟩
      · rintro ⟨⟨first, others, hfilter, rfl⟩, hdepth⟩
        have hboth := (List.forall₂_and_left _ _).mpr ⟨hdepth, hfilter⟩
        exact ⟨first :: others, mapM_eq_some_iff.mpr (hboth.imp fun d f hf => ih.mpr hf.symm), rfl⟩

end Compile

end TrafficQuery
