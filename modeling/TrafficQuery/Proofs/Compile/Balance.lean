import Mathlib.Data.List.Forall2
import Mathlib.Data.Nat.Log
import TrafficQuery.Proofs.Compile.Runs

/-!
# The shape of a compiled chain

A chain of one connective is compiled as a binary tree whose leaves are what its operands compile to,
from left to right. The tree is as low as a binary tree with so many leaves can be.
-/

namespace TrafficQuery
open Sql

/-- The operands of the chain of a connective that a condition is, from left to right. A condition that
is no such chain is its only operand. -/
def Condition.operands (op : Connective) : Condition → List Condition
  | .binary own l r =>
    if own = op then l.operands op ++ r.operands op else [.binary own l r]
  | c => [c]

/-- No operand of a chain is a chain of the same connective, so its operands are those of the longest
run. -/
theorem Condition.ne_binary_of_mem_operands {op : Connective} {c d : Condition}
    (h : d ∈ c.operands op) (l r : Condition) : d ≠ .binary op l r := by
  induction c with
  | test t =>
    rw [List.mem_singleton.mp h]
    exact Condition.noConfusion
  | negation c =>
    rw [List.mem_singleton.mp h]
    exact Condition.noConfusion
  | binary own left right ihl ihr =>
    rw [operands] at h
    split at h
    case isTrue =>
      rcases List.mem_append.mp h with h | h
      · exact ihl h
      · exact ihr h
    case isFalse hne =>
      rw [List.mem_singleton.mp h]
      rintro ⟨⟩
      exact hne rfl

theorem Condition.operands_ne_nil (op : Connective) (c : Condition) : c.operands op ≠ [] := by
  induction c with
  | test t => exact List.cons_ne_nil _ _
  | negation c => exact List.cons_ne_nil _ _
  | binary own left right ihl _ =>
    rw [operands]
    split
    · exact List.append_ne_nil_of_left_ne_nil ihl _
    · exact List.cons_ne_nil _ _

theorem Condition.two_le_length_operands (op : Connective) (l r : Condition) :
    2 ≤ ((binary op l r).operands op).length := by
  have hl := List.length_pos_iff.mpr (l.operands_ne_nil op)
  have hr := List.length_pos_iff.mpr (r.operands_ne_nil op)
  rw [operands, if_pos rfl, List.length_append]
  omega

/-! ## Joined expressions -/

namespace Sql.Expr

/-- An expression is joined, by so many applications of one connective, from the leaves of a binary
tree of that height. -/
inductive Joined (op : Connective) : Nat → Nat → List Expr → Expr → Prop
  | leaf {e : Expr} : Joined op 0 0 [e] e
  | node {m n height height' : Nat} {es fs : List Expr} {l r : Expr} :
      Joined op m height es l → Joined op n height' fs r →
      Joined op (m + n + 1) (max height height' + 1) (es ++ fs) (.binary op l r)

/-- Several expressions are joined, one after the other, from the leaves of trees that are not
higher. -/
inductive JoinedAll (op : Connective) (height : Nat) : List Expr → List Expr → Prop
  | nil : JoinedAll op height [] []
  | cons {m k : Nat} {es ps qs : List Expr} {e : Expr} : Joined op m k ps e → k ≤ height →
      JoinedAll op height qs es → JoinedAll op height (ps ++ qs) (e :: es)

variable {op : Connective} {ps es : List Expr} {height : Nat}

/-- A tree has one leaf more than it has applications. -/
theorem Joined.length_eq {m : Nat} {e : Expr} (h : Joined op m height es e) : es.length = m + 1 := by
  induction h with
  | leaf => rfl
  | node _ _ ihl ihr =>
    rw [List.length_append]
    omega

theorem JoinedAll.mono {height' : Nat} (h : JoinedAll op height ps es)
    (hle : height ≤ height') : JoinedAll op height' ps es := by
  induction h with
  | nil => exact .nil
  | cons he hk _ ih => exact .cons he (hk.trans hle) ih

theorem joinedAll_leaves (op : Connective) (height : Nat) (es : List Expr) :
    JoinedAll op height es es := by
  induction es with
  | nil => exact .nil
  | cons e es ih => exact .cons .leaf (Nat.zero_le _) ih

end Sql.Expr

namespace Compile
open Expr
variable {s : Settings} {op : Connective} {ps qs es : List Expr} {height : Nat}

/-! ## Rounds -/

theorem length_pairUp (op : Connective) (es : List Expr) :
    (pairUp op es).length = (es.length + 1) / 2 := by
  fun_induction pairUp op es with
  | case1 a b es ih =>
    simp only [List.length_cons, ih]
    omega
  | case2 es hshort =>
    rcases es with _ | ⟨e, _ | ⟨f, es⟩⟩
    · rfl
    · exact (Nat.div_self Nat.two_pos).symm
    · exact absurd rfl (hshort e f es)

/-- A round makes the trees higher by one. -/
theorem joinedAll_pairUp (h : JoinedAll op height ps es) :
    JoinedAll op (height + 1) ps (pairUp op es) := by
  fun_induction pairUp op es generalizing ps with
  | case1 a b es ih =>
    obtain _ | ⟨ha, hka, h⟩ := h
    obtain _ | ⟨hb, hkb, h⟩ := h
    rw [← List.append_assoc]
    exact .cons (.node ha hb) (Nat.succ_le_succ (max_le hka hkb)) (ih h)
  | case2 es => exact h.mono (Nat.le_succ height)

/-- There are as many rounds as it takes to halve the number of trees down to one, and the first tree
grows in every round. -/
theorem exists_joined_balance {m : Nat} {first : Expr} (hfirst : Joined op m height ps first)
    (h : JoinedAll op height qs es) :
    ∃ n, Joined op n (height + Nat.clog 2 (es.length + 1)) (ps ++ qs) (balance op first es) := by
  fun_induction balance op first es generalizing m height ps qs with
  | case1 first =>
    obtain _ | _ := h
    refine ⟨m, ?_⟩
    rw [List.append_nil, List.length_nil, Nat.zero_add, Nat.clog_one_right, Nat.add_zero]
    exact hfirst
  | case2 first second others ih =>
    obtain _ | ⟨hsecond, hk, h⟩ := h
    have hboth := Joined.node hfirst hsecond
    rw [max_eq_left hk] at hboth
    obtain ⟨n, hn⟩ := ih hboth (joinedAll_pairUp h)
    have hrounds : Nat.clog 2 (others.length + 1 + 1) =
        Nat.clog 2 ((pairUp op others).length + 1) + 1 := by
      rw [Nat.clog_of_two_le Nat.one_lt_two (Nat.le_add_left 2 others.length), length_pairUp]
      congr 2
      omega
    refine ⟨n, ?_⟩
    rw [List.length_cons, hrounds, ← List.append_assoc, ← Nat.add_assoc, Nat.add_right_comm]
    exact hn

/-- A balanced chain is a tree with its operands for leaves, and as low as such a tree can be. -/
theorem joined_balance (op : Connective) (first : Expr) (es : List Expr) :
    Joined op es.length (Nat.clog 2 (es.length + 1)) (first :: es) (balance op first es) := by
  have hfirst : Joined op 0 0 [first] first := .leaf
  obtain ⟨n, h⟩ := exists_joined_balance hfirst (joinedAll_leaves op 0 es)
  obtain rfl : es.length = n := Nat.succ.inj h.length_eq
  rw [Nat.zero_add] at h
  exact h

/-! ## Chains -/

theorem filter_of_run {c : Condition} {r : Run} (h : run s c = .ok r) : filter s c = .ok r.close :=
  filter_eq_ok_iff.mpr ⟨r, h, rfl⟩

theorem exists_chain_of_run {l r : Condition} {chain : Run} (h : run s (.binary op l r) = .ok chain) :
    ∃ first others, chain = .chain op first others := by
  obtain ⟨left, right, -, -, hchain⟩ := run_binary_eq_ok_iff.mp h
  exact ⟨_, _, hchain⟩

/-- A compiled condition gives to a chain around it what its operands compile to. -/
theorem operands_of_run {c : Condition} {r : Run} (h : run s c = .ok r) (op : Connective) :
    List.Forall₂ (fun d e => filter s d = .ok e) (c.operands op)
      ((r.operands op).1 :: (r.operands op).2) := by
  have hfilter := filter_of_run h
  induction c generalizing r with
  | test t =>
    obtain ⟨e, he, rfl⟩ := run_test_eq_ok_iff.mp h
    exact .cons hfilter .nil
  | negation c =>
    obtain ⟨r', hr', rfl⟩ := run_negation_eq_ok_iff.mp h
    exact .cons hfilter .nil
  | binary own left right ihl ihr =>
    obtain ⟨l, r', hl, hr', rfl⟩ := run_binary_eq_ok_iff.mp h
    by_cases hop : own = op
    · subst hop
      rw [Condition.operands, if_pos rfl, operands_link]
      exact List.rel_append (ihl hl (filter_of_run hl)) (ihr hr' (filter_of_run hr'))
    · rw [Condition.operands, if_neg hop, Run.link, Run.operands, if_neg hop]
      exact .cons hfilter .nil

/-- A chain that compiles is compiled to a binary tree of its connective. The leaves of the tree are what
the operands of the whole chain compile to, each of them once and from left to right, and no leaf lies
deeper than the logarithm of their number, rounded up. There are at least two of them, so that no chain is
left with nothing to join. -/
theorem filter_joins_operands (s : Settings) {op : Connective} {l r : Condition} {e : Expr}
    (h : filter s (.binary op l r) = .ok e) :
    ∃ es, List.Forall₂ (fun d f => filter s d = .ok f) ((Condition.binary op l r).operands op) es ∧
      (∀ d ∈ (Condition.binary op l r).operands op, ∀ l' r', d ≠ .binary op l' r') ∧
      2 ≤ es.length ∧ Expr.Joined op (es.length - 1) (Nat.clog 2 es.length) es e := by
  obtain ⟨chain, hchain, rfl⟩ := filter_eq_ok_iff.mp h
  have hoperands := operands_of_run hchain op
  have htwo := Condition.two_le_length_operands op l r
  rw [hoperands.length_eq] at htwo
  obtain ⟨first, others, rfl⟩ := exists_chain_of_run hchain
  rw [Run.operands, if_pos rfl] at hoperands htwo
  exact ⟨_, hoperands, fun d hd => Condition.ne_binary_of_mem_operands hd, htwo,
    joined_balance op first others⟩

def methodTest (m : Method) : Condition := .test (.method m)

def methodFilter (m : Method) : Expr :=
  .compare .eq (.column .request .method) (.bound (.string m.word))

/-- A chain of five operands that is bracketed from both sides, one of them a chain of the other
connective. -/
def unevenChain : Condition :=
  .binary .and
    (.binary .and (.binary .and (methodTest .get) (methodTest .post))
      (.binary .or (methodTest .put) (methodTest .patch)))
    (.binary .and (.negation (methodTest .delete)) (methodTest .head))

def unevenFilter : Expr :=
  .binary .and
    (.binary .and (.binary .and (methodFilter .get) (methodFilter .post))
      (.binary .and (.binary .or (methodFilter .put) (methodFilter .patch))
        (.negation (methodFilter .delete))))
    (methodFilter .head)

theorem filter_joins_operands_uneven : filter {} unevenChain = .ok unevenFilter ∧
    ∃ es, List.Forall₂ (fun d f => filter {} d = .ok f) (unevenChain.operands .and) es ∧
      es.length = 5 ∧ Expr.Joined .and 4 3 es unevenFilter := by
  have h : filter {} unevenChain = .ok unevenFilter := by decide +kernel
  obtain ⟨es, hoperands, -, -, hjoined⟩ := filter_joins_operands {} h
  have hfive : es.length = 5 := hoperands.length_eq.symm
  have hlog : Nat.clog 2 5 = 3 := by decide +kernel
  rw [hfive, hlog] at hjoined
  exact ⟨h, es, hoperands, hfive, hjoined⟩

end Compile
end TrafficQuery
