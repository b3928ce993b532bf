import TrafficQuery.Proofs.Sql.Grammar
import TrafficQuery.Proofs.Sql.Lexing
import TrafficQuery.Proofs.Sql.Names

/-!
# Tests on rows and their text

The pieces of a test are legible, and read as the tree of the test.
-/

namespace TrafficQuery.Sql

/-! ## The tree of a test -/

def Term.tree : Term → Tree
  | .column t c => .column t.label c.label
  | .bound v => .value v
  | .lower t => .call "LOWER" [t.tree]
  | .ago seconds =>
    .call "datetime" [.literal "now", .literal ("-" ++ toString seconds ++ " seconds")]

def Expr.tree : Expr → Tree
  | .compare op l r => .compare op l.tree r.tree
  | .like t pattern escaped =>
    .like t.tree (.value (.string pattern))
      (if escaped then some (.literal (String.singleton Like.escapeSign)) else none)
  | .binary op l r => .binary op l.tree r.tree
  | .negation e => .negation e.tree

theorem Term.tree_injective {t u : Term} (h : t.tree = u.tree) : t = u := by
  induction t generalizing u with
  | column t c =>
    cases u with
    | column t' c' =>
      obtain ⟨ht, hc⟩ := Tree.column.inj h
      rw [Alias.label_injective ht, Column.label_injective hc]
    | _ => cases h
  | bound v =>
    cases u with
    | bound w => rw [Tree.value.inj h]
    | _ => cases h
  | lower t ih =>
    cases u with
    | lower u => rw [ih (List.cons.inj (Tree.call.inj h).2).1]
    | ago n => exact absurd (Tree.call.inj h).1 (by decide)
    | _ => cases h
  | ago m =>
    cases u with
    | ago n =>
      obtain ⟨-, hsecond⟩ := List.cons.inj (Tree.call.inj h).2
      have htext := congrArg String.toList (Tree.literal.inj (List.cons.inj hsecond).1)
      rw [String.toList_append, String.toList_append, String.toList_append,
        String.toList_append] at htext
      have hnumber := String.toList_inj.mp (List.append_cancel_left (List.append_cancel_right htext))
      rw [toString_nat_injective hnumber]
    | lower u => exact absurd (Tree.call.inj h).1 (by decide)
    | _ => cases h

theorem Expr.tree_injective {e f : Expr} (h : e.tree = f.tree) : e = f := by
  induction e generalizing f with
  | compare op l r =>
    cases f with
    | compare op' l' r' =>
      obtain ⟨rfl, hl, hr⟩ := Tree.compare.inj h
      rw [Term.tree_injective hl, Term.tree_injective hr]
    | _ => cases h
  | like t pattern escaped =>
    cases f with
    | like t' pattern' escaped' =>
      obtain ⟨ht, hpattern, hescape⟩ := Tree.like.inj h
      have hescaped : escaped = escaped' := by
        cases escaped <;> cases escaped' <;> first | rfl | cases hescape
      rw [Term.tree_injective ht, Value.string.inj (Tree.value.inj hpattern), hescaped]
    | _ => cases h
  | binary op l r ihl ihr =>
    cases f with
    | binary op' l' r' =>
      obtain ⟨rfl, hl, hr⟩ := Tree.binary.inj h
      rw [ihl hl, ihr hr]
    | _ => cases h
  | negation e ih =>
    cases f with
    | negation f => rw [ih (Tree.negation.inj h)]
    | _ => cases h

/-! ## Legible pieces -/

theorem legible_between_iff (p : Piece) (ps qs : List Piece) :
    Legible (ps ++ between p ++ qs) ↔ Legible ps ∧ p.isProper = true ∧ Legible qs := by
  have hfirst := legible_append_cons_iff (d := .space) rfl ps (p :: .space :: qs)
  have hsecond := legible_append_cons_iff (d := .space) rfl [p] qs
  rw [List.append_assoc]
  exact hfirst.trans (and_congr_right fun _ =>
    hsecond.trans (and_congr_left fun _ => legible_singleton_iff))

theorem legible_call_iff (f : String) (ps : List Piece) :
    Legible (.word f :: parenthesized ps) ↔ (Piece.word f).isProper = true ∧ Legible ps := by
  have hcall := legible_append_cons_iff (d := .sign "(") rfl [.word f] (ps ++ [Piece.sign ")"])
  have harguments := legible_cons_iff (d := .sign "(") rfl (ps ++ [Piece.sign ")"])
  rw [legible_singleton_iff, ← harguments] at hcall
  exact hcall.trans (and_congr_right fun _ => legible_parenthesized_iff ps)

theorem legible_term (t : Term) : Legible t.pieces := by
  induction t with
  | column t c =>
    apply (legible_append_cons_iff (d := .sign ".") rfl [.name t.label] [.name c.label]).mpr
    exact ⟨legible_singleton_iff.mpr rfl, legible_singleton_iff.mpr rfl⟩
  | bound v => exact legible_singleton_iff.mpr rfl
  | lower t ih => exact (legible_call_iff "LOWER" t.pieces).mpr ⟨by decide, ih⟩
  | ago n =>
    apply (legible_parenthesized_iff _).mpr
    apply (legible_call_iff "datetime" _).mpr
    refine ⟨by decide, ?_⟩
    apply (legible_append_cons_iff (d := .sign ",") rfl [.literal "now"] _).mpr
    refine ⟨legible_singleton_iff.mpr rfl, ?_⟩
    apply (legible_cons_iff (d := .space) rfl _).mpr
    exact legible_singleton_iff.mpr rfl

/-- Parts with commas between them are legible if each of them is. -/
theorem legible_separated {parts : List (List Piece)} (h : ∀ part ∈ parts, Legible part) :
    Legible (separated [.sign ",", .space] parts) := by
  fun_induction separated [.sign ",", .space] parts with
  | case1 => exact legible_nil
  | case2 part => exact h part List.mem_cons_self
  | case3 part parts hparts ih =>
    have hlater := ih fun p hp => h p (List.mem_cons_of_mem part hp)
    rw [List.append_assoc]
    apply (legible_append_cons_iff (d := .sign ",") rfl part _).mpr
    exact ⟨h part List.mem_cons_self, (legible_cons_iff (d := .space) rfl _).mpr hlater⟩

theorem legible_expr (e : Expr) : Legible e.pieces := by
  have hoperand (c : Prop) [Decidable c] {ps : List Piece} (h : Legible ps) :
      Legible (if c then ps else parenthesized ps) := by
    split
    · exact h
    · exact (legible_parenthesized_iff ps).mpr h
  induction e with
  | compare op l r =>
    apply (legible_between_iff _ _ _).mpr
    exact ⟨legible_term l, by cases op <;> rfl, legible_term r⟩
  | like t pattern escaped =>
    apply (legible_between_iff _ _ _).mpr
    refine ⟨legible_term t, rfl, ?_⟩
    cases escaped with
    | false => exact legible_singleton_iff.mpr rfl
    | true =>
      have h := legible_between_iff (.word "ESCAPE") [.bound (.string pattern)]
        [.literal (String.singleton Like.escapeSign)]
      exact h.mpr ⟨legible_singleton_iff.mpr rfl, rfl, legible_singleton_iff.mpr rfl⟩
  | binary op l r ihl ihr =>
    apply (legible_between_iff _ _ _).mpr
    exact ⟨hoperand _ ihl, by cases op <;> rfl, hoperand _ ihr⟩
  | negation e ih =>
    apply (legible_append_cons_iff (d := .space) rfl [.word "NOT"] _).mpr
    exact ⟨legible_singleton_iff.mpr rfl, hoperand _ ih⟩

/-! ## The words of a test -/

def testWords : List String := ["AND", "OR", "NOT", "LIKE", "ESCAPE", "LOWER", "datetime"]

def Piece.isWord : Piece → Bool
  | .word _ => true
  | _ => false

/-- A property of pieces that the words of tests have, and whatever is no word. -/
structure HoldsOfTests (f : Piece → Bool) : Prop where
  word : ∀ w ∈ testWords, f (.word w) = true
  other : ∀ p, p.isWord = false → f p = true

theorem all_separated {f : Piece → Bool} {separator : List Piece} {parts : List (List Piece)}
    (hseparator : separator.all f = true) (hparts : ∀ part ∈ parts, part.all f = true) :
    (separated separator parts).all f = true := by
  fun_induction separated separator parts with
  | case1 => rfl
  | case2 part => exact hparts part List.mem_cons_self
  | case3 part parts _ ih =>
    rw [List.all_append, List.all_append, hparts part List.mem_cons_self, hseparator,
      ih fun p hp => hparts p (List.mem_cons_of_mem part hp)]
    rfl

namespace HoldsOfTests
variable {f : Piece → Bool} (hf : HoldsOfTests f)
include hf

theorem all_parenthesized {ps : List Piece} (h : ps.all f = true) :
    (parenthesized ps).all f = true := by
  simp [parenthesized, List.all_append, h, hf.other (.sign _) rfl]

theorem all_operand {ps : List Piece} (h : ps.all f = true) (bare : Bool) :
    (if bare then ps else parenthesized ps).all f = true := by
  cases bare with
  | true => exact h
  | false => exact hf.all_parenthesized h

theorem all_between {p : Piece} (h : f p = true) : (between p).all f = true := by
  simp [between, h, hf.other .space rfl]

theorem all_term (t : Term) : t.pieces.all f = true := by
  induction t with
  | column table column => simp [Term.pieces, hf.other (.name _) rfl, hf.other (.sign _) rfl]
  | bound v => simp [Term.pieces, hf.other (.bound v) rfl]
  | lower t ih => simp [Term.pieces, hf.word "LOWER" (by decide), hf.all_parenthesized ih]
  | ago seconds =>
    have harguments : List.all [.literal "now", .sign ",", .space,
        .literal ("-" ++ toString seconds ++ " seconds")] f = true := by
      simp [hf.other (.literal _) rfl, hf.other (.sign _) rfl, hf.other .space rfl]
    apply hf.all_parenthesized
    rw [List.all_cons, hf.word "datetime" (by decide), hf.all_parenthesized harguments]
    rfl

theorem all_expr (e : Expr) : e.pieces.all f = true := by
  induction e with
  | compare op l r =>
    simp [Expr.pieces, List.all_append, hf.all_term, hf.all_between (hf.other (.sign _) rfl)]
  | like t pattern escaped =>
    have hlike := hf.all_between (hf.word "LIKE" (by decide))
    have hescape := hf.all_between (hf.word "ESCAPE" (by decide))
    cases escaped <;> simp [Expr.pieces, List.all_append, hf.all_term, hlike, hescape,
      hf.other (.bound _) rfl, hf.other (.literal _) rfl]
  | binary op l r ihl ihr =>
    have hword := hf.all_between (hf.word (connectiveWord op) (by cases op <;> decide))
    rw [Expr.pieces, List.all_append, List.all_append, hf.all_operand ihl, hword, hf.all_operand ihr]
    rfl
  | negation e ih =>
    rw [Expr.pieces, List.all_cons, List.all_cons, hf.word "NOT" (by decide), hf.other .space rfl,
      hf.all_operand ih]
    rfl

end HoldsOfTests

/-! ## Reading the pieces -/

/-- The pieces without the spaces between them. -/
def solid (ps : List Piece) : List Piece := ps.filter (· != .space)

theorem solid_append (ps qs : List Piece) : solid (ps ++ qs) = solid ps ++ solid qs :=
  List.filter_append ..

theorem solid_parenthesized (ps : List Piece) :
    solid (parenthesized ps) = .sign "(" :: (solid ps ++ [.sign ")"]) := by
  change Piece.sign "(" :: solid (ps ++ [.sign ")"]) = _
  rw [solid_append]
  rfl

theorem solid_between {p : Piece} (hp : p ≠ .space) (ps qs : List Piece) :
    solid (ps ++ between p ++ qs) = solid ps ++ p :: solid qs := by
  have hpiece : solid (between p) = [p] := by simp [solid, between, hp]
  rw [solid_append, solid_append, hpiece, List.append_assoc, List.singleton_append]

namespace Reads
variable {ps qs : List Piece} {t l r : Tree} {op : Connective}

theorem comparison_of_primary (h : Reads .primary ps t) : Reads .comparison ps t := by
  have hbare := Reads.comparison h .bare
  rwa [List.append_nil] at hbare

theorem chain_of_operand (h : Reads (operandForm op) ps t) : Reads (.chain op) ps t := by
  have halone := Reads.chain h .alone
  rwa [List.append_nil] at halone

theorem operand_of_inversion (h : Reads .inversion ps t) : Reads (operandForm op) ps t := by
  cases op with
  | and => exact h
  | or => exact chain_of_operand h

/-- A chain of any connective is a test. -/
theorem test_of_chain (h : Reads (.chain op) ps t) : Reads (.chain .or) ps t := by
  cases op with
  | and => exact chain_of_operand h
  | or => exact h

theorem test_of_primary (h : Reads .primary ps t) : Reads (.chain .or) ps t :=
  chain_of_operand (operand_of_inversion (.positive h.comparison_of_primary))

theorem joined_append {w : Piece} (h : Reads (.joined op l) ps t)
    (hw : IsWord w (connectiveWord op)) (hr : Reads (operandForm op) qs r) :
    Reads (.joined op l) (ps ++ w :: qs) (.binary op t r) := by
  generalize hform : Form.joined op l = f at h
  induction h generalizing l with
  | alone =>
    cases hform
    rw [List.nil_append, ← List.append_nil qs]
    exact .joined hw hr .alone
  | joined hw' hr' _ _ ih =>
    cases hform
    rw [List.cons_append, List.append_assoc]
    exact .joined hw' hr' (ih rfl)
  | _ => cases hform

/-- A chain goes on with one operand more. -/
theorem chain_append {w : Piece} (h : Reads (.chain op) ps l) (hw : IsWord w (connectiveWord op))
    (hr : Reads (operandForm op) qs r) : Reads (.chain op) (ps ++ w :: qs) (.binary op l r) := by
  cases h with
  | chain hl ht =>
    rw [List.append_assoc]
    exact .chain hl (ht.joined_append hw hr)

end Reads

theorem reads_term (t : Term) : Reads .primary (solid t.pieces) t.tree := by
  induction t with
  | column t c => exact .column
  | bound v => exact .value
  | lower t ih =>
    have hargument := @Reads.last "LOWER" [] _ _ ih.test_of_primary
    have hcall := Reads.call (by decide) hargument
    rw [← solid_parenthesized] at hcall
    exact hcall
  | ago n =>
    have hliteral (text : String) : Reads (.chain .or) [.literal text] (.literal text) :=
      Reads.test_of_primary .literal
    have hlast := @Reads.last "datetime" [.literal "now"] _ _
      (hliteral ("-" ++ toString n ++ " seconds"))
    have hboth := @Reads.more "datetime" [] _ _ _ _ (hliteral "now") hlast
    have hcall := Reads.call (by decide) hboth
    exact .group hcall.test_of_primary

/-- The form that a test has without parentheses around it. -/
def Expr.form : Expr → Form
  | .binary op _ _ => .chain op
  | .negation _ => .inversion
  | _ => .comparison

theorem Reads.test_of_form {e : Expr} {ps : List Piece} {t : Tree} (h : Reads e.form ps t) :
    Reads (.chain .or) ps t := by
  cases e with
  | binary op l r => exact h.test_of_chain
  | negation e => exact chain_of_operand (operand_of_inversion h)
  | _ => exact chain_of_operand (operand_of_inversion (.positive h))

theorem reads_parenthesized {e : Expr} (h : Reads e.form (solid e.pieces) e.tree) :
    Reads .inversion (solid (parenthesized e.pieces)) e.tree := by
  rw [solid_parenthesized]
  exact .positive (.comparison_of_primary (.group h.test_of_form))

theorem reads_operand {e : Expr} (h : Reads e.form (solid e.pieces) e.tree) :
    Reads .inversion (solid (if e.isAtom then e.pieces else parenthesized e.pieces)) e.tree := by
  cases e with
  | compare | like => exact .positive h
  | binary | negation => exact reads_parenthesized h

/-- On the left of its own connective, a chain needs no parentheses. -/
theorem reads_left (op : Connective) {e : Expr} (h : Reads e.form (solid e.pieces) e.tree) :
    Reads (.chain op)
      (solid (if e.isAtom || e.connective? == some op then e.pieces else parenthesized e.pieces))
      e.tree := by
  cases hop : e.connective? == some op with
  | true =>
    rw [Bool.or_true, if_pos rfl]
    cases e with
    | binary own l r =>
      have hown : own = op := by simpa [Expr.connective?] using hop
      exact hown ▸ h
    | _ => cases hop
  | false =>
    rw [Bool.or_false]
    exact Reads.chain_of_operand (Reads.operand_of_inversion (reads_operand h))

/-- The pieces of a test read as its tree. -/
theorem reads_expr (e : Expr) : Reads e.form (solid e.pieces) e.tree := by
  induction e with
  | compare op l r =>
    rw [Expr.pieces, solid_between (by exact Piece.noConfusion)]
    exact .comparison (reads_term l) (.compare (reads_term r))
  | like t pattern escaped =>
    rw [Expr.pieces, solid_between (by exact Piece.noConfusion)]
    apply Reads.comparison (reads_term t)
    cases escaped with
    | false => exact .like ⟨"LIKE", rfl, rfl⟩ .value .unescaped
    | true => exact .like ⟨"LIKE", rfl, rfl⟩ .value (.escaped ⟨"ESCAPE", rfl, rfl⟩ .literal)
  | binary op l r ihl ihr =>
    rw [Expr.pieces, solid_between (by exact Piece.noConfusion)]
    have hword : IsWord (.word (connectiveWord op)) (connectiveWord op) :=
      ⟨_, rfl, by cases op <;> rfl⟩
    have hright : Reads (operandForm op) _ r.tree := Reads.operand_of_inversion (reads_operand ihr)
    exact (reads_left op ihl).chain_append hword hright
  | negation e ih =>
    exact .negated ⟨"NOT", rfl, rfl⟩ (reads_operand ih)

end TrafficQuery.Sql
