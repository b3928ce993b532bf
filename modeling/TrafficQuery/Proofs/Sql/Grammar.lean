import TrafficQuery.Sql.Layout
import TrafficQuery.Text.Letter

/-!
# The grammar of tests on rows

Comparisons and pattern tests bind tightest, then negation, then `AND`, then `OR`, and a chain of one
connective is joined from the left. The pieces of a test have no more than one reading.
-/

namespace TrafficQuery.Sql

/-- What a text says, whatever parentheses it says it with. -/
inductive Tree
  | column (table column : String)
  | value (value : Value)
  | literal (text : String)
  | call (function : String) (arguments : List Tree)
  | compare (op : OrderOp) (left right : Tree)
  | like (term pattern : Tree) (escape : Option Tree)
  | binary (op : Connective) (left right : Tree)
  | negation (inner : Tree)

/-- A word in any case of its letters. -/
def IsWord (p : Piece) (word : String) : Prop := ∃ s, p = .word s ∧ Text.upper s = word

theorem IsWord.eq {p : Piece} {v w : String} (h : IsWord p v) (h' : IsWord p w) : v = w := by
  obtain ⟨s, rfl, rfl⟩ := h
  obtain ⟨t, heq, rfl⟩ := h'
  rw [Piece.word.inj heq]

theorem IsWord.ne_sign {p : Piece} {w : String} (h : IsWord p w) (s : String) : p ≠ .sign s := by
  obtain ⟨t, rfl, -⟩ := h
  exact Piece.noConfusion

/-- The words that name no function. -/
def reservedWords : List String :=
  ["AND", "AS", "BY", "DESC", "DISTINCT", "ESCAPE", "FROM", "INNER", "JOIN", "LIKE", "NOT", "ON",
    "OR", "ORDER", "SELECT", "WHERE"]

/-- What is read: a chain of one connective, what follows the left part of one, and so on to what binds
tightest. A chain of `OR` is any test. -/
inductive Form
  | chain (op : Connective)
  | joined (op : Connective) (left : Tree)
  | inversion
  | comparison
  | compared (left : Tree)
  | escaped (term pattern : Tree)
  | primary
  | arguments (function : String) (before : List Tree)

/-- The operands of a chain bind tighter than it. -/
def operandForm : Connective → Form
  | .or => .chain .and
  | .and => .inversion

inductive Reads : Form → List Piece → Tree → Prop
  | chain {op : Connective} {ps qs : List Piece} {l t : Tree} :
      Reads (operandForm op) ps l → Reads (.joined op l) qs t → Reads (.chain op) (ps ++ qs) t
  | alone {op : Connective} {l : Tree} : Reads (.joined op l) [] l
  | joined {op : Connective} {w : Piece} {ps qs : List Piece} {l r t : Tree} :
      IsWord w (connectiveWord op) → Reads (operandForm op) ps r →
      Reads (.joined op (.binary op l r)) qs t → Reads (.joined op l) (w :: (ps ++ qs)) t
  | negated {w : Piece} {ps : List Piece} {t : Tree} :
      IsWord w "NOT" → Reads .inversion ps t → Reads .inversion (w :: ps) (.negation t)
  | positive {ps : List Piece} {t : Tree} : Reads .comparison ps t → Reads .inversion ps t
  | comparison {ps qs : List Piece} {l t : Tree} :
      Reads .primary ps l → Reads (.compared l) qs t → Reads .comparison (ps ++ qs) t
  | bare {l : Tree} : Reads (.compared l) [] l
  | compare {op : OrderOp} {ps : List Piece} {l r : Tree} :
      Reads .primary ps r → Reads (.compared l) (.sign op.symbol :: ps) (.compare op l r)
  | like {w : Piece} {ps qs : List Piece} {l p t : Tree} :
      IsWord w "LIKE" → Reads .primary ps p → Reads (.escaped l p) qs t →
      Reads (.compared l) (w :: (ps ++ qs)) t
  | unescaped {l p : Tree} : Reads (.escaped l p) [] (.like l p none)
  | escaped {w : Piece} {ps : List Piece} {l p e : Tree} :
      IsWord w "ESCAPE" → Reads .primary ps e → Reads (.escaped l p) (w :: ps) (.like l p (some e))
  | column {table column : String} :
      Reads .primary [.name table, .sign ".", .name column] (.column table column)
  | value {v : Value} : Reads .primary [.bound v] (.value v)
  | literal {text : String} : Reads .primary [.literal text] (.literal text)
  | group {ps : List Piece} {t : Tree} :
      Reads (.chain .or) ps t → Reads .primary (.sign "(" :: (ps ++ [.sign ")"])) t
  | call {f : String} {ps : List Piece} {t : Tree} :
      Text.upper f ∉ reservedWords → Reads (.arguments f []) ps t →
      Reads .primary (.word f :: .sign "(" :: ps) t
  | last {f : String} {before : List Tree} {ps : List Piece} {t : Tree} :
      Reads (.chain .or) ps t → Reads (.arguments f before) (ps ++ [.sign ")"]) (.call f (before ++ [t]))
  | more {f : String} {before : List Tree} {ps qs : List Piece} {t u : Tree} :
      Reads (.chain .or) ps t → Reads (.arguments f (before ++ [t])) qs u →
      Reads (.arguments f before) (ps ++ .sign "," :: qs) u

/-! ## Where a reading stops -/

def isOrderSign (s : String) : Bool := ["=", ">", ">=", "<", "<="].contains s

/-- How tightly a piece binds what stands before it to what stands behind it. -/
def binding : Piece → Nat
  | .word s =>
    if Text.upper s = "OR" then 1
    else if Text.upper s = "AND" then 2
    else if Text.upper s = "LIKE" ∨ Text.upper s = "ESCAPE" then 3
    else 0
  | .sign s => if isOrderSign s then 3 else 0
  | _ => 0

def Connective.level : Connective → Nat
  | .or => 1
  | .and => 2

/-- A form goes on over pieces that bind at least as tightly. -/
def Form.level : Form → Nat
  | .chain op => Connective.level op
  | .joined op _ => Connective.level op
  | .primary => 4
  | .arguments .. => 4
  | _ => 3

/-- Behind a form, nothing stands that it goes on over. -/
def Stops (f : Form) (ps : List Piece) : Prop := ∀ p ∈ ps.head?, binding p < f.level

theorem binding_connectiveWord {w : Piece} {op : Connective} (h : IsWord w (connectiveWord op)) :
    binding w = Connective.level op := by
  obtain ⟨s, rfl, hs⟩ := h
  cases op <;> simp [binding, hs, connectiveWord, Connective.level]

theorem binding_symbol (op : OrderOp) : binding (.sign op.symbol) = 3 := by cases op <;> rfl

theorem binding_of_isWord {w : Piece} (h : IsWord w "LIKE" ∨ IsWord w "ESCAPE") : binding w = 3 := by
  rcases h with ⟨s, rfl, hs⟩ | ⟨s, rfl, hs⟩ <;> simp [binding, hs]

theorem level_operandForm (op : Connective) : (operandForm op).level = Connective.level op + 1 := by
  cases op <;> rfl

theorem Stops.mono {f g : Form} {ps : List Piece} (h : Stops f ps) (hle : f.level ≤ g.level) :
    Stops g ps :=
  fun p hp => Nat.lt_of_lt_of_le (h p hp) hle

/-- A form does not stop before a piece that it goes on over. -/
theorem not_stops_of_eq {f : Form} {p : Piece} {ps rest rest' : List Piece}
    (heq : [] ++ rest = p :: ps ++ rest') (h : binding p = f.level) : ¬Stops f rest := by
  intro hstops
  rw [List.nil_append, List.cons_append] at heq
  rw [heq] at hstops
  exact Nat.ne_of_lt (hstops p rfl) h

theorem cons_append_inj {p q : Piece} {ps qs rest rest' : List Piece}
    (h : p :: ps ++ rest = q :: qs ++ rest') : p = q ∧ ps ++ rest = qs ++ rest' :=
  List.cons.inj h

theorem binding_le_three (p : Piece) : binding p ≤ 3 := by
  cases p with
  | word s =>
    rw [binding]
    split
    · exact Nat.le_of_ble_eq_true rfl
    split
    · exact Nat.le_of_ble_eq_true rfl
    split
    · exact Nat.le_refl _
    · exact Nat.zero_le _
  | sign s =>
    rw [binding]
    split
    · exact Nat.le_refl _
    · exact Nat.zero_le _
  | _ => exact Nat.zero_le _

theorem stops_primary (ps : List Piece) : Stops .primary ps :=
  fun p _ => Nat.lt_succ_of_le (binding_le_three p)

theorem stops_paren (ps : List Piece) : Stops (.chain .or) (.sign ")" :: ps) := by
  intro p hp
  cases hp
  decide

theorem stops_comma (ps : List Piece) : Stops (.chain .or) (.sign "," :: ps) := by
  intro p hp
  cases hp
  decide

/-- A test ends before a word that no test goes on with. -/
theorem stops_isWord {p : Piece} {w : String} (h : IsWord p w)
    (hw : w ≠ "OR" ∧ w ≠ "AND" ∧ ¬(w = "LIKE" ∨ w = "ESCAPE")) (ps : List Piece) :
    Stops (.chain .or) (p :: ps) := by
  intro q hq
  cases hq
  obtain ⟨s, rfl, rfl⟩ := h
  rw [binding, if_neg hw.1, if_neg hw.2.1, if_neg hw.2.2]
  exact Nat.one_pos

/-- An operand ends where its chain goes on or ends. -/
theorem Reads.stops_operand {op : Connective} {l t : Tree} {ps rest : List Piece}
    (h : Reads (.joined op l) ps t) (hrest : Stops (.chain op) rest) :
    Stops (operandForm op) (ps ++ rest) := by
  have hlevel := level_operandForm op
  cases h with
  | alone => exact hrest.mono (by rw [hlevel]; exact Nat.le_succ _)
  | joined hw _ _ =>
    intro p hp
    cases hp
    rw [binding_connectiveWord hw, hlevel]
    exact Nat.lt_succ_self _

/-! ## One reading -/

/-- A primary starts with a piece that is no word of the grammar. -/
theorem Reads.primary_head {ps : List Piece} {t : Tree} (h : Reads .primary ps t) :
    ∃ p qs, ps = p :: qs ∧ ¬IsWord p "NOT" := by
  cases h with
  | @call f ps t hf _ =>
    refine ⟨_, _, rfl, ?_⟩
    rintro ⟨s, heq, hs⟩
    cases heq
    rw [hs] at hf
    exact hf (by decide)
  | _ =>
    refine ⟨_, _, rfl, ?_⟩
    rintro ⟨s, heq, -⟩
    cases heq

theorem Reads.comparison_head {ps : List Piece} {t : Tree} (h : Reads .comparison ps t) :
    ∃ p qs, ps = p :: qs ∧ ¬IsWord p "NOT" := by
  cases h with
  | comparison hl _ =>
    obtain ⟨p, qs, rfl, hp⟩ := hl.primary_head
    exact ⟨p, _, rfl, hp⟩

/-- Whatever is read as a form from the same pieces, and stops, is the same and leaves the same. -/
def Settled (f : Form) (ps : List Piece) (t : Tree) : Prop :=
  ∀ ⦃qs rest rest' : List Piece⦄ ⦃u : Tree⦄, Reads f qs u → ps ++ rest = qs ++ rest' →
    Stops f rest → Stops f rest' → t = u ∧ rest = rest'

/-- The first part of a form is settled before what follows it. -/
theorem Settled.first {f : Form} {ps ps' qs qs' rest rest' : List Piece} {l l' : Tree}
    (h : Settled f ps l) (h' : Reads f ps' l') (heq : ps ++ qs ++ rest = ps' ++ qs' ++ rest')
    (hstops : Stops f (qs ++ rest)) (hstops' : Stops f (qs' ++ rest')) :
    l = l' ∧ qs ++ rest = qs' ++ rest' := by
  rw [List.append_assoc, List.append_assoc] at heq
  exact h h' heq hstops hstops'

/-- The pieces of a form have one reading. -/
theorem Reads.settled {f : Form} {ps : List Piece} {t : Tree} (h : Reads f ps t) :
    Settled f ps t := by
  -- A first part leaves the same to both readings, so what follows it is settled in its turn. Where one
  -- reading ends and the other goes on, the piece it goes on over is one that the first cannot end at.
  induction h with
  | @chain op ps qs l t hl ht ihl iht =>
    intro qs' rest rest' u h' heq hrest hrest'
    cases h' with
    | chain hl' ht' =>
      obtain ⟨rfl, heq⟩ := ihl.first hl' heq (ht.stops_operand hrest) (ht'.stops_operand hrest')
      exact iht ht' heq hrest hrest'
  | alone =>
    intro qs' rest rest' u h' heq hrest hrest'
    cases h' with
    | alone => exact ⟨rfl, heq⟩
    | joined hw _ _ =>
      exact absurd hrest (not_stops_of_eq heq (binding_connectiveWord hw))
  | @joined op w ps qs l r t hw hr ht ihr iht =>
    intro qs' rest rest' u h' heq hrest hrest'
    cases h' with
    | alone =>
      exact absurd hrest' (not_stops_of_eq heq.symm (binding_connectiveWord hw))
    | joined hw' hr' ht' =>
      obtain ⟨rfl, heq⟩ := ihr.first hr' (cons_append_inj heq).2 (ht.stops_operand hrest)
        (ht'.stops_operand hrest')
      exact iht ht' heq hrest hrest'
  | negated hw ht ih =>
    intro qs' rest rest' u h' heq hrest hrest'
    cases h' with
    | negated hw' ht' =>
      obtain ⟨rfl, heq⟩ := ih ht' (cons_append_inj heq).2 hrest hrest'
      exact ⟨rfl, heq⟩
    | positive ht' =>
      obtain ⟨p, qs, rfl, hp⟩ := ht'.comparison_head
      exact absurd ((cons_append_inj heq).1 ▸ hw) hp
  | positive ht ih =>
    intro qs' rest rest' u h' heq hrest hrest'
    cases h' with
    | negated hw' ht' =>
      obtain ⟨p, qs, rfl, hp⟩ := ht.comparison_head
      exact absurd ((cons_append_inj heq).1 ▸ hw') hp
    | positive ht' => exact ih ht' heq hrest hrest'
  | comparison hl ht ihl iht =>
    intro qs' rest rest' u h' heq hrest hrest'
    cases h' with
    | comparison hl' ht' =>
      obtain ⟨rfl, heq⟩ := ihl.first hl' heq (stops_primary _) (stops_primary _)
      exact iht ht' heq hrest hrest'
  | bare =>
    intro qs' rest rest' u h' heq hrest hrest'
    cases h' with
    | bare => exact ⟨rfl, heq⟩
    | @compare op _ _ _ _ =>
      exact absurd hrest (not_stops_of_eq heq (binding_symbol op))
    | like hw _ _ =>
      exact absurd hrest (not_stops_of_eq heq (binding_of_isWord (.inl hw)))
  | @compare op ps l r hr ih =>
    intro qs' rest rest' u h' heq hrest hrest'
    cases h' with
    | bare =>
      exact absurd hrest' (not_stops_of_eq heq.symm (binding_symbol op))
    | @compare op' _ _ _ hr' =>
      obtain ⟨hsign, heq⟩ := cons_append_inj heq
      have hop : op = op' := by
        have hsymbol := Piece.sign.inj hsign
        revert hsymbol
        cases op <;> cases op' <;> decide
      obtain ⟨rfl, heq⟩ := ih hr' heq (stops_primary _) (stops_primary _)
      exact ⟨by rw [hop], heq⟩
    | like hw _ _ =>
      obtain ⟨s, rfl, -⟩ := hw
      cases (cons_append_inj heq).1
  | @like w ps qs l p t hw hp ht ihp iht =>
    intro qs' rest rest' u h' heq hrest hrest'
    cases h' with
    | bare =>
      exact absurd hrest' (not_stops_of_eq heq.symm (binding_of_isWord (.inl hw)))
    | compare _ =>
      obtain ⟨s, rfl, -⟩ := hw
      cases (cons_append_inj heq).1
    | like hw' hp' ht' =>
      obtain ⟨rfl, heq⟩ :=
        ihp.first hp' (cons_append_inj heq).2 (stops_primary _) (stops_primary _)
      exact iht ht' heq hrest hrest'
  | unescaped =>
    intro qs' rest rest' u h' heq hrest hrest'
    cases h' with
    | unescaped => exact ⟨rfl, heq⟩
    | escaped hw _ =>
      exact absurd hrest (not_stops_of_eq heq (binding_of_isWord (.inr hw)))
  | escaped hw he ih =>
    intro qs' rest rest' u h' heq hrest hrest'
    cases h' with
    | unescaped =>
      exact absurd hrest' (not_stops_of_eq heq.symm (binding_of_isWord (.inr hw)))
    | escaped hw' he' =>
      obtain ⟨rfl, heq⟩ := ih he' (cons_append_inj heq).2 (stops_primary _) (stops_primary _)
      exact ⟨rfl, heq⟩
  | column =>
    intro qs' rest rest' u h' heq hrest hrest'
    cases h' <;> cases heq
    exact ⟨rfl, rfl⟩
  | value =>
    intro qs' rest rest' u h' heq hrest hrest'
    cases h' <;> cases heq
    exact ⟨rfl, rfl⟩
  | literal =>
    intro qs' rest rest' u h' heq hrest hrest'
    cases h' <;> cases heq
    exact ⟨rfl, rfl⟩
  | group ht ih =>
    intro qs' rest rest' u h' heq hrest hrest'
    cases h' with
    | group ht' =>
      obtain ⟨rfl, heq⟩ := ih.first ht' (cons_append_inj heq).2 (stops_paren _) (stops_paren _)
      exact ⟨rfl, (List.cons.inj heq).2⟩
    | _ => cases (cons_append_inj heq).1
  | call hf ht ih =>
    intro qs' rest rest' u h' heq hrest hrest'
    cases h' with
    | call hf' ht' =>
      obtain ⟨hword, htail⟩ := cons_append_inj heq
      obtain rfl := Piece.word.inj hword
      exact ih ht' (cons_append_inj htail).2 hrest hrest'
    | _ => cases (cons_append_inj heq).1
  | last ht ih =>
    intro qs' rest rest' u h' heq hrest hrest'
    cases h' with
    | last ht' =>
      obtain ⟨rfl, heq⟩ := ih.first ht' heq (stops_paren _) (stops_paren _)
      exact ⟨rfl, (List.cons.inj heq).2⟩
    | more ht' _ =>
      obtain ⟨-, heq⟩ := ih.first ht' heq (stops_paren _) (stops_comma _)
      exact absurd (List.cons.inj heq).1 (by decide)
  | more ht hu iht ihu =>
    intro qs' rest rest' u h' heq hrest hrest'
    cases h' with
    | last ht' =>
      obtain ⟨-, heq⟩ := iht.first ht' heq (stops_comma _) (stops_paren _)
      exact absurd (List.cons.inj heq).1 (by decide)
    | more ht' hu' =>
      obtain ⟨rfl, heq⟩ := iht.first ht' heq (stops_comma _) (stops_comma _)
      exact ihu hu' (List.cons.inj heq).2 hrest hrest'

end TrafficQuery.Sql
