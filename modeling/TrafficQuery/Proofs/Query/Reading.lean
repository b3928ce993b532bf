import TrafficQuery.Query.Reading
import TrafficQuery.Proofs.Outcome
import TrafficQuery.Proofs.Query.Clause

/-!
# Reading accepts exactly the queries

Tokens are taken one by one. A derivation says which tokens lead from a place in a chain to the place
behind a phrase, and whenever the reading ends well, its tokens start with such a phrase. Together a
text is read to a condition if and only if its tokens derive the condition within the levels that may
be open at once.
-/

namespace TrafficQuery
open Grammar

namespace Reading

/-! ## Steps -/

variable {p p' : Reading} {t : Token} {ts us vs : List Token} {c : Condition}

/-- The last connective of the innermost chain. -/
def before (p : Reading) : Option Connective := p.chain.head?.map Prod.snd

theorem switchLevel_before (p : Reading) (op : Connective) :
    switchLevel p.before op = if p.switches op then 1 else 0 := by
  rcases p with ⟨groups, _ | ⟨⟨x, last⟩, chain⟩, depth, place⟩
  · rfl
  · by_cases h : last = op <;> simp [before, switchLevel, switches, h]

theorem descend_eq_ok_iff : p.descend t = .ok p' ↔
    p.depth < maxNesting ∧ p' = { p with depth := p.depth + 1 } := by
  unfold descend
  split
  case isTrue h => simp [h, eq_comm]
  case isFalse h => simp [h]

theorem openGroup_eq_ok_iff {n : Nat} : p.openGroup n t = .ok p' ↔
    p.depth < maxNesting ∧
      p' = ⟨⟨p.chain, n, p.depth⟩ :: p.groups, [], p.depth + 1, .operand 0⟩ := by
  simp only [openGroup, bind_eq_ok_iff, descend_eq_ok_iff, pure, Except.pure, Except.ok.injEq]
  constructor
  · rintro ⟨_, ⟨hd, rfl⟩, rfl⟩
    exact ⟨hd, rfl⟩
  · rintro ⟨hd, rfl⟩
    exact ⟨_, ⟨hd, rfl⟩, rfl⟩

theorem extend_eq_ok_iff {x : Condition} {op : Connective} : p.extend x op t = .ok p' ↔
    (switchLevel p.before op = 0 ∨ p.depth < maxNesting) ∧
      p' = ⟨p.groups, (x, op) :: p.chain, p.depth + switchLevel p.before op, .operand 0⟩ := by
  rw [switchLevel_before]
  unfold extend
  by_cases hs : p.switches op
  · simp only [if_pos hs, bind_eq_ok_iff, descend_eq_ok_iff, pure, Except.pure, Except.ok.injEq]
    constructor
    · rintro ⟨_, ⟨hd, rfl⟩, rfl⟩
      exact ⟨.inr hd, rfl⟩
    · rintro ⟨h, rfl⟩
      exact ⟨_, ⟨h.resolve_left Nat.one_ne_zero, rfl⟩, rfl⟩
  · simp only [if_neg hs, bind_eq_ok_iff, pure, Except.pure, Except.ok.injEq]
    constructor
    · rintro ⟨_, rfl, rfl⟩
      exact ⟨.inl trivial, rfl⟩
    · rintro ⟨-, rfl⟩
      exact ⟨p, rfl, rfl⟩

theorem closeGroup_eq_ok_iff {x : Condition} : p.closeGroup x t = .ok p' ↔
    ∃ g gs, p.groups = g :: gs ∧
      p' = ⟨gs, g.chain, g.depth, .behind (.negations g.negations (p.chain.close x))⟩ := by
  unfold closeGroup
  cases p.groups with
  | nil => simp [reject]
  | cons g gs =>
    constructor
    · rintro ⟨⟩
      exact ⟨g, gs, rfl, rfl⟩
    · rintro ⟨_, _, ⟨⟩, rfl⟩
      rfl

/-- The place in front of some keywords and the condition behind them. -/
def atKeywords : List Keyword → Place
  | [] => .operand 0
  | word :: others => .keyword word others

theorem step_keyword_iff {word : Keyword} {others : List Keyword}
    (h : p.place = atKeywords (word :: others)) :
    p.step t = .ok p' ↔ t.kind = .keyword word ∧ p' = { p with place := atKeywords others } := by
  unfold step
  rw [h]
  by_cases hk : t.kind = .keyword word
  · cases others <;> simp [atKeywords, hk, eq_comm]
  · simp [atKeywords, hk, reject]

/-- In front of an operand there is a negation, a group or the first word of a field. -/
theorem step_operand_iff {n : Nat} (h : p.place = .operand n) : p.step t = .ok p' ↔
    (t.kind = .not ∧ p' = { p with place := .operand (n + 1) }) ∨
    (t.kind = .paren .opening ∧ p.openGroup n t = .ok p') ∨
    ∃ text, t.kind = .identifier text ∧ p.advance n (.field text t.start) = .ok p' := by
  unfold step
  rw [h]
  cases hk : t.kind with
  | not => simp [eq_comm]
  | paren side => cases side <;> simp [reject]
  | identifier text => simp
  | _ => simp [reject]

theorem step_field_eq {n : Nat} {expected : Expected} {take : Token → Reader Test}
    (h : p.place = .field n expected take) : p.step t = p.advance n (take t) := by
  unfold step
  rw [h]

/-- Behind an operand there is a connective or the end of the group. -/
theorem step_behind_iff {x : Condition} (h : p.place = .behind x) : p.step t = .ok p' ↔
    (∃ op, t.kind = .connective op ∧ p.extend x op t = .ok p') ∨
    (t.kind = .paren .closing ∧ p.closeGroup x t = .ok p') := by
  unfold step
  rw [h]
  cases hk : t.kind with
  | connective op => simp
  | paren side => cases side <;> simp [reject]
  | _ => simp [reject]

/-! ## From derivations to readings -/

theorem negations_negation (n : Nat) (c : Condition) :
    Condition.negations n (.negation c) = .negation (.negations n c) := by
  induction n with
  | zero => rfl
  | succ n ih => rw [Condition.negations, ih, Condition.negations]

/-- The tokens that a reader takes lead behind the test. -/
theorem foldlM_step_of_takes {r : Reader Test} {test : Test} (h : r.Takes ts test) (n : Nat)
    (p : Reading) : ∃ q, p.advance n r = .ok q ∧
      ts.foldlM step q = .ok { p with place := .behind (.negations n (.test test)) } := by
  induction h generalizing p with
  | done => exact ⟨_, rfl, rfl⟩
  | next _ ih =>
    obtain ⟨q, hq, hts⟩ := ih { p with place := .field n _ _ }
    exact ⟨_, rfl, foldlM_cons_eq_ok_iff.mpr ⟨q, (step_field_eq rfl).trans hq, hts⟩⟩

/-- What the tokens of a phrase do to a reading that is in front of it: an operand is left behind
with the negations in front, and a chain with a last operand that closes it to the same condition. -/
def Passes (phrase : Phrase) (ts : List Token) (c : Condition) (depth : Nat) : Prop :=
  match phrase with
  | .operand => ∀ (p : Reading) (n : Nat), p.place = .operand n → p.depth + depth ≤ maxNesting →
      ts.foldlM step p = .ok { p with place := .behind (.negations n c) }
  | .chain before => ∀ p : Reading, p.place = .operand 0 → p.before = before →
      p.depth + depth ≤ maxNesting → ∃ chain d last,
        ts.foldlM step p = .ok ⟨p.groups, chain, d, .behind last⟩ ∧
          chain.close last = p.chain.close c

/-- A field condition leads behind its test, whatever the nesting. -/
theorem foldlM_step_of_isField {test : Test} {n : Nat} (h : IsField ts test)
    (hplace : p.place = .operand n) :
    ts.foldlM step p = .ok { p with place := .behind (.negations n (.test test)) } := by
  obtain ⟨field, mark, us, vs, rfl, hnames, hform⟩ := h
  obtain ⟨f, text, rest, rfl, hk⟩ : ∃ f text rest, us = f :: rest ∧ f.kind = .identifier text := by
    cases hnames with
    | request hname => exact ⟨_, _, _, rfl, hname.choose_spec.1⟩
    | response howner => exact ⟨_, _, _, rfl, howner.choose_spec.1⟩
  have htakes := (Reader.takes_field_iff hk).mpr ⟨field, mark, _, vs, rfl, hnames, hform⟩
  obtain ⟨q, hq, hts⟩ := foldlM_step_of_takes htakes n p
  exact foldlM_cons_eq_ok_iff.mpr ⟨q, (step_operand_iff hplace).mpr (.inr (.inr ⟨text, hk, hq⟩)), hts⟩

theorem passes_field {test : Test} (h : IsField ts test) : Passes .operand ts (.test test) 0 :=
  fun _ _ hplace _ => foldlM_step_of_isField h hplace

theorem passes_negated {depth : Nat} (hk : t.kind = .not) (h : Passes .operand ts c depth) :
    Passes .operand (t :: ts) (.negation c) depth := by
  intro p n hplace hdepth
  refine foldlM_cons_eq_ok_iff.mpr ⟨_, (step_operand_iff hplace).mpr (.inl ⟨hk, rfl⟩), ?_⟩
  rw [negations_negation]
  exact h { p with place := .operand (n + 1) } (n + 1) rfl hdepth

theorem passes_group {e : Token} {depth : Nat} (hk : t.kind = .paren .opening)
    (h : Passes (.chain none) ts c depth) (he : e.kind = .paren .closing) :
    Passes .operand (t :: (ts ++ [e])) c (depth + 1) := by
  intro p n hplace hdepth
  have hopen : p.openGroup n t = .ok _ := openGroup_eq_ok_iff.mpr ⟨by omega, rfl⟩
  refine foldlM_cons_eq_ok_iff.mpr
    ⟨_, (step_operand_iff hplace).mpr (.inr (.inl ⟨hk, hopen⟩)), ?_⟩
  obtain ⟨chain, d, last, hts, hclose⟩ :=
    h ⟨⟨p.chain, n, p.depth⟩ :: p.groups, [], p.depth + 1, .operand 0⟩ rfl rfl
      (by simp only; omega)
  refine foldlM_append_eq_ok_iff.mpr ⟨_, hts, foldlM_cons_eq_ok_iff.mpr
    ⟨_, (step_behind_iff rfl).mpr (.inr ⟨he, closeGroup_eq_ok_iff.mpr ⟨_, _, rfl, rfl⟩⟩), ?_⟩⟩
  rw [hclose]
  rfl

theorem passes_last {before : Option Connective} {depth : Nat} (h : Passes .operand ts c depth) :
    Passes (.chain before) ts c depth := by
  intro p hplace _ hdepth
  exact ⟨p.chain, p.depth, c, h p 0 hplace hdepth, rfl⟩

theorem passes_link {before : Option Connective} {op : Connective} {rest : Condition}
    {depth below : Nat} (h : Passes .operand ts c depth) (hk : t.kind = .connective op)
    (hrest : Passes (.chain (some op)) us rest below) :
    Passes (.chain before) (ts ++ t :: us) (.binary op c rest)
      (max depth (switchLevel before op + below)) := by
  intro p hplace hbefore hdepth
  subst hbefore
  have hlevel : switchLevel p.before op = 0 ∨ p.depth < maxNesting := by omega
  have hts := h p 0 hplace (by omega)
  have hextend : Reading.extend { p with place := .behind c } c op t = .ok _ :=
    extend_eq_ok_iff.mpr ⟨hlevel, rfl⟩
  obtain ⟨chain, d, last, hus, hclose⟩ :=
    hrest ⟨p.groups, (c, op) :: p.chain, p.depth + switchLevel p.before op, .operand 0⟩ rfl rfl
      (by simp only; omega)
  refine ⟨chain, d, last, foldlM_append_eq_ok_iff.mpr ⟨_, hts, foldlM_cons_eq_ok_iff.mpr
    ⟨_, (step_behind_iff rfl).mpr (.inl ⟨op, hk, hextend⟩), hus⟩⟩, hclose⟩

/-- Every phrase is passed, as long as not too many levels are open in it. -/
theorem passes_of_derives {phrase : Phrase} {depth : Nat} (h : Derives phrase ts c depth) :
    Passes phrase ts c depth := by
  induction h with
  | field hfield => exact passes_field hfield
  | negated hk _ ih => exact passes_negated hk ih
  | group hk _ he ih => exact passes_group hk ih he
  | last _ ih => exact passes_last ih
  | link _ hk _ ih ihrest => exact passes_link ih hk ihrest

/-! ## From readings to derivations -/

/-- The tokens are a good end of the reading, which leaves a condition. -/
def Ends (p : Reading) (ts : List Token) (c : Condition) : Prop :=
  ∃ p', ts.foldlM step p = .ok p' ∧ p'.finish = .ok c

theorem finish_eq_ok_iff : p.finish = .ok c ↔
    ∃ last, p.place = .behind last ∧ p.groups = [] ∧ c = p.chain.close last := by
  unfold finish
  cases p.place with
  | behind last =>
    cases p.groups with
    | nil => simp [eq_comm]
    | cons g gs => simp
  | _ => simp

theorem ends_nil_iff : p.Ends [] c ↔ p.finish = .ok c := by
  constructor
  · rintro ⟨_, ⟨⟩, h⟩
    exact h
  · intro h
    exact ⟨p, rfl, h⟩

theorem ends_cons_iff : p.Ends (t :: ts) c ↔ ∃ q, p.step t = .ok q ∧ q.Ends ts c := by
  constructor
  · rintro ⟨p', hts, h⟩
    obtain ⟨q, hq, hts⟩ := foldlM_cons_eq_ok_iff.mp hts
    exact ⟨q, hq, p', hts, h⟩
  · rintro ⟨q, hq, p', hts, h⟩
    exact ⟨p', foldlM_cons_eq_ok_iff.mpr ⟨q, hq, hts⟩, h⟩

/-- A reader that leads to a good end has taken the first tokens. -/
theorem Ends.exists_takes {n : Nat} {r : Reader Test} {q : Reading} (hq : p.advance n r = .ok q)
    (h : q.Ends ts c) : ∃ us vs test, ts = us ++ vs ∧ r.Takes us test ∧
      Ends { p with place := .behind (.negations n (.test test)) } vs c := by
  induction r generalizing p q ts with
  | done test =>
    obtain rfl := Except.ok.inj hq
    exact ⟨[], ts, test, rfl, .done, h⟩
  | fail e => cases hq
  | next expected take ih =>
    obtain rfl := Except.ok.inj hq
    cases ts with
    | nil =>
      obtain ⟨last, hplace, -⟩ := finish_eq_ok_iff.mp (ends_nil_iff.mp h)
      cases hplace
    | cons t ts =>
      obtain ⟨q, hq, h⟩ := ends_cons_iff.mp h
      obtain ⟨us, vs, test, rfl, htakes, h⟩ := ih t ((step_field_eq rfl).symm.trans hq) h
      exact ⟨t :: us, vs, test, rfl, .next htakes, h⟩

/-- What is known of tokens that are a good end in front of a phrase: they start with such a phrase,
and the others are a good end behind it. Behind a chain they start with what closes a group. -/
def Starts (phrase : Phrase) (ts : List Token) : Prop :=
  match phrase with
  | .operand => ∀ (p : Reading) (n : Nat) (c : Condition), p.place = .operand n →
      p.depth ≤ maxNesting → p.Ends ts c → ∃ us vs x depth, ts = us ++ vs ∧ us ≠ [] ∧
        Derives .operand us x depth ∧ p.depth + depth ≤ maxNesting ∧
        Ends { p with place := .behind (.negations n x) } vs c
  | .chain before => ∀ (p : Reading) (c : Condition), p.place = .operand 0 → p.before = before →
      p.depth ≤ maxNesting → p.Ends ts c → ∃ us vs x depth chain d last, ts = us ++ vs ∧
        Derives (.chain before) us x depth ∧ p.depth + depth ≤ maxNesting ∧
        chain.close last = p.chain.close x ∧ (∀ t ∈ vs.head?, t.kind = .paren .closing) ∧
        Ends ⟨p.groups, chain, d, .behind last⟩ vs c

theorem starts_operand_of_shorter
    (hoperand : ∀ us : List Token, us.length < ts.length → Starts .operand us)
    (hchain : ∀ us : List Token, us.length < ts.length → Starts (.chain none) us) :
    Starts .operand ts := by
  intro p n c hplace hdepth h
  cases ts with
  | nil =>
    obtain ⟨last, hbehind, -⟩ := finish_eq_ok_iff.mp (ends_nil_iff.mp h)
    rw [hplace] at hbehind
    cases hbehind
  | cons t ts =>
    obtain ⟨q, hq, h⟩ := ends_cons_iff.mp h
    rcases (step_operand_iff hplace).mp hq with ⟨hk, rfl⟩ | ⟨hk, hopen⟩ | ⟨text, hk, hq⟩
    · obtain ⟨us, vs, x, depth, rfl, -, hx, hle, h⟩ :=
        hoperand ts (by simp) { p with place := .operand (n + 1) } (n + 1) c rfl hdepth h
      refine ⟨t :: us, vs, .negation x, depth, rfl, by simp, .negated hk hx, hle, ?_⟩
      rw [negations_negation]
      exact h
    · obtain ⟨hlt, rfl⟩ := openGroup_eq_ok_iff.mp hopen
      obtain ⟨us, vs, x, depth, chain, d, last, rfl, hx, hle, hclose, hvs, h⟩ :=
        hchain ts (by simp) ⟨⟨p.chain, n, p.depth⟩ :: p.groups, [], p.depth + 1, .operand 0⟩ c
          rfl rfl hlt h
      cases vs with
      | nil =>
        obtain ⟨_, -, hgroups, -⟩ := finish_eq_ok_iff.mp (ends_nil_iff.mp h)
        cases hgroups
      | cons e vs =>
        have he : e.kind = .paren .closing := hvs e rfl
        obtain ⟨q, hq, h⟩ := ends_cons_iff.mp h
        rcases (step_behind_iff rfl).mp hq with ⟨op, hop, -⟩ | ⟨-, hq⟩
        · rw [he] at hop
          cases hop
        · obtain ⟨_, _, ⟨⟩, rfl⟩ := closeGroup_eq_ok_iff.mp hq
          refine ⟨t :: (us ++ [e]), vs, x, depth + 1, by simp, by simp, .group hk hx he, ?_, ?_⟩
          · simp only at hle
            omega
          · rw [hclose] at h
            exact h
    · obtain ⟨us, vs, test, rfl, htakes, h⟩ := h.exists_takes hq
      exact ⟨t :: us, vs, .test test, 0, rfl, by simp, .field ((Reader.takes_field_iff hk).mp htakes),
        hdepth, h⟩

theorem starts_chain_of_shorter {before : Option Connective} (hoperand : Starts .operand ts)
    (hchain : ∀ (us : List Token) (op : Connective), us.length < ts.length →
      Starts (.chain (some op)) us) :
    Starts (.chain before) ts := by
  intro p c hplace hbefore hdepth h
  obtain ⟨us, vs, x, depth, rfl, hne, hx, hle, h⟩ := hoperand p 0 c hplace hdepth h
  cases vs with
  | nil =>
    exact ⟨us, [], x, depth, p.chain, p.depth, x, rfl, .last hx, hle, rfl, by simp, h⟩
  | cons t vs =>
    obtain ⟨q, hq, h'⟩ := ends_cons_iff.mp h
    rcases (step_behind_iff rfl).mp hq with ⟨op, hk, hextend⟩ | ⟨hk, -⟩
    · obtain ⟨hlevel, rfl⟩ := extend_eq_ok_iff.mp hextend
      have hq : ({ p with place := .behind (.negations 0 x) } : Reading).before = before := hbefore
      rw [hq] at hlevel h'
      have hone : switchLevel before op ≤ 1 := by unfold switchLevel; split <;> omega
      obtain ⟨ws, vs, rest, below, chain, d, last, rfl, hrest, hbelow, hclose, hvs, h'⟩ :=
        hchain vs op (by simp; omega) _ c rfl rfl (by simp only at hlevel ⊢; omega) h'
      refine ⟨us ++ t :: ws, vs, .binary op x rest, max depth (switchLevel before op + below), chain,
        d, last, by simp, .link hx hk hrest, ?_, hclose, hvs, h'⟩
      simp only at hbelow
      omega
    · exact ⟨us, t :: vs, x, depth, p.chain, p.depth, x, rfl, .last hx, hle, rfl, by simpa using hk,
        h⟩

/-- Tokens that are a good end in front of a phrase start with such a phrase. -/
theorem starts (phrase : Phrase) (ts : List Token) : Starts phrase ts := by
  -- An operand is read before the rest of its chain, so it is shown for the tokens of a length first.
  have main (n : Nat) : ∀ us : List Token, us.length = n →
      Starts .operand us ∧ ∀ before, Starts (.chain before) us := by
    induction n using Nat.strongRecOn with
    | ind n ih =>
      intro us hn
      have hoperand : Starts .operand us := starts_operand_of_shorter
        (fun vs hvs => (ih vs.length (hn ▸ hvs) vs rfl).1)
        (fun vs hvs => (ih vs.length (hn ▸ hvs) vs rfl).2 none)
      exact ⟨hoperand, fun before => starts_chain_of_shorter hoperand
        fun vs op hvs => (ih vs.length (hn ▸ hvs) vs rfl).2 (some op)⟩
  cases phrase with
  | operand => exact (main ts.length ts rfl).1
  | chain before => exact (main ts.length ts rfl).2 before

end Reading
end TrafficQuery
