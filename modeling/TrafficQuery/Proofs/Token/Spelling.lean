import TrafficQuery.Token.Scan

/-!
# The spelling of tokens

Which words stand for which tokens. A string and a word are read as the tokens that they spell, and what
is read at the front of a text is spelled there.
-/

namespace TrafficQuery
open Text

/-! ## Words -/

def signs : List (List Char × Kind) :=
  [(['.'], .dot), (['('], .paren .opening), ([')'], .paren .closing), (['='], .order .eq),
    (['<', '='], .order .le), (['<'], .order .lt), (['>', '='], .order .ge), (['>'], .order .gt)]

/-- The words that spell a token, when a blank follows. -/
inductive Spells : List Char → Kind → Prop
  | sign {w : List Char} {k : Kind} : (w, k) ∈ signs → Spells w k
  | string {q : Char} {text : List Char} : isQuote q = true → q ∉ text →
      Spells (q :: (text ++ [q])) (.string (String.ofList text))
  | word {w : List Char} {k : Kind} : w ≠ [] → (∀ c ∈ w, isWordChar c = true) →
      classify w = .ok k → Spells w k

theorem not_isBlank_of_isWordChar {c : Char} (h : isWordChar c = true) : isBlank c = false := by
  simp only [isWordChar, Bool.and_eq_true, Bool.not_eq_true'] at h
  exact h.1

theorem not_isTerminator_of_isWordChar {c : Char} (h : isWordChar c = true) :
    isTerminator c = false := by
  simp only [isWordChar, Bool.and_eq_true, Bool.not_eq_true'] at h
  exact h.2

theorem not_isQuote_of_isWordChar {c : Char} (h : isWordChar c = true) : isQuote c = false := by
  have ht := not_isTerminator_of_isWordChar h
  simp only [isTerminator, Bool.or_eq_false_iff] at ht
  exact ht.2

theorem sign?_eq_none {c : Char} (h : c ∉ ['.', '(', ')', '=', '<', '>']) (cs : List Char) :
    sign? (c :: cs) = none := by
  unfold sign?
  split <;> simp_all

theorem sign?_eq_none_of_isWordChar {c : Char} (h : isWordChar c = true) (cs : List Char) :
    sign? (c :: cs) = none := by
  apply sign?_eq_none
  intro hc
  have ht := not_isTerminator_of_isWordChar h
  simp only [List.mem_cons, List.not_mem_nil, or_false] at hc
  rcases hc with rfl | rfl | rfl | rfl | rfl | rfl <;> cases ht

theorem sign?_eq_none_of_isQuote {c : Char} (h : isQuote c = true) (cs : List Char) :
    sign? (c :: cs) = none := by
  apply sign?_eq_none
  intro hc
  simp only [List.mem_cons, List.not_mem_nil, or_false] at hc
  rcases hc with rfl | rfl | rfl | rfl | rfl | rfl <;> cases h

/-! ## Reading a word -/

theorem leadingToken_string {q : Char} {text : List Char} (hq : isQuote q = true) (hn : q ∉ text)
    (rest : List Char) : leadingToken (q :: (text ++ q :: rest)) =
      .ok (.string (String.ofList text), text.length + 2) := by
  have htake : (text ++ q :: rest).takeWhile (· != q) = text := by
    rw [List.takeWhile_append_of_pos fun c hc => by
      simpa using fun h : c = q => hn (h ▸ hc)]
    simp
  simp [leadingToken, sign?_eq_none_of_isQuote hq, hq, quotedString, htake]

/-- A text that starts with a word is read as what the word stands for. -/
theorem leadingToken_append {w : List Char} (hne : w ≠ []) (hw : ∀ c ∈ w, isWordChar c = true)
    {rest : List Char} (hrest : ∀ c ∈ rest.head?, isWordChar c = false) :
    leadingToken (w ++ rest) = (classify w).map fun k => (k, w.length) := by
  obtain ⟨c, cs, rfl⟩ := List.exists_cons_of_ne_nil hne
  have hc := hw c List.mem_cons_self
  have htake : (c :: cs ++ rest).takeWhile isWordChar = c :: cs := by
    rw [List.takeWhile_append_of_pos hw]
    cases rest with
    | nil => simp
    | cons d ds => simp [hrest d rfl]
  have hsign := sign?_eq_none_of_isWordChar hc (cs ++ rest)
  have hword : leadingToken (c :: cs ++ rest) = leadingWord (c :: cs ++ rest) := by
    simp [leadingToken, hsign, not_isQuote_of_isWordChar hc]
  rw [hword, leadingWord, htake]

theorem leadingToken_word {w : List Char} {k : Kind} (hne : w ≠ [])
    (hw : ∀ c ∈ w, isWordChar c = true) (hk : classify w = .ok k) {rest : List Char}
    (hrest : ∀ c ∈ rest.head?, isWordChar c = false) :
    leadingToken (w ++ rest) = .ok (k, w.length) := by
  rw [leadingToken_append hne hw hrest, hk]
  rfl

/-- A word does not start with a blank. -/
theorem Spells.exists_cons {w : List Char} {k : Kind} (h : Spells w k) :
    ∃ c cs, w = c :: cs ∧ isBlank c = false := by
  cases h with
  | sign hmem =>
    simp only [signs, List.mem_cons, Prod.mk.injEq, List.not_mem_nil, or_false] at hmem
    rcases hmem with ⟨rfl, rfl⟩ | ⟨rfl, rfl⟩ | ⟨rfl, rfl⟩ | ⟨rfl, rfl⟩ | ⟨rfl, rfl⟩ | ⟨rfl, rfl⟩ |
      ⟨rfl, rfl⟩ | ⟨rfl, rfl⟩ <;> exact ⟨_, _, rfl, rfl⟩
  | @string q text hq hn =>
    refine ⟨q, _, rfl, ?_⟩
    simp only [isQuote, Bool.or_eq_true, beq_iff_eq] at hq
    rcases hq with rfl | rfl <;> rfl
  | word hne hw hk =>
    obtain ⟨c, cs, rfl⟩ := List.exists_cons_of_ne_nil hne
    exact ⟨c, cs, rfl, not_isBlank_of_isWordChar (hw c List.mem_cons_self)⟩

theorem mem_signs_of_sign? {cs : List Char} {k : Kind} {n : Nat} (h : sign? cs = some (k, n)) :
    (cs.take n, k) ∈ signs := by
  unfold sign? at h
  split at h <;> cases h <;> simp [signs]

theorem quotedString_eq_ok {q : Char} {body : List Char} {k : Kind} {n : Nat}
    (h : quotedString q body = .ok (k, n)) : ∃ text rest, body = text ++ q :: rest ∧ q ∉ text ∧
      k = .string (String.ofList text) ∧ n = text.length + 2 := by
  simp only [quotedString] at h
  split at h
  case isFalse => cases h
  case isTrue hlt =>
    obtain ⟨rfl, rfl⟩ := Prod.mk.inj (Except.ok.inj h)
    have hbody := List.takeWhile_append_dropWhile (p := (· != q)) (l := body)
    cases hd : body.dropWhile (· != q) with
    | nil =>
      rw [hd, List.append_nil] at hbody
      rw [hbody] at hlt
      exact absurd hlt (Nat.lt_irrefl _)
    | cons d rest =>
      have hhead := List.head?_dropWhile_not (· != q) body
      obtain rfl : d = q := by simpa [hd] using hhead
      refine ⟨_, rest, by rw [← hd, hbody], ?_, rfl, rfl⟩
      intro hmem
      have hne := List.all_eq_true.mp List.all_takeWhile _ hmem
      simp at hne

/-- What is read at the front of a text is spelled there. -/
theorem spells_of_leadingToken {c : Char} {cs : List Char} {k : Kind} {n : Nat}
    (hb : isBlank c = false) (h : leadingToken (c :: cs) = .ok (k, n)) :
    Spells ((c :: cs).take n) k := by
  cases hs : sign? (c :: cs) with
  | some sign =>
    simp only [TrafficQuery.leadingToken, hs, Except.ok.injEq] at h
    exact .sign (mem_signs_of_sign? (h ▸ hs))
  | none =>
    simp only [TrafficQuery.leadingToken, hs] at h
    by_cases hq : isQuote c = true
    · rw [if_pos hq] at h
      obtain ⟨text, rest, rfl, hn, rfl, rfl⟩ := quotedString_eq_ok h
      have htake : (c :: (text ++ c :: rest)).take (text.length + 2) = c :: (text ++ [c]) := by
        simp [List.take_append, List.take_of_length_le (Nat.le_succ text.length)]
      rw [htake]
      exact .string hq hn
    · rw [if_neg hq] at h
      obtain ⟨hk, rfl⟩ := leadingWord_eq_ok h
      have hc := isWordChar_of_no_sign hb hs (by simpa using hq)
      have htake := List.prefix_iff_eq_take.mp (List.takeWhile_prefix (l := c :: cs) isWordChar)
      rw [← htake]
      exact .word (by simp [hc]) (List.all_eq_true.mp List.all_takeWhile) hk

end TrafficQuery
