import TrafficQuery.Token.Word

namespace TrafficQuery
open Text

def isQuote (c : Char) : Bool := c == '"' || c == '\''

/-- The characters that end a word and are no part of it. -/
def isTerminator (c : Char) : Bool :=
  c == '.' || c == '(' || c == ')' || c == '=' || c == '<' || c == '>' || isQuote c

def isWordChar (c : Char) : Bool := !isBlank c && !isTerminator c

/-- The kind and the length of the sign that a text starts with. A sign of two characters goes
before its first character alone. -/
def sign? : List Char → Option (Kind × Nat)
  | '.' :: _ => some (.dot, 1)
  | '(' :: _ => some (.paren .opening, 1)
  | ')' :: _ => some (.paren .closing, 1)
  | '=' :: _ => some (.order .eq, 1)
  | '<' :: '=' :: _ => some (.order .le, 2)
  | '<' :: _ => some (.order .lt, 1)
  | '>' :: '=' :: _ => some (.order .ge, 2)
  | '>' :: _ => some (.order .gt, 1)
  | _ => none

/-- The string behind an opening quote ends at the next quote of the same sort. -/
def quotedString (quote : Char) (body : List Char) : Except LexFault (Kind × Nat) :=
  let text := body.takeWhile (· != quote)
  if text.length < body.length then .ok (.string (String.ofList text), text.length + 2)
  else .error .unterminatedString

/-- The word that a text starts with is as long as it can be. -/
def leadingWord (cs : List Char) : Except LexFault (Kind × Nat) :=
  let text := cs.takeWhile isWordChar
  (classify text).map fun kind => (kind, text.length)

/-- The kind and the length of the token that a text without blanks in front starts with. -/
def leadingToken (cs : List Char) : Except LexFault (Kind × Nat) :=
  match sign? cs, cs with
  | some sign, _ => .ok sign
  | none, c :: body => if isQuote c then quotedString c body else leadingWord cs
  | none, [] => leadingWord []

theorem sign?_length {cs : List Char} {k : Kind} {n : Nat} (h : sign? cs = some (k, n)) :
    0 < n ∧ n ≤ cs.length := by
  unfold sign? at h
  split at h <;> simp_all <;> omega

theorem quotedString_length {q : Char} {body : List Char} {k : Kind} {n : Nat}
    (h : quotedString q body = .ok (k, n)) : 0 < n ∧ n ≤ (q :: body).length := by
  simp only [quotedString] at h
  split at h
  · simp only [Except.ok.injEq, Prod.mk.injEq] at h
    simp only [List.length_cons]
    omega
  · cases h

theorem leadingWord_eq_ok {cs : List Char} {k : Kind} {n : Nat}
    (h : leadingWord cs = .ok (k, n)) :
    classify (cs.takeWhile isWordChar) = .ok k ∧ n = (cs.takeWhile isWordChar).length := by
  unfold leadingWord at h
  cases hc : classify (cs.takeWhile isWordChar) with
  | error e => simp [hc, Except.map] at h
  | ok k' =>
    simp only [hc, Except.map, Except.ok.injEq, Prod.mk.injEq] at h
    exact ⟨congrArg Except.ok h.1, h.2.symm⟩

theorem isWordChar_of_no_sign {c : Char} {cs : List Char} (hb : isBlank c = false)
    (hs : sign? (c :: cs) = none) (hq : isQuote c = false) : isWordChar c = true := by
  have ht : isTerminator c = false := by
    simp only [isTerminator, hq, Bool.or_false, Bool.or_eq_false_iff, beq_eq_false_iff_ne]
    refine ⟨⟨⟨⟨⟨?_, ?_⟩, ?_⟩, ?_⟩, ?_⟩, ?_⟩ <;> rintro rfl <;> unfold sign? at hs <;>
      split at hs <;> simp_all
  simp [isWordChar, hb, ht]

/-- A token is not empty and lies within the text. -/
theorem leadingToken_length {c : Char} {cs : List Char} {k : Kind} {n : Nat}
    (hb : isBlank c = false) (h : leadingToken (c :: cs) = .ok (k, n)) :
    0 < n ∧ n ≤ (c :: cs).length := by
  cases hs : sign? (c :: cs) with
  | some sign =>
    simp only [leadingToken, hs, Except.ok.injEq] at h
    exact sign?_length (h ▸ hs)
  | none =>
    simp only [leadingToken, hs] at h
    by_cases hq : isQuote c = true
    · rw [if_pos hq] at h
      exact quotedString_length h
    · rw [if_neg hq] at h
      obtain ⟨-, rfl⟩ := leadingWord_eq_ok h
      have hw := isWordChar_of_no_sign hb hs (by simpa using hq)
      refine ⟨by simp [hw], (List.takeWhile_prefix _).length_le⟩

end TrafficQuery
