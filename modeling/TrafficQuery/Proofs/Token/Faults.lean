import TrafficQuery.Proofs.Token.Lossless

/-!
# What lexical errors quote

A text that cannot be cut into tokens has a quote that is never closed, or a word that stands for no
token. The error for a word quotes it as it is written, but one for a duration that is too long quotes it
in lower case.
-/

namespace TrafficQuery
open Text

/-! ## Words in a text -/

/-- A word ends in front of a blank, a terminator or nothing. -/
def EndsWord (after : List Char) : Prop := ∀ c ∈ after.head?, isBlank c = true ∨ c ∈ terminators

/-- A word starts at a byte of a text and goes up to the next blank or terminator, or to the end. -/
def WordAt (source : String) (n : Nat) (w : List Char) : Prop :=
  ∃ before after, source.toList = before ++ (w ++ after) ∧ byteLength before = n ∧ w ≠ [] ∧
    (∀ c ∈ w, isBlank c = false ∧ c ∉ terminators) ∧ EndsWord after

theorem isWordChar_iff {c : Char} : isWordChar c = true ↔ isBlank c = false ∧ c ∉ terminators := by
  rw [isWordChar, Bool.and_eq_true, Bool.not_eq_true', Bool.not_eq_true', ← isTerminator_iff,
    Bool.not_eq_true]

/-- What starts with a character of a word starts with a word. -/
theorem wordAt_takeWhile {source : String} {before after : List Char} {c : Char}
    (hsource : source.toList = before ++ c :: after) (hc : isWordChar c = true) :
    WordAt source (byteLength before) ((c :: after).takeWhile isWordChar) := by
  refine ⟨before, (c :: after).dropWhile isWordChar, ?_, rfl, ?_, ?_, ?_⟩
  · rw [List.takeWhile_append_dropWhile, hsource]
  · rw [List.takeWhile_cons_of_pos hc]
    exact List.cons_ne_nil _ _
  · exact fun d hd => isWordChar_iff.mp (List.all_eq_true.mp List.all_takeWhile d hd)
  · exact head?_dropWhile_isWordChar (c :: after)

/-! ## Faults -/

/-- What a fault says of the place in a text where it is found. -/
def LexFault.Quotes (source : String) (n : Nat) : LexFault → Prop
  | .invalidToken s => WordAt source n s.toList
  | .invalidNumber s => WordAt source n s.toList
  | .invalidDuration s => ∃ w, WordAt source n w ∧ s = lower (String.ofList w)
  | .unterminatedString => ∃ before q after, source.toList = before ++ q :: after ∧
      byteLength before = n ∧ (q = '"' ∨ q = '\'') ∧ q ∉ after

theorem foldCase_eq_toLower {c : Char} (h : foldCase c ≠ 'k') : foldCase c = c.toLower := by
  unfold foldCase at h ⊢
  split
  case isTrue hc =>
    rw [if_pos hc] at h
    exact absurd rfl h
  case isFalse => rfl

/-- A duration has no letter that could stand for a character outside ASCII. -/
theorem foldWord_of_durationParts? {w digits : List Char} {unit : Nat}
    (h : durationParts? (foldWord w) = some (digits, unit)) :
    String.ofList (foldWord w) = lower (String.ofList w) := by
  obtain ⟨c, hword, hunit, hdigits⟩ := durationParts?_eq_some_iff.mp h
  have hk : 'k' ∉ foldWord w := by
    rw [hword, List.mem_append, List.mem_singleton]
    rintro (hmem | rfl)
    · cases isDigit_of_isPositiveNumeral hdigits _ hmem
    · cases hunit
  have hmap : foldWord w = w.map Char.toLower := by
    refine List.map_congr_left fun d hd => foldCase_eq_toLower fun hd' => hk ?_
    exact List.mem_map.mpr ⟨d, hd, hd'⟩
  rw [lower, String.toList_ofList, hmap]

/-- A class that accepts a word gives a token for it, or a fault that quotes it. -/
theorem WordClass.fault_of_read {w : List Char} {k : WordClass} {fault : LexFault}
    (h : k.read w = .error fault) :
    fault = .invalidToken (String.ofList w) ∨ fault = .invalidNumber (String.ofList w) ∨
      fault = .invalidDuration (lower (String.ofList w)) := by
  cases k with
  | reserved =>
    simp only [read] at h
    split at h <;> cases h
    exact .inl rfl
  | duration =>
    simp only [read] at h
    split at h
    case h_1 hparts =>
      split at h <;> cases h
      exact .inr (.inr (congrArg LexFault.invalidDuration (foldWord_of_durationParts? hparts)))
    case h_2 =>
      cases h
      exact .inl rfl
  | number =>
    simp only [read] at h
    split at h <;> cases h
    exact .inr (.inl rfl)
  | _ => cases h

theorem fault_of_classify {w : List Char} {fault : LexFault} (h : classify w = .error fault) :
    fault = .invalidToken (String.ofList w) ∨ fault = .invalidNumber (String.ofList w) ∨
      fault = .invalidDuration (lower (String.ofList w)) := by
  unfold classify classifyIn at h
  split at h
  case h_1 => exact WordClass.fault_of_read h
  case h_2 =>
    cases h
    exact .inl rfl

theorem quotedString_eq_error {q : Char} {body : List Char} {fault : LexFault}
    (h : quotedString q body = .error fault) : fault = .unterminatedString ∧ q ∉ body := by
  simp only [quotedString] at h
  split at h
  case isTrue => cases h
  case isFalse hlt =>
    cases h
    refine ⟨rfl, fun hmem => hlt ?_⟩
    -- The quote itself is not taken, so less is taken than all of the text.
    have hstarts := List.takeWhile_prefix (l := body) (· != q)
    refine Nat.lt_of_le_of_ne hstarts.length_le fun hlength => ?_
    have htaken := List.all_eq_true.mp (List.all_takeWhile (p := (· != q)) (l := body)) q
    rw [hstarts.eq_of_length hlength] at htaken
    simp [hmem] at htaken

/-- No token can be read from a quote that is never closed, and from a word that stands for none. -/
theorem leadingToken_eq_error {c : Char} {cs : List Char} {fault : LexFault}
    (hb : isBlank c = false) (h : leadingToken (c :: cs) = .error fault) :
    (fault = .unterminatedString ∧ isQuote c = true ∧ c ∉ cs) ∨
      (isWordChar c = true ∧ classify ((c :: cs).takeWhile isWordChar) = .error fault) := by
  unfold leadingToken at h
  split at h
  case h_1 => cases h
  case h_2 d body hsign hcons =>
    obtain ⟨rfl, rfl⟩ := List.cons.inj hcons
    split at h
    case isTrue hq =>
      obtain ⟨rfl, hn⟩ := quotedString_eq_error h
      exact .inl ⟨rfl, hq, hn⟩
    case isFalse hq =>
      refine .inr ⟨isWordChar_of_no_sign hb hsign (by simpa using hq), ?_⟩
      rw [leadingWord] at h
      cases hword : classify ((c :: cs).takeWhile isWordChar) with
      | error e =>
        rw [hword] at h
        exact congrArg Except.error (Except.error.inj h)
      | ok k =>
        rw [hword] at h
        cases h
  case h_3 hcons => cases hcons

/-- A fault quotes the place where no token can be read. -/
theorem LexFault.quotes_of_leadingToken {source : String} {before after : List Char} {c : Char}
    {fault : LexFault} (hsource : source.toList = before ++ c :: after) (hb : isBlank c = false)
    (h : leadingToken (c :: after) = .error fault) : fault.Quotes source (byteLength before) := by
  rcases leadingToken_eq_error hb h with ⟨rfl, hq, hn⟩ | ⟨hc, hclass⟩
  · have hquote : c = '"' ∨ c = '\'' := by simpa [isQuote] using hq
    exact ⟨before, c, after, hsource, rfl, hquote, hn⟩
  · have hword := wordAt_takeWhile hsource hc
    rcases fault_of_classify hclass with rfl | rfl | rfl
    · rw [Quotes, String.toList_ofList]
      exact hword
    · rw [Quotes, String.toList_ofList]
      exact hword
    · exact ⟨_, hword, rfl⟩

/-- The error where a scan breaks off quotes the word that stands there, as it is written or, for a
duration, in lower case, or it points at a quote that is never closed. -/
theorem scan_error_quotes_source {source : String} {e : LexError}
    (h : (scan source).ending = .broken e) : e.fault.Quotes source e.position := by
  obtain ⟨before, c, after, hsource, hposition, hfault, hb⟩ := Cursor.exists_rest_of_scan_broken h
  rw [Cursor.start, Nat.zero_add] at hposition
  rw [hposition]
  exact LexFault.quotes_of_leadingToken hsource hb hfault

/-- A query with a duration that is too long, with a large unit behind letters of two bytes. -/
def longDuration : String := "query requests where path = 'é' or timestamp > 999999999999999D ago"

theorem scan_error_quotes_source_longDuration :
    (scan longDuration).ending = .broken ⟨.invalidDuration "999999999999999d", 48⟩ ∧
      (LexFault.invalidDuration "999999999999999d").Quotes longDuration 48 := by
  have h : (scan longDuration).ending = .broken ⟨.invalidDuration "999999999999999d", 48⟩ := by
    decide +kernel
  exact ⟨h, scan_error_quotes_source h⟩

/-- The word where a scan breaks off is not always the one that the error quotes. -/
theorem scan_error_alters_duration :
    (scan "999999999999999D").ending = .broken ⟨.invalidDuration "999999999999999d", 0⟩ ∧
      ¬WordAt "999999999999999D" 0 "999999999999999d".toList := by
  refine ⟨by decide +kernel, ?_⟩
  rintro ⟨before, after, hsource, hlength, -⟩
  cases before with
  | nil =>
    have hstarts : "999999999999999d".toList <+: "999999999999999D".toList := ⟨after, hsource.symm⟩
    revert hstarts
    decide
  | cons c cs => exact absurd hlength (Nat.ne_of_gt (byteLength_pos (List.cons_ne_nil c cs)))

end TrafficQuery
