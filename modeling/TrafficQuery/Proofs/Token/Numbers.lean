import TrafficQuery.Proofs.Text.Case
import TrafficQuery.Proofs.Token.Faults

/-!
# Numbers and durations

A word of digits stands for the number that they write, and with the letter of a unit behind them for so
many seconds. Where that number does not fit, the word stands for no token at all.
-/

namespace TrafficQuery
open Text

/-! ## Digits -/

/-- Digits, and no zero in front. -/
def IsAmount (ds : List Char) : Prop :=
  ds ≠ [] ∧ ds.head? ≠ some '0' ∧ ∀ c ∈ ds, c.isDigit = true

theorem isPositiveNumeral_iff {ds : List Char} : isPositiveNumeral ds = true ↔ IsAmount ds := by
  cases ds with
  | nil => simp [isPositiveNumeral, IsAmount]
  | cons d ds => simp [isPositiveNumeral, IsAmount, and_assoc, and_left_comm]

theorem isNumeral_iff {ds : List Char} : isNumeral ds = true ↔ ds = ['0'] ∨ IsAmount ds := by
  rw [isNumeral, Bool.or_eq_true, beq_iff_eq, isPositiveNumeral_iff]

theorem toDigits_of_isDigit {c : Char} (h : c.isDigit = true) :
    c.toNat - '0'.toNat < 10 ∧ Nat.toDigits 10 (c.toNat - '0'.toNat) = [c] := by
  have hall := of_isDigit h (p := fun c => decide (c.toNat - '0'.toNat < 10 ∧
    Nat.toDigits 10 (c.toNat - '0'.toNat) = [c])) (by decide)
  exact of_decide_eq_true hall

/-- Digits without a zero in front are those of the number that they write. -/
theorem toDigits_decimalValue {ds : List Char} (h : isNumeral ds = true) :
    Nat.toDigits 10 (decimalValue ds) = ds := by
  -- Behind a number that is not zero, each digit is the last one of what is written so far.
  have hfold (cs : List Char) (hcs : ∀ c ∈ cs, c.isDigit = true) {n : Nat} (hn : 0 < n) :
      Nat.toDigits 10 (cs.foldl (fun n c => 10 * n + (c.toNat - '0'.toNat)) n) =
        Nat.toDigits 10 n ++ cs := by
    induction cs generalizing n with
    | nil => rw [List.foldl_nil, List.append_nil]
    | cons c cs ih =>
      obtain ⟨hc, hcs⟩ := List.forall_mem_cons.mp hcs
      obtain ⟨hlt, hdigit⟩ := toDigits_of_isDigit hc
      have hlast := Nat.toDigits_append_toDigits (b := 10) (by decide) hn hlt
      rw [List.foldl_cons, ih hcs (by omega), ← hlast, hdigit, List.append_assoc,
        List.singleton_append]
  rcases isNumeral_iff.mp h with rfl | ⟨hne, hzero, hdigits⟩
  · rfl
  · obtain ⟨d, ds, rfl⟩ := List.exists_cons_of_ne_nil hne
    obtain ⟨hd, hds⟩ := List.forall_mem_cons.mp hdigits
    obtain ⟨hlt, hdigit⟩ := toDigits_of_isDigit hd
    have hpos : 0 < d.toNat - '0'.toNat := by
      rcases Nat.eq_zero_or_pos (d.toNat - '0'.toNat) with hz | hpos
      · rw [hz] at hdigit
        cases hdigit
        exact absurd rfl hzero
      · exact hpos
    have hvalue : decimalValue (d :: ds) =
        ds.foldl (fun n c => 10 * n + (c.toNat - '0'.toNat)) (d.toNat - '0'.toNat) := by
      rw [decimalValue, List.foldl_cons, Nat.mul_zero, Nat.zero_add]
    rw [hvalue, hfold ds hds hpos, hdigit, List.singleton_append]

theorem decimalValue_eq (ds : List Char) : decimalValue ds = Nat.ofDigitChars 10 ds 0 := rfl

theorem toString_decimalValue {w : List Char} (h : isNumeral w = true) :
    toString (decimalValue w) = String.ofList w := by
  rw [Nat.toString_eq_ofList_toDigits, toDigits_decimalValue h]

/-! ## Words of digits -/

/-- The letters of the units, each with its seconds. -/
def units : List (Char × Nat) := [('s', 1), ('m', 60), ('h', 3600), ('d', 86400)]

theorem unitSeconds?_of_mem_units {c : Char} {unit : Nat} (h : (c, unit) ∈ units) :
    unitSeconds? c = some unit := by
  simp only [units, List.mem_cons, Prod.mk.injEq, List.not_mem_nil, or_false] at h
  rcases h with ⟨rfl, rfl⟩ | ⟨rfl, rfl⟩ | ⟨rfl, rfl⟩ | ⟨rfl, rfl⟩ <;> rfl

/-- A number of seconds is written in a word, as an amount with the letter of a unit behind it. -/
def WritesSeconds (w : List Char) (seconds : Nat) : Prop :=
  ∃ ds c unit, foldWord w = ds ++ [c] ∧ IsAmount ds ∧ (c, unit) ∈ units ∧
    seconds = Nat.ofDigitChars 10 ds 0 * unit

/-- A number is written in a word, as zero or as an amount. -/
def WritesNumber (w : List Char) (n : Nat) : Prop :=
  (w = ['0'] ∨ IsAmount w) ∧ n = Nat.ofDigitChars 10 w 0

variable {w : List Char} {n : Nat}

/-- Letters keep the class of their words in either case. -/
theorem isWordChar_foldCase (c : Char) : isWordChar (foldCase c) = isWordChar c := by
  by_cases hc : c = kelvinSign
  · rw [hc]
    decide
  · rw [foldCase, if_neg hc]
    exact apply_toLower (by decide) c

theorem isWordChar_of_foldWord (h : ∀ c ∈ foldWord w, isWordChar c = true) :
    ∀ c ∈ w, isWordChar c = true := by
  intro c hc
  rw [← isWordChar_foldCase]
  exact h _ (List.mem_map_of_mem hc)

theorem WritesSeconds.isWordChar (h : WritesSeconds w n) : ∀ c ∈ w, isWordChar c = true := by
  obtain ⟨ds, c, unit, hword, ⟨-, -, hdigits⟩, hunit, -⟩ := h
  apply isWordChar_of_foldWord
  rw [hword]
  intro d hd
  rcases List.mem_append.mp hd with hd | hd
  · exact isWordChar_of_isDigit (hdigits d hd)
  · have hall : ∀ p ∈ units, TrafficQuery.isWordChar p.1 = true := by decide
    have hletter := hall (c, unit) hunit
    rw [List.mem_singleton.mp hd]
    exact hletter

theorem WritesSeconds.ne_nil (h : WritesSeconds w n) : w ≠ [] := by
  obtain ⟨ds, c, unit, hword, -⟩ := h
  rintro rfl
  cases ds <;> cases hword

theorem WritesSeconds.classify_eq (h : WritesSeconds w n) : classify w =
    if n < Nat.pow 2 64 then .ok (.duration n)
    else .error (.invalidDuration (String.ofList (foldWord w))) := by
  obtain ⟨ds, c, unit, hword, hamount, hunit, rfl⟩ := h
  have hparts : durationParts? (foldWord w) = some (ds, unit) := durationParts?_eq_some_iff.mpr
    ⟨c, hword, unitSeconds?_of_mem_units hunit, isPositiveNumeral_iff.mpr hamount⟩
  have hlimit : durationLimit = Nat.pow 2 64 := rfl
  rw [classify_of_durationParts? hparts, hlimit, decimalValue_eq]

theorem WritesNumber.isNumeral (h : WritesNumber w n) : isNumeral w = true := isNumeral_iff.mpr h.1

theorem WritesNumber.isWordChar (h : WritesNumber w n) : ∀ c ∈ w, isWordChar c = true :=
  fun c hc => isWordChar_of_isDigit (isDigit_of_isNumeral h.isNumeral c hc)

theorem WritesNumber.classify_eq (h : WritesNumber w n) : classify w =
    if n < Nat.pow 2 63 then .ok (.number n) else .error (.invalidNumber (String.ofList w)) := by
  have hlimit : numberLimit = Nat.pow 2 63 := rfl
  rw [h.2, classify_of_isNumeral h.isNumeral, hlimit, decimalValue_eq]

/-- A number is written in its words as it is printed. -/
theorem WritesNumber.toString_eq (h : WritesNumber w n) : toString n = String.ofList w := by
  rw [h.2, ← decimalValue_eq, toString_decimalValue h.isNumeral]

/-! ## Reading such words -/

/-- What is read of a word, wherever it stands, and where the reading goes on. -/
theorem Text.Cursor.read_word (hne : w ≠ []) (hw : ∀ c ∈ w, isWordChar c = true) {after : List Char}
    (hafter : EndsWord after) (start : Nat) : read ⟨start, w ++ after⟩ =
      match classify w with
      | .ok k => .ok (.token ⟨k, start, String.ofList w⟩, ⟨start + byteLength w, after⟩)
      | .error fault => .error ⟨fault, start⟩ := by
  have hend : ∀ c ∈ after.head?, isWordChar c = false := by
    intro c hc
    rw [← Bool.not_eq_true, isWordChar_iff]
    rintro ⟨hblank, hterminator⟩
    rcases hafter c hc with h | h
    · rw [hblank] at h
      cases h
    · exact hterminator h
  have hlead := leadingToken_append hne hw hend
  obtain ⟨c, cs, rfl⟩ := List.exists_cons_of_ne_nil hne
  have hblank := not_isBlank_of_isWordChar (hw c List.mem_cons_self)
  have hskip : skipBlanks ⟨start, c :: cs ++ after⟩ = ⟨start, c :: cs ++ after⟩ := by
    simp [skipBlanks, skipWhile, past, hblank]
  unfold read
  simp only [hskip, hlead]
  cases classify (c :: cs) with
  | error fault => rfl
  | ok k => simp [Except.map, past]

/-- Wherever a word stands, it is read as a token of a kind. -/
def IsReadAs (w : List Char) (k : Kind) : Prop :=
  ∀ start after, EndsWord after → Cursor.read ⟨start, w ++ after⟩ =
    .ok (.token ⟨k, start, String.ofList w⟩, ⟨start + byteLength w, after⟩)

/-- Wherever a word stands, it is refused for a fault. -/
def IsRefusedFor (w : List Char) (fault : LexFault) : Prop :=
  ∀ start after, EndsWord after → Cursor.read ⟨start, w ++ after⟩ = .error ⟨fault, start⟩

theorem WritesSeconds.isReadAs (h : WritesSeconds w n) (hlt : n < Nat.pow 2 64) :
    IsReadAs w (.duration n) := by
  intro start after hafter
  rw [Cursor.read_word h.ne_nil h.isWordChar hafter, h.classify_eq, if_pos hlt]

theorem WritesSeconds.isRefusedFor (h : WritesSeconds w n) (hle : Nat.pow 2 64 ≤ n) :
    IsRefusedFor w (.invalidDuration (String.ofList (foldWord w))) := by
  intro start after hafter
  rw [Cursor.read_word h.ne_nil h.isWordChar hafter, h.classify_eq, if_neg (Nat.not_lt.mpr hle)]

theorem WritesNumber.isReadAs (h : WritesNumber w n) (hlt : n < Nat.pow 2 63) :
    IsReadAs w (.number n) := by
  intro start after hafter
  rw [Cursor.read_word (isNumeral_ne_nil h.isNumeral) h.isWordChar hafter, h.classify_eq, if_pos hlt]

theorem WritesNumber.isRefusedFor (h : WritesNumber w n) (hle : Nat.pow 2 63 ≤ n) :
    IsRefusedFor w (.invalidNumber (String.ofList w)) := by
  intro start after hafter
  rw [Cursor.read_word (isNumeral_ne_nil h.isNumeral) h.isWordChar hafter, h.classify_eq,
    if_neg (Nat.not_lt.mpr hle)]

theorem WritesSeconds.spells (h : WritesSeconds w n) (hlt : n < Nat.pow 2 64) :
    Spells w (.duration n) :=
  .word h.ne_nil h.isWordChar (by rw [h.classify_eq, if_pos hlt])

theorem WritesNumber.spells (h : WritesNumber w n) (hlt : n < Nat.pow 2 63) :
    Spells w (.number n) :=
  .word (isNumeral_ne_nil h.isNumeral) h.isWordChar (by rw [h.classify_eq, if_pos hlt])

/-- A word that can be spelled in some other way is not made of the characters of words. -/
theorem Spells.classify_eq {k : Kind} (h : Spells w k) (hw : ∀ c ∈ w, isWordChar c = true) :
    classify w = .ok k := by
  cases h with
  | sign hmem =>
    have hsigns : ∀ s ∈ signs, s.1.all isWordChar = false := by decide
    cases (List.all_eq_true.mpr hw).symm.trans (hsigns _ hmem)
  | @string q text hq =>
    have hquote := not_isQuote_of_isWordChar (hw q List.mem_cons_self)
    rw [hq] at hquote
    cases hquote
  | word _ _ hk => exact hk

end TrafficQuery
