import TrafficQuery.Proofs.Token.Spelling

/-!
# Which tokens can be written

A token that carries nothing of its own has a fixed word. The others have a word for some of the texts
and numbers that they could carry, and this module says for which.
-/

namespace TrafficQuery
open Text

/-- A kind of token that some word spells. -/
def Kind.Spelled (k : Kind) : Prop := ∃ w, Spells w k

/-- A token of a kind, for where its place and its word do not matter. -/
def Kind.token (k : Kind) : Token := ⟨k, 0, ""⟩

theorem spelled_tokens {ks : List Kind} (h : ∀ k ∈ ks, k.Spelled) :
    ∀ t ∈ ks.map Kind.token, t.kind.Spelled := by
  intro t ht
  obtain ⟨k, hk, rfl⟩ := List.mem_map.mp ht
  exact h k hk

/-! ## Fixed words -/

/-- The word of a token that carries nothing of its own. -/
def Kind.fixedWord? : Kind → Option String
  | .keyword w => some w.word
  | .order op => some op.symbol
  | .connective op => some op.word
  | .not => some "not"
  | .paren side => some side.symbol
  | .dot => some "."
  | .present => some "exists"
  | .contains => some "contains"
  | .icontains => some "icontains"
  | _ => none

theorem fixedWord?_of_reservedKind? {s : String} {k : Kind} (h : reservedKind? s = some k) :
    k.fixedWord? = some s := by
  unfold reservedKind? at h
  split at h <;> cases h <;> rfl

theorem spells_of_classify {s : String} {k : Kind} (hne : s.toList ≠ [])
    (hw : s.toList.all isWordChar = true) (hk : classify s.toList = .ok k) : Spells s.toList k :=
  .word hne (List.all_eq_true.mp hw) hk

theorem spelled_of_classify {s : String} {k : Kind} (hne : s.toList ≠ [])
    (hw : s.toList.all isWordChar = true) (hk : classify s.toList = .ok k) : k.Spelled :=
  ⟨_, spells_of_classify hne hw hk⟩

theorem spells_of_fixedWord? {s : String} {k : Kind} (h : k.fixedWord? = some s) :
    Spells s.toList k := by
  have word := spells_of_classify (s := s) (k := k)
  cases k with
  | keyword w => cases w <;> cases h <;> exact word (by decide) (by decide) rfl
  | order op => cases op <;> cases h <;> exact .sign (by decide)
  | connective op => cases op <;> cases h <;> exact word (by decide) (by decide) rfl
  | paren side => cases side <;> cases h <;> exact .sign (by decide)
  | dot => cases h; exact .sign (by decide)
  | not | present | contains | icontains => cases h; exact word (by decide) (by decide) rfl
  | _ => cases h

theorem spelled_of_fixedWord? {s : String} {k : Kind} (h : k.fixedWord? = some s) : k.Spelled :=
  ⟨_, spells_of_fixedWord? h⟩

/-! ## Classes of words -/

/-- A word in the case in which it is compared with patterns. -/
def foldWord (w : List Char) : List Char := w.map foldCase

/-- What a word that is not reserved can stand for. -/
inductive Classed (w : List Char) : Kind → Prop
  | identifier : isIdentifier (foldWord w) = true → Classed w (.identifier (String.ofList w))
  | duration {digits : List Char} {unit : Nat} :
      durationParts? (foldWord w) = some (digits, unit) →
      decimalValue digits * unit < durationLimit → Classed w (.duration (decimalValue digits * unit))
  | uuid : isUuid (foldWord w) = true → Classed w (.uuid (String.ofList w))
  | headerName : isHeaderName (foldWord w) = true → isUuid (foldWord w) = false →
      Classed w (.headerName (String.ofList w))
  | number : isNumeral (foldWord w) = true → decimalValue w < numberLimit →
      Classed w (.number (decimalValue w))

section Classes
variable {w : List Char} {k : Kind}

theorem classifyIn_cons (c : WordClass) (cs : List WordClass) (w : List Char) :
    classifyIn (c :: cs) w = if c.accepts (foldWord w) then c.read w else classifyIn cs w := by
  unfold classifyIn foldWord
  rw [List.find?_cons]
  cases c.accepts (w.map foldCase) <;> rfl

theorem reserved_of_read (h : WordClass.reserved.read w = .ok k) :
    reservedKind? (String.ofList (foldWord w)) = some k := by
  simp only [WordClass.read] at h
  split at h <;> cases h
  assumption

theorem classed_of_read_duration (h : WordClass.duration.read w = .ok k) : Classed w k := by
  simp only [WordClass.read] at h
  split at h
  case h_1 digits unit hparts =>
    split at h <;> cases h
    exact .duration hparts (by assumption)
  case h_2 => cases h

theorem classed_of_read_number (hn : isNumeral (foldWord w) = true)
    (h : WordClass.number.read w = .ok k) : Classed w k := by
  simp only [WordClass.read] at h
  split at h <;> cases h
  exact .number hn (by assumption)

/-- A word that stands for a token with a text or a number is not reserved, and of its class. -/
theorem classed_of_classify (h : classify w = .ok k) (hk : k.fixedWord? = none) :
    reservedKind? (String.ofList (foldWord w)) = none ∧ Classed w k := by
  rw [classify, WordClass.priority, classifyIn_cons] at h
  split at h
  case isTrue =>
    rw [fixedWord?_of_reservedKind? (reserved_of_read h)] at hk
    cases hk
  case isFalse hr =>
    refine ⟨by simpa [WordClass.accepts] using hr, ?_⟩
    rw [classifyIn_cons] at h
    split at h
    case isTrue hi =>
      cases h
      exact .identifier hi
    case isFalse =>
      rw [classifyIn_cons] at h
      split at h
      case isTrue => exact classed_of_read_duration h
      case isFalse =>
        rw [classifyIn_cons] at h
        split at h
        case isTrue hu =>
          cases h
          exact .uuid hu
        case isFalse hu =>
          rw [classifyIn_cons] at h
          split at h
          case isTrue hn =>
            cases h
            exact .headerName hn (by simpa [WordClass.accepts] using hu)
          case isFalse =>
            rw [classifyIn_cons] at h
            split at h
            case isTrue hn => exact classed_of_read_number hn h
            case isFalse => cases h

end Classes

/-! ## Strings -/

/-- A text that can stand between one of the two quotes. -/
def Quotable (text : String) : Prop := '"' ∉ text.toList ∨ '\'' ∉ text.toList

theorem quotable_of_isWordChar {text : String} (h : ∀ c ∈ text.toList, isWordChar c = true) :
    Quotable text := by
  refine .inl fun hmem => ?_
  cases h _ hmem

theorem spelled_string_iff {text : String} : (Kind.string text).Spelled ↔ Quotable text := by
  constructor
  · rintro ⟨w, h⟩
    cases h with
    | sign hmem => simp [signs] at hmem
    | @string q cs hq hn =>
      rw [Quotable, String.toList_ofList]
      simp only [isQuote, Bool.or_eq_true, beq_iff_eq] at hq
      rcases hq with rfl | rfl
      · exact .inl hn
      · exact .inr hn
    | word _ _ hk => cases (classed_of_classify hk rfl).2
  · have spelled {q : Char} (hq : isQuote q = true) (hn : q ∉ text.toList) :
        (Kind.string text).Spelled := by
      have h := Spells.string hq hn
      rw [String.ofList_toList] at h
      exact ⟨_, h⟩
    rintro (hn | hn)
    · exact spelled rfl hn
    · exact spelled rfl hn

theorem isWordChar_of_spelled_uuid {text : String} (h : (Kind.uuid text).Spelled) :
    ∀ c ∈ text.toList, isWordChar c = true := by
  obtain ⟨w, h⟩ := h
  cases h with
  | sign hmem => simp [signs] at hmem
  | word _ hw hk =>
    cases (classed_of_classify hk rfl).2
    rw [String.toList_ofList]
    exact hw

/-! ## Header names -/

/-- A text that can stand as the name of a header. -/
def IsHeaderWord (name : String) : Prop :=
  (∀ c ∈ name.toList, isWordChar c = true) ∧
    reservedKind? (String.ofList (foldWord name.toList)) = none ∧
    (isIdentifier (foldWord name.toList) = true ∨
      isHeaderName (foldWord name.toList) = true ∧ isUuid (foldWord name.toList) = false)

section Names
variable {w : List Char}

theorem classify_identifier (hr : reservedKind? (String.ofList (foldWord w)) = none)
    (hi : isIdentifier (foldWord w) = true) : classify w = .ok (.identifier (String.ofList w)) := by
  simp only [classify, WordClass.priority, classifyIn_cons, WordClass.accepts, hr, hi]
  rfl

theorem isDigit_eq_false_of_isLower {c : Char} (h : c.isLower = true) : c.isDigit = false := by
  have hlow : 'a'.val ≤ c.val := of_decide_eq_true (Bool.and_eq_true_iff.mp h).1
  have hhigh : ¬c.val ≤ '9'.val := fun hle => absurd (UInt32.le_trans hlow hle) (by decide)
  exact Bool.and_eq_false_imp.mpr fun _ => decide_eq_false hhigh

theorem isPositiveNumeral_eq_false {c : Char} (h : c.isDigit = false) (cs : List Char) :
    isPositiveNumeral (c :: cs).dropLast = false := by
  cases cs with
  | nil => rfl
  | cons d ds => simp [isPositiveNumeral, h]

theorem durationParts?_of_isHeaderName {cs : List Char} (h : isHeaderName cs = true) :
    durationParts? cs = none := by
  cases cs with
  | nil => rfl
  | cons c cs =>
    simp only [isHeaderName, Bool.and_eq_true] at h
    unfold durationParts?
    rw [isPositiveNumeral_eq_false (isDigit_eq_false_of_isLower h.1)]
    split <;> rfl

theorem classify_headerName (hr : reservedKind? (String.ofList (foldWord w)) = none)
    (hi : isIdentifier (foldWord w) = false) (hh : isHeaderName (foldWord w) = true)
    (hu : isUuid (foldWord w) = false) : classify w = .ok (.headerName (String.ofList w)) := by
  simp only [classify, WordClass.priority, classifyIn_cons, WordClass.accepts, hr, hi, hh, hu,
    durationParts?_of_isHeaderName hh]
  rfl

end Names

/-- The names of headers are the words that are not reserved and have the form of one. -/
theorem spelled_headerName_iff {name : String} :
    (Kind.identifier name).Spelled ∨ (Kind.headerName name).Spelled ↔ IsHeaderWord name := by
  constructor
  · have isHeaderWord {w : List Char} {k : Kind} (hk : k.fixedWord? = none) (h : Spells w k)
        (hname : k = .identifier name ∨ k = .headerName name) : IsHeaderWord name := by
      cases h with
      | sign hmem => rcases hname with rfl | rfl <;> simp [signs] at hmem
      | string => rcases hname with h | h <;> cases h
      | word _ hw hc =>
        obtain ⟨hr, hclass⟩ := classed_of_classify hc hk
        cases hclass with
        | identifier hi =>
          rcases hname with h | h <;> cases h
          rw [IsHeaderWord, String.toList_ofList]
          exact ⟨hw, hr, .inl hi⟩
        | headerName hh hu =>
          rcases hname with h | h <;> cases h
          rw [IsHeaderWord, String.toList_ofList]
          exact ⟨hw, hr, .inr ⟨hh, hu⟩⟩
        | _ => rcases hname with h | h <;> cases h
    rintro (⟨w, h⟩ | ⟨w, h⟩)
    · exact isHeaderWord rfl h (.inl rfl)
    · exact isHeaderWord rfl h (.inr rfl)
  · rintro ⟨hw, hr, hform⟩
    have hne : name.toList ≠ [] := by
      rintro h
      rcases hform with hform | ⟨hform, -⟩ <;> rw [h] at hform <;> cases hform
    have spelled {k : Kind} (h : classify name.toList = .ok k) : k.Spelled := ⟨_, .word hne hw h⟩
    cases hi : isIdentifier (foldWord name.toList) with
    | true =>
      have h := classify_identifier hr hi
      rw [String.ofList_toList] at h
      exact .inl (spelled h)
    | false =>
      obtain ⟨hh, hu⟩ := hform.resolve_left (by rw [hi]; exact Bool.false_ne_true)
      have h := classify_headerName hr hi hh hu
      rw [String.ofList_toList] at h
      exact .inr (spelled h)

/-! ## Digits -/

section Digits
variable {c : Char} {cs : List Char} {n : Nat}

theorem mem_digits_of_isDigit (h : c.isDigit = true) : c ∈ "0123456789".toList := by
  have hn : c.toNat ∈ List.range' 48 10 := by
    simp only [Char.isDigit, Bool.and_eq_true, decide_eq_true_eq, UInt32.le_iff_toNat_le] at h
    have hlower : 48 ≤ c.toNat := h.1
    have hupper : c.toNat ≤ 57 := h.2
    simp only [List.mem_range'_1]
    omega
  have hall : ∀ n ∈ List.range' 48 10, Char.ofNat n ∈ "0123456789".toList := by decide
  rw [← Char.ofNat_toNat c]
  exact hall _ hn

/-- A property of characters that the ten digits have. -/
theorem of_isDigit (h : c.isDigit = true) {p : Char → Bool} (hall : "0123456789".toList.all p = true) :
    p c = true :=
  List.all_eq_true.mp hall c (mem_digits_of_isDigit h)

theorem isWordChar_of_isDigit (h : c.isDigit = true) : isWordChar c = true :=
  of_isDigit h (by decide)

theorem foldCase_of_isDigit (h : c.isDigit = true) : foldCase c = c :=
  eq_of_beq (of_isDigit h (p := fun c => foldCase c == c) (by decide))

theorem unitSeconds?_of_isDigit (h : c.isDigit = true) : unitSeconds? c = none :=
  Option.isNone_iff_eq_none.mp (of_isDigit h (p := fun c => (unitSeconds? c).isNone) (by decide))

theorem isLower_eq_false_of_isDigit (h : c.isDigit = true) : c.isLower = false := by
  cases hl : c.isLower with
  | false => rfl
  | true =>
    rw [isDigit_eq_false_of_isLower hl] at h
    cases h

theorem foldWord_of_isDigit (h : ∀ c ∈ cs, c.isDigit = true) : foldWord cs = cs := by
  rw [foldWord, List.map_congr_left fun c hc => foldCase_of_isDigit (h c hc), List.map_id']

theorem reservedKind?_of_isDigit (h : c.isDigit = true) (cs : List Char) :
    reservedKind? (String.ofList (c :: cs)) = none := by
  have hne {s : String} (hs : s.toList.head?.all (!·.isDigit) = true) : String.ofList (c :: cs) ≠ s := by
    rintro rfl
    rw [String.toList_ofList, List.head?_cons, Option.all_some, h] at hs
    cases hs
  unfold reservedKind?
  split <;> first | rfl | exact absurd (by assumption) (hne (by decide))

theorem isIdentifier_of_isDigit (h : c.isDigit = true) (cs : List Char) :
    isIdentifier (c :: cs) = false := by
  have hc : c ≠ '_' := by
    rintro rfl
    cases h
  simp [isIdentifier, isLower_eq_false_of_isDigit h, hc]

theorem isHeaderName_of_isDigit (h : c.isDigit = true) (cs : List Char) :
    isHeaderName (c :: cs) = false := by
  simp [isHeaderName, isLower_eq_false_of_isDigit h]

theorem isUuid_of_isDigit (h : ∀ c ∈ cs, c.isDigit = true) : isUuid cs = false := by
  have hdash : '-' ∉ cs := fun hmem => by cases h _ hmem
  rw [isUuid]
  unfold isHexGroups
  simp only [Bool.and_eq_false_iff]
  right
  split
  case h_1 hnil => cases hnil
  case h_2 hdrop _ =>
    exact absurd (List.mem_of_mem_drop (hdrop ▸ List.mem_cons_self)) hdash
  case h_3 => rfl

/-! ## Numbers -/

theorem isPositiveNumeral_append {ds : List Char} (hds : isPositiveNumeral ds = true)
    (hc : c.isDigit = true) : isPositiveNumeral (ds ++ [c]) = true := by
  cases ds with
  | nil => cases hds
  | cons d ds =>
    simp only [isPositiveNumeral, Bool.and_eq_true] at hds
    simp [isPositiveNumeral, hds, hc]

theorem isPositiveNumeral_toDigits (h : 0 < n) : isPositiveNumeral (Nat.toDigits 10 n) = true := by
  induction n using Nat.strongRecOn with
  | ind n ih =>
    rw [Nat.toDigits_eq_if (by omega)]
    have hdigit (m : Nat) (hm : m < 10) : m.digitChar.isDigit = true :=
      (by decide : ∀ m < 10, m.digitChar.isDigit = true) m hm
    split
    case isTrue hlt =>
      exact (by decide : ∀ m < 10, 0 < m → isPositiveNumeral [m.digitChar] = true) n hlt h
    case isFalse hge =>
      exact isPositiveNumeral_append (ih (n / 10) (by omega) (by omega))
        (hdigit (n % 10) (Nat.mod_lt n (by decide)))

theorem decimalValue_toDigits (n : Nat) : decimalValue (Nat.toDigits 10 n) = n :=
  Nat.ofDigitChars_ten_toDigits

theorem decimalValue_pos (h : isPositiveNumeral cs = true) : 0 < decimalValue cs := by
  have hfold (ds : List Char) {m : Nat} (hm : 0 < m) :
      0 < ds.foldl (fun n c => 10 * n + (c.toNat - '0'.toNat)) m := by
    induction ds generalizing m with
    | nil => exact hm
    | cons d ds ih => exact ih (Nat.add_pos_left (Nat.mul_pos (by decide) hm) _)
  cases cs with
  | nil => cases h
  | cons c cs =>
    simp only [isPositiveNumeral, Bool.and_eq_true, bne_iff_ne] at h
    have hc := of_isDigit h.1.1 (p := fun c => c == '0' || 0 < c.toNat - '0'.toNat) (by decide)
    simp only [Bool.or_eq_true, beq_iff_eq, h.1.2, false_or, decide_eq_true_eq] at hc
    exact hfold cs (Nat.add_pos_right _ hc)

theorem isDigit_of_mem_toDigits (h : c ∈ Nat.toDigits 10 n) : c.isDigit = true :=
  Nat.isDigit_of_mem_toDigits (by decide) (by decide) h

theorem quotable_toString (n : Nat) : Quotable (toString n) := by
  refine quotable_of_isWordChar fun c hc => ?_
  rw [Nat.toString_eq_ofList_toDigits, String.toList_ofList] at hc
  exact isWordChar_of_isDigit (isDigit_of_mem_toDigits hc)

theorem exists_toDigits_eq_cons (n : Nat) :
    ∃ c cs, Nat.toDigits 10 n = c :: cs ∧ c.isDigit = true := by
  obtain ⟨c, cs, h⟩ := List.exists_cons_of_ne_nil (Nat.toDigits_ne_nil (n := n) (b := 10))
  exact ⟨c, cs, h, isDigit_of_mem_toDigits (h ▸ List.mem_cons_self)⟩

theorem isNumeral_toDigits (n : Nat) : isNumeral (Nat.toDigits 10 n) = true := by
  rcases Nat.eq_zero_or_pos n with rfl | h
  · rfl
  · rw [isNumeral, isPositiveNumeral_toDigits h, Bool.or_true]

theorem isDigit_of_isPositiveNumeral (h : isPositiveNumeral cs = true) :
    ∀ c ∈ cs, c.isDigit = true := by
  cases cs with
  | nil => cases h
  | cons c cs =>
    simp only [isPositiveNumeral, Bool.and_eq_true] at h
    exact List.forall_mem_cons.mpr ⟨h.1.1, List.all_eq_true.mp h.2⟩

theorem isDigit_of_isNumeral (h : isNumeral cs = true) : ∀ c ∈ cs, c.isDigit = true := by
  rw [isNumeral, Bool.or_eq_true, beq_iff_eq] at h
  rcases h with rfl | h
  · exact List.all_eq_true.mp rfl
  · exact isDigit_of_isPositiveNumeral h

theorem isNumeral_ne_nil (h : isNumeral cs = true) : cs ≠ [] := by
  rintro rfl
  cases h

theorem durationParts?_of_isDigit (h : ∀ c ∈ cs, c.isDigit = true) : durationParts? cs = none := by
  unfold durationParts?
  cases hl : cs.getLast? with
  | none => rfl
  | some c =>
    have hc := h c (List.mem_of_getLast? hl)
    simp [unitSeconds?_of_isDigit hc]

/-- A duration is a positive number with a unit behind it. -/
theorem durationParts?_eq_some_iff {digits : List Char} {unit : Nat} :
    durationParts? cs = some (digits, unit) ↔ ∃ c, cs = digits ++ [c] ∧
      unitSeconds? c = some unit ∧ isPositiveNumeral digits = true := by
  constructor
  · intro h
    unfold durationParts? at h
    split at h
    case h_1 hunit =>
      obtain ⟨c, hlast, hc⟩ := Option.bind_eq_some_iff.mp hunit
      split at h <;> cases h
      obtain ⟨ds, rfl⟩ := List.getLast?_eq_some_iff.mp hlast
      rw [List.dropLast_concat] at *
      exact ⟨c, rfl, hc, by assumption⟩
    case h_2 => cases h
  · rintro ⟨c, rfl, hunit, hdigits⟩
    simp [durationParts?, hunit, hdigits]

/-- A word that starts with a digit has no letters in front, so it is neither a name nor reserved. -/
theorem classify_of_isDigit {w : List Char} (h : foldWord w = c :: cs) (hc : c.isDigit = true) :
    classify w = classifyIn [.duration, .uuid, .number] w := by
  simp only [classify, WordClass.priority, classifyIn_cons, WordClass.accepts, h,
    reservedKind?_of_isDigit hc, isIdentifier_of_isDigit hc, isHeaderName_of_isDigit hc]
  rfl

/-- A number is read exactly, or it is too large. -/
theorem classify_of_isNumeral {w : List Char} (h : isNumeral w = true) : classify w =
    if decimalValue w < numberLimit then .ok (.number (decimalValue w))
    else .error (.invalidNumber (String.ofList w)) := by
  have hall := isDigit_of_isNumeral h
  have hfold := foldWord_of_isDigit hall
  obtain ⟨c, cs, rfl⟩ := List.exists_cons_of_ne_nil (isNumeral_ne_nil h)
  rw [classify_of_isDigit hfold (hall c List.mem_cons_self)]
  simp only [classifyIn_cons, WordClass.accepts, hfold, durationParts?_of_isDigit hall,
    isUuid_of_isDigit hall, h]
  rfl

theorem classify_number (h : n < numberLimit) : classify (Nat.toDigits 10 n) = .ok (.number n) := by
  rw [classify_of_isNumeral (isNumeral_toDigits n), decimalValue_toDigits, if_pos h]

/-- A duration is read exactly, or it is too long. -/
theorem classify_of_durationParts? {w digits : List Char} {unit : Nat}
    (h : durationParts? (foldWord w) = some (digits, unit)) : classify w =
      if decimalValue digits * unit < durationLimit then .ok (.duration (decimalValue digits * unit))
      else .error (.invalidDuration (String.ofList (foldWord w))) := by
  obtain ⟨c, hword, hunit, hdigits⟩ := durationParts?_eq_some_iff.mp h
  obtain ⟨d, ds, rfl⟩ := List.exists_cons_of_ne_nil
    (isNumeral_ne_nil (Bool.or_eq_true_iff.mpr (.inr hdigits)))
  have hd := isDigit_of_isPositiveNumeral hdigits d List.mem_cons_self
  rw [classify_of_isDigit hword hd, classifyIn_cons, WordClass.accepts, h]
  simp only [foldWord] at h
  simp only [Option.isSome_some, if_true, WordClass.read, h]
  rfl

theorem foldWord_append (w v : List Char) : foldWord (w ++ v) = foldWord w ++ foldWord v :=
  List.map_append

theorem classify_duration (hpos : 0 < n) (h : n < durationLimit) :
    classify (Nat.toDigits 10 n ++ ['s']) = .ok (.duration n) := by
  have hparts : durationParts? (foldWord (Nat.toDigits 10 n ++ ['s'])) =
      some (Nat.toDigits 10 n, 1) := by
    rw [foldWord_append, foldWord_of_isDigit fun _ => isDigit_of_mem_toDigits]
    exact durationParts?_eq_some_iff.mpr ⟨'s', rfl, rfl, isPositiveNumeral_toDigits hpos⟩
  rw [classify_of_durationParts? hparts, decimalValue_toDigits, Nat.mul_one, if_pos h]

theorem durationParts?_pos {w digits : List Char} {unit : Nat}
    (h : durationParts? w = some (digits, unit)) : 0 < decimalValue digits * unit := by
  obtain ⟨c, -, hc, hdigits⟩ := durationParts?_eq_some_iff.mp h
  have hunit : 0 < unit := by
    unfold unitSeconds? at hc
    split at hc <;> cases hc <;> decide
  exact Nat.mul_pos (decimalValue_pos hdigits) hunit

theorem spelled_duration_iff {n : Nat} : (Kind.duration n).Spelled ↔ 0 < n ∧ n < durationLimit := by
  constructor
  · rintro ⟨w, h⟩
    cases h with
    | sign hmem => simp [signs] at hmem
    | word _ _ hk =>
      cases (classed_of_classify hk rfl).2 with
      | duration hparts hlt => exact ⟨durationParts?_pos hparts, hlt⟩
  · rintro ⟨hpos, hlt⟩
    refine ⟨_, .word (by simp) (fun c hc => ?_) (classify_duration hpos hlt)⟩
    rcases List.mem_append.mp hc with hc | hc
    · exact isWordChar_of_isDigit (isDigit_of_mem_toDigits hc)
    · cases List.mem_singleton.mp hc
      rfl

theorem spelled_number_iff {value : Int} :
    (Kind.number value).Spelled ↔ 0 ≤ value ∧ value < numberLimit := by
  constructor
  · rintro ⟨w, h⟩
    cases h with
    | sign hmem => simp [signs] at hmem
    | word _ _ hk =>
      cases (classed_of_classify hk rfl).2 with
      | number _ hlt => exact ⟨Int.natCast_nonneg _, Int.ofNat_lt.mpr hlt⟩
  · rintro ⟨hpos, hlt⟩
    obtain ⟨n, rfl⟩ := Int.eq_ofNat_of_zero_le hpos
    have hk := classify_number (n := n) (Int.ofNat_lt.mp hlt)
    exact ⟨_, .word Nat.toDigits_ne_nil
      (fun c hc => isWordChar_of_isDigit (isDigit_of_mem_toDigits hc)) hk⟩

end Digits

end TrafficQuery
