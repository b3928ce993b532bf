import Mathlib.Data.List.Forall2
import TrafficQuery.Proofs.Json.Unambiguous
import TrafficQuery.Proofs.Token.Words

/-!
# What is written

A written text says the same characters, and a written number has the same value. Values in brackets and
braces are laid out by what lays out their parts.
-/

namespace TrafficQuery.Json

/-! ## Texts -/

theorem mem_escapes_of_escapeLetter? {c letter : Char} (h : escapeLetter? c = some letter) :
    (letter, c) ∈ escapes := by
  rw [escapeLetter?.eq_def] at h
  split at h <;> first | (cases h; decide) | cases h

theorem ne_quote_of_escapeLetter? {c : Char} (h : escapeLetter? c = none) : c ≠ '"' ∧ c ≠ '\\' := by
  constructor <;> rintro rfl <;> cases h

/-- The digit of a number below sixteen. -/
def hexDigit (n : Nat) (h : n < 16) : HexDigit where
  char := Nat.digitChar n
  value := n
  isDigit := .inl (by
    have hall : ∀ k < 16, (Nat.digitChar k, k) ∈ "0123456789abcdef".toList.zipIdx := by decide
    exact hall n h)

theorem exists_part (c : Char) : ∃ p : TextPart, p.chars = writeChar c ∧
    ∀ ps, TextParts.text? (p :: ps) = (TextParts.text? ps).map (c :: ·) := by
  rw [writeChar]
  split
  case h_1 letter h => exact ⟨.escaped letter c (mem_escapes_of_escapeLetter? h), rfl, fun _ => rfl⟩
  case h_2 h =>
    split
    case isTrue hlow =>
      let zero := hexDigit 0 (by decide)
      refine ⟨.unit zero zero (hexDigit (c.toNat / 16) (by omega)) (hexDigit (c.toNat % 16) (by omega)),
        rfl, fun ps => ?_⟩
      have hnumber : unitNumber zero zero (hexDigit (c.toNat / 16) (by omega))
          (hexDigit (c.toNat % 16) (by omega)) = c.toNat := by
        change ((0 * 16 + 0) * 16 + c.toNat / 16) * 16 + c.toNat % 16 = c.toNat
        omega
      rw [TextParts.text?.eq_def]
      simp only [hnumber]
      rw [if_neg (by omega), if_neg (by omega), Char.ofNat_toNat]
    case isFalse hlow =>
      exact ⟨.plain c ⟨by omega, ne_quote_of_escapeLetter? h⟩, rfl, fun _ => rfl⟩

/-- A text is written as a token that says it. -/
theorem exists_parts_quote (s : String) : ∃ ps : TextParts, ps.text? = some s.toList ∧
    (quote s).toList = (Token.text ps).chars := by
  have hparts (cs : List Char) : ∃ ps : TextParts, ps.text? = some cs ∧
      cs.flatMap writeChar = ps.flatMap TextPart.chars := by
    induction cs with
    | nil => exact ⟨[], rfl, rfl⟩
    | cons c cs ih =>
      obtain ⟨ps, htext, hchars⟩ := ih
      obtain ⟨p, hp, hc⟩ := exists_part c
      refine ⟨p :: ps, ?_, ?_⟩
      · rw [hc, htext]
        rfl
      · rw [List.flatMap_cons, List.flatMap_cons, hp, hchars]
  obtain ⟨ps, htext, hchars⟩ := hparts s.toList
  refine ⟨ps, htext, ?_⟩
  rw [quote, String.toList_ofList, hchars]
  rfl

/-! ## Numbers -/

theorem eq_of_head?_toDigits {n : Nat} (h : (Nat.toDigits 10 n).head? = some '0') :
    Nat.toDigits 10 n = ['0'] := by
  have hnumeral := isNumeral_toDigits n
  rw [isNumeral, Bool.or_eq_true, beq_iff_eq] at hnumeral
  refine hnumeral.resolve_right fun hpositive => ?_
  obtain ⟨c, cs, hcons, -⟩ := exists_toDigits_eq_cons n
  rw [hcons] at h hpositive
  cases h
  cases hpositive

/-- A whole number with its digits. -/
def numeral (isNegative : Bool) (n : Nat) : Numeral where
  isNegative := isNegative
  whole := Nat.toDigits 10 n
  fraction := []
  exponent := none
  whole_ne_nil := Nat.toDigits_ne_nil
  isDigit _ := isDigit_of_mem_toDigits
  leading := eq_of_head?_toDigits
  isFractionDigit _ h := absurd h List.not_mem_nil

theorem value_numeral (isNegative : Bool) (n : Nat) :
    (numeral isNegative n).value = if isNegative then -(n : ℚ) else n := by
  simp [Numeral.value, numeral]

theorem chars_numeral (isNegative : Bool) (n : Nat) : (numeral isNegative n).chars =
    if isNegative then '-' :: (toString n).toList else (toString n).toList := by
  have hunsigned : (numeral isNegative n).unsigned = (toString n).toList := by
    rw [Nat.toString_eq_ofList_toDigits, String.toList_ofList]
    exact List.append_nil _
  rw [Numeral.chars, hunsigned]
  rfl

/-- A whole number is written as a token of its value. -/
theorem exists_numeral_toString (n : Int) : ∃ m : Numeral, m.value = n ∧
    (toString n).toList = (Token.number m).chars := by
  cases n with
  | ofNat n => exact ⟨numeral false n, value_numeral false n, (chars_numeral false n).symm⟩
  | negSucc n =>
    refine ⟨numeral true (n + 1), ?_, ?_⟩
    · rw [value_numeral, Int.cast_negSucc]
      rfl
    · rw [Token.chars, chars_numeral]
      change ("-" ++ toString (n + 1)).toList = _
      rw [String.toList_append]
      rfl

/-! ## Layouts -/

/-- Characters that lay out tokens in front of any others. -/
def LaysOutTokens (cs : List Char) (ts : List Token) : Prop :=
  ∀ us rest, Layout us rest → Layout (ts ++ us) (cs ++ rest)

/-- Characters that lay out a value. -/
abbrev LaysOut (cs : List Char) (v : Tree) : Prop := LaysOutTokens cs v.tokens

def Member.tokens (m : Member) : List Token := .text m.1 :: .mark .colon :: m.2.tokens

/-- Characters that lay out a key and its value. -/
abbrev LaysOutMember (cs : List Char) (m : Member) : Prop := LaysOutTokens cs m.tokens

theorem LaysOutTokens.append {cs ds : List Char} {ts us : List Token} (h : LaysOutTokens cs ts)
    (h' : LaysOutTokens ds us) : LaysOutTokens (cs ++ ds) (ts ++ us) := by
  intro vs rest hrest
  rw [List.append_assoc, List.append_assoc]
  exact h _ _ (h' vs rest hrest)

theorem laysOut_gap {gap : List Char} (h : gap.all isBlank = true) : LaysOutTokens gap [] := by
  rintro us rest (hrest | ⟨hgap, hrest⟩)
  · exact .nil (List.forall_mem_append.mpr ⟨List.all_eq_true.mp h, hrest⟩)
  · rw [List.append_assoc, ← List.append_assoc]
    exact layout_cons_iff.mpr
      ⟨_, _, List.forall_mem_append.mpr ⟨List.all_eq_true.mp h, hgap⟩, rfl, hrest⟩

theorem laysOut_token (t : Token) : LaysOutTokens t.chars [t] :=
  fun _ _ hrest => layout_cons_iff.mpr ⟨[], _, by simp, rfl, hrest⟩

theorem laysOut_quote (s : String) : ∃ ps : TextParts, ps.text? = some s.toList ∧
    LaysOut (quote s).toList (.text ps) := by
  obtain ⟨ps, htext, hchars⟩ := exists_parts_quote s
  exact ⟨ps, htext, hchars ▸ laysOut_token (.text ps)⟩

theorem laysOut_toString (n : Int) : ∃ m : Numeral, m.value = n ∧
    LaysOut (toString n).toList (.number m) := by
  obtain ⟨m, hvalue, hchars⟩ := exists_numeral_toString n
  exact ⟨m, hvalue, hchars ▸ laysOut_token (.number m)⟩

section
variable {items : List (List Char)} (gap close : List Char)

theorem intercalate_cons (separator : List Char) (i : List Char) (items : List (List Char)) :
    separator.intercalate (i :: items) = i ++ items.flatMap (separator ++ ·) := by
  induction items generalizing i with
  | nil => simp
  | cons j items ih => rw [List.intercalate_cons_cons, ih, List.flatMap_cons, List.append_assoc,
      List.append_assoc]

/-- The tokens behind the first part of a list or an object. -/
def partTokens (closing : Mark) : List (List Token) → List Token
  | [] => [.mark closing]
  | p :: ps => .mark .comma :: p ++ partTokens closing ps

/-- The tokens of a list or an object with these parts. -/
def enclosedTokens (opening closing : Mark) : List (List Token) → List Token
  | [] => [.mark opening, .mark closing]
  | p :: ps => .mark opening :: p ++ partTokens closing ps

theorem itemTokens_eq (vs : List Tree) :
    Tree.itemTokens vs = partTokens .closeList (vs.map Tree.tokens) := by
  induction vs with
  | nil => rfl
  | cons v vs ih => rw [Tree.itemTokens, ih]; rfl

theorem tokens_list (vs : List Tree) :
    (Tree.list vs).tokens = enclosedTokens .openList .closeList (vs.map Tree.tokens) := by
  cases vs with
  | nil => rfl
  | cons v vs => rw [Tree.tokens, itemTokens_eq]; rfl

theorem memberTokens_eq (ms : List Member) :
    Tree.memberTokens ms = partTokens .closeObject (ms.map Member.tokens) := by
  induction ms with
  | nil => rfl
  | cons m ms ih => rw [Tree.memberTokens, ih]; rfl

theorem tokens_object (ms : List Member) :
    (Tree.object ms).tokens = enclosedTokens .openObject .closeObject (ms.map Member.tokens) := by
  cases ms with
  | nil => rfl
  | cons m ms => rw [Tree.tokens, memberTokens_eq]; rfl

theorem laysOut_parts {closing : Mark} (hgap : gap.all isBlank = true) (hclose : close.all isBlank = true)
    {parts : List (List Token)} (h : List.Forall₂ LaysOutTokens items parts) :
    LaysOutTokens (items.flatMap ((',' :: gap) ++ ·) ++ (close ++ [closing.char]))
      (partTokens closing parts) := by
  induction h with
  | nil => exact (laysOut_gap hclose).append (laysOut_token (.mark closing))
  | cons hi _ ih =>
    have hpart := (((laysOut_token (.mark .comma)).append (laysOut_gap hgap)).append hi).append ih
    rw [List.flatMap_cons, List.append_assoc]
    exact hpart

/-- A list or an object is laid out by what lays out its parts, with the same gap in front of each. -/
theorem laysOut_enclosed {opening closing : Mark} (hgap : gap.all isBlank = true)
    (hclose : close.all isBlank = true) {parts : List (List Token)}
    (h : List.Forall₂ LaysOutTokens items parts) :
    LaysOutTokens (opening.char :: gap ++ ((',' :: gap).intercalate items ++ (close ++ [closing.char])))
      (enclosedTokens opening closing parts) := by
  have hopen := (laysOut_token (.mark opening)).append (laysOut_gap hgap)
  cases h with
  | nil =>
    exact hopen.append ((laysOut_gap hclose).append (laysOut_token (.mark closing)))
  | cons hi hitems =>
    rw [intercalate_cons, List.append_assoc]
    exact hopen.append (hi.append (laysOut_parts gap close hgap hclose hitems))

theorem laysOut_list (hgap : gap.all isBlank = true) (hclose : close.all isBlank = true)
    {vs : List Tree} (h : List.Forall₂ LaysOut items vs) :
    LaysOut ('[' :: gap ++ ((',' :: gap).intercalate items ++ (close ++ [']']))) (.list vs) := by
  rw [LaysOut, tokens_list]
  exact laysOut_enclosed gap close hgap hclose (List.forall₂_map_right_iff.mpr h)

theorem laysOut_object (hgap : gap.all isBlank = true) (hclose : close.all isBlank = true)
    {ms : List Member} (h : List.Forall₂ LaysOutMember items ms) :
    LaysOut ('\x7b' :: gap ++ ((',' :: gap).intercalate items ++ (close ++ ['\x7d']))) (.object ms) := by
  rw [LaysOut, tokens_object]
  exact laysOut_enclosed gap close hgap hclose (List.forall₂_map_right_iff.mpr h)

/-- A member is laid out by its key and its value. -/
theorem laysOut_member (key : String) {cs : List Char} {v : Tree} (hgap : gap.all isBlank = true)
    (h : LaysOut cs v) : ∃ ps : TextParts, ps.text? = some key.toList ∧
      LaysOutMember ((quote key).toList ++ (':' :: gap ++ cs)) (ps, v) := by
  obtain ⟨ps, htext, hkey⟩ := laysOut_quote key
  have hcolon := (laysOut_token (.mark .colon)).append (laysOut_gap hgap)
  exact ⟨ps, htext, hkey.append (hcolon.append h)⟩

theorem LaysOut.writes {cs : List Char} {v : Tree} {document : String} (h : LaysOut cs v)
    (hclose : close.all isBlank = true) (hdocument : document.toList = cs ++ close) :
    v.Writes document := by
  have hlayout := h [] close (layout_nil_iff.mpr (List.all_eq_true.mp hclose))
  rw [List.append_nil, ← hdocument] at hlayout
  exact hlayout

end

end TrafficQuery.Json
