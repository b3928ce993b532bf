import TrafficQuery.Proofs.Json.Grammar

/-!
# Documents are of one value

The tokens of a document can be told from its text, and a value from its tokens. So a text is the document
of one value at most.
-/

namespace TrafficQuery.Json

/-! ## Texts -/

theorem HexDigit.hexValue?_char (a : HexDigit) : hexValue? a.char = some a.value := by
  have hall : ∀ p ∈ "0123456789abcdef".toList.zipIdx ++ "0123456789ABCDEF".toList.zipIdx,
      hexValue? p.1 = some p.2 := by decide
  exact hall _ (List.mem_append.mpr a.isDigit)

theorem HexDigit.eq_of_char_eq {a b : HexDigit} (h : a.char = b.char) : a = b := by
  have hvalue : some a.value = some b.value := by
    rw [← a.hexValue?_char, ← b.hexValue?_char, h]
  cases a
  cases b
  cases h
  cases Option.some.inj hvalue
  rfl

theorem ne_u_of_escape {letter c : Char} (h : (letter, c) ∈ escapes) : letter ≠ 'u' := by
  have hall : ∀ p ∈ escapes, p.1 ≠ 'u' := by decide
  exact hall _ h

theorem eq_of_escape {letter c d : Char} (h : (letter, c) ∈ escapes) (h' : (letter, d) ∈ escapes) :
    c = d := by
  have hall : ∀ p ∈ escapes, ∀ q ∈ escapes, p.1 = q.1 → p.2 = q.2 := by decide
  exact hall _ h _ h' rfl

variable {r r' : List Char}

theorem TextPart.chars_append_inj {p q : TextPart} (h : p.chars ++ r = q.chars ++ r') :
    p = q ∧ r = r' := by
  cases p with
  | plain c hc =>
    cases q with
    | plain d hd =>
      obtain ⟨rfl, rfl⟩ := List.cons.inj h
      exact ⟨rfl, rfl⟩
    | escaped letter d hd => exact absurd (List.cons.inj h).1 hc.2.2
    | unit a b c d => exact absurd (List.cons.inj h).1 hc.2.2
  | escaped letter c hc =>
    cases q with
    | plain d hd => exact absurd (List.cons.inj h).1.symm hd.2.2
    | escaped letter' d hd =>
      obtain ⟨rfl, rfl⟩ := List.cons.inj (List.cons.inj h).2
      obtain rfl := eq_of_escape hc hd
      exact ⟨rfl, rfl⟩
    | unit a b c d => exact absurd (List.cons.inj (List.cons.inj h).2).1 (ne_u_of_escape hc)
  | unit a b c d =>
    cases q with
    | plain d hd => exact absurd (List.cons.inj h).1.symm hd.2.2
    | escaped letter d hd =>
      exact absurd (List.cons.inj (List.cons.inj h).2).1.symm (ne_u_of_escape hd)
    | unit a' b' c' d' =>
      simp only [chars, List.cons_append, List.nil_append, List.cons.injEq, true_and] at h
      obtain ⟨ha, hb, hc, hd, hrest⟩ := h
      rw [HexDigit.eq_of_char_eq ha, HexDigit.eq_of_char_eq hb, HexDigit.eq_of_char_eq hc,
        HexDigit.eq_of_char_eq hd]
      exact ⟨rfl, hrest⟩

/-- A part of a text is not empty, and does not start with the quote that ends the text. -/
theorem TextPart.exists_chars (p : TextPart) : ∃ c cs, p.chars = c :: cs ∧ c ≠ '"' := by
  cases p with
  | plain c hc => exact ⟨c, [], rfl, hc.2.1⟩
  | escaped letter c hc => exact ⟨'\\', _, rfl, by decide⟩
  | unit a b c d => exact ⟨'\\', _, rfl, by decide⟩

theorem TextParts.chars_append_inj {ps qs : TextParts}
    (h : ps.flatMap TextPart.chars ++ '"' :: r = qs.flatMap TextPart.chars ++ '"' :: r') :
    ps = qs ∧ r = r' := by
  induction ps generalizing qs with
  | nil =>
    cases qs with
    | nil => exact ⟨rfl, (List.cons.inj h).2⟩
    | cons q qs =>
      obtain ⟨c, cs, hq, hc⟩ := q.exists_chars
      rw [List.flatMap_cons, hq] at h
      exact absurd (List.cons.inj h).1.symm hc
  | cons p ps ih =>
    cases qs with
    | nil =>
      obtain ⟨c, cs, hp, hc⟩ := p.exists_chars
      rw [List.flatMap_cons, hp] at h
      exact absurd (List.cons.inj h).1 hc
    | cons q qs =>
      rw [List.flatMap_cons, List.flatMap_cons, List.append_assoc, List.append_assoc] at h
      obtain ⟨rfl, hrest⟩ := TextPart.chars_append_inj h
      obtain ⟨rfl, hr⟩ := ih hrest
      exact ⟨rfl, hr⟩

/-! ## Numbers -/

/-- A text that does not start with a character of a class. -/
def StartsOutside (p : Char → Bool) (cs : List Char) : Prop := ∀ c ∈ cs.head?, p c = false

theorem StartsOutside.of_imp {p q : Char → Bool} {cs : List Char} (h : StartsOutside p cs)
    (hq : ∀ c, q c = true → p c = true) : StartsOutside q cs := by
  intro c hc
  have hp := h c hc
  cases hqc : q c with
  | false => rfl
  | true => rw [hq c hqc] at hp; exact hp

theorem takeWhile_append {p : Char → Bool} {l : List Char} (hl : ∀ c ∈ l, p c = true)
    (hr : StartsOutside p r) : (l ++ r).takeWhile p = l := by
  rw [List.takeWhile_append_of_pos hl]
  cases r with
  | nil => simp
  | cons c cs => rw [List.takeWhile_cons_of_neg (by simp [hr c rfl]), List.append_nil]

theorem dropWhile_append {p : Char → Bool} {l : List Char} (hl : ∀ c ∈ l, p c = true)
    (hr : StartsOutside p r) : (l ++ r).dropWhile p = r := by
  rw [List.dropWhile_append_of_pos hl]
  cases r with
  | nil => rfl
  | cons c cs => rw [List.dropWhile_cons_of_neg (by simp [hr c rfl])]

theorem append_inj_of_class {p : Char → Bool} {l l' : List Char} (hl : ∀ c ∈ l, p c = true)
    (hl' : ∀ c ∈ l', p c = true) (hr : StartsOutside p r) (hr' : StartsOutside p r')
    (h : l ++ r = l' ++ r') : l = l' ∧ r = r' := by
  have htake := congrArg (List.takeWhile p) h
  have hdrop := congrArg (List.dropWhile p) h
  rw [takeWhile_append hl hr, takeWhile_append hl' hr'] at htake
  rw [dropWhile_append hl hr, dropWhile_append hl' hr'] at hdrop
  exact ⟨htake, hdrop⟩

/-- The characters that can go on with a number. -/
def continuesNumber (c : Char) : Bool := c.isDigit || c == '.' || isExponentSign c

/-- A number ends in front of such a text. -/
abbrev EndsNumber : List Char → Prop := StartsOutside continuesNumber

theorem EndsNumber.not_isDigit (h : EndsNumber r) : StartsOutside Char.isDigit r :=
  h.of_imp (by simp +contextual [continuesNumber])

theorem Exponent.isExponentSign_mark (e : Exponent) : isExponentSign e.mark = true := by
  rcases e.isMark with h | h <;> rw [h] <;> rfl

theorem Exponent.continuesNumber_mark (e : Exponent) : continuesNumber e.mark = true := by
  rw [continuesNumber, e.isExponentSign_mark, Bool.or_true]

theorem startsOutside_exponentChars {p : Char → Bool} (hp : ∀ c, p c = true → continuesNumber c = true)
    (hsign : p 'e' = false ∧ p 'E' = false) (e : Option Exponent) (h : EndsNumber r) :
    StartsOutside p (exponentChars e ++ r) := by
  cases e with
  | none => exact h.of_imp hp
  | some e =>
    intro c hc
    cases hc
    rcases e.isMark with hmark | hmark
    · rw [hmark]
      exact hsign.1
    · rw [hmark]
      exact hsign.2

/-- The digits behind the point of a number end in front of its exponent, and there is no other point. -/
theorem startsOutside_exponent_point (e : Option Exponent) (hr : EndsNumber r) :
    StartsOutside (fun c => c.isDigit || c == '.') (exponentChars e ++ r) :=
  startsOutside_exponentChars (by simp +contextual [continuesNumber]) (by decide) e hr

/-- The digits of a number end in front of its point or its exponent. -/
theorem startsOutside_pointed (ds : List Char) (e : Option Exponent) (h : EndsNumber r) :
    StartsOutside Char.isDigit (pointed ds ++ (exponentChars e ++ r)) := by
  cases ds with
  | nil => exact startsOutside_exponentChars (by simp +contextual [continuesNumber]) (by decide) e h
  | cons c cs =>
    intro c hc
    cases hc
    rfl

theorem startsOutside_digits {ds : List Char} (h : ds ≠ []) (hds : ∀ c ∈ ds, c.isDigit = true)
    (r : List Char) : StartsOutside (!·.isDigit) (ds ++ r) := by
  obtain ⟨c, cs, rfl⟩ := List.exists_cons_of_ne_nil h
  intro d hd
  cases hd
  simp [hds c List.mem_cons_self]

theorem Exponent.not_isDigit_of_sign (e : Exponent) : ∀ c ∈ e.sign, (!c.isDigit) = true := by
  rcases e.isSign with h | h | h <;> rw [h]
  · exact List.forall_mem_nil _
  · exact List.forall_mem_singleton.mpr rfl
  · exact List.forall_mem_singleton.mpr rfl

theorem exponentChars_append_inj {e e' : Option Exponent} (hr : EndsNumber r) (hr' : EndsNumber r')
    (h : exponentChars e ++ r = exponentChars e' ++ r') : e = e' ∧ r = r' := by
  cases e with
  | none =>
    cases e' with
    | none => exact ⟨rfl, h⟩
    | some e' =>
      have hhead : e'.mark ∈ r.head? := by
        rw [show r = exponentChars (some e') ++ r' from h]
        rfl
      exact Bool.noConfusion (e'.continuesNumber_mark.symm.trans (hr _ hhead))
  | some e =>
    cases e' with
    | none =>
      have hhead : e.mark ∈ r'.head? := by
        rw [show r' = exponentChars (some e) ++ r from h.symm]
        rfl
      exact Bool.noConfusion (e.continuesNumber_mark.symm.trans (hr' _ hhead))
    | some e' =>
      simp only [exponentChars, Exponent.chars, List.cons_append, List.append_assoc,
        List.cons.injEq] at h
      obtain ⟨hmark, hbehind⟩ := h
      obtain ⟨hsign, hnumber⟩ := append_inj_of_class e.not_isDigit_of_sign e'.not_isDigit_of_sign
        (startsOutside_digits e.digits_ne_nil e.isDigit r)
        (startsOutside_digits e'.digits_ne_nil e'.isDigit r') hbehind
      obtain ⟨hdigits, hrest⟩ :=
        append_inj_of_class e.isDigit e'.isDigit hr.not_isDigit hr'.not_isDigit hnumber
      cases e
      cases e'
      cases hmark
      cases hsign
      cases hdigits
      exact ⟨rfl, hrest⟩

theorem pointed_append_inj {ds ds' : List Char} (hds : ∀ c ∈ ds, c.isDigit = true)
    (hds' : ∀ c ∈ ds', c.isDigit = true) (hr : StartsOutside (fun c => c.isDigit || c == '.') r)
    (hr' : StartsOutside (fun c => c.isDigit || c == '.') r') (h : pointed ds ++ r = pointed ds' ++ r') :
    ds = ds' ∧ r = r' := by
  have hends {r : List Char} (hr : StartsOutside (fun c => c.isDigit || c == '.') r) :
      StartsOutside Char.isDigit r := hr.of_imp (by simp +contextual)
  cases ds with
  | nil =>
    cases ds' with
    | nil => exact ⟨rfl, h⟩
    | cons c cs =>
      have hhead : '.' ∈ r.head? := by
        rw [show r = pointed (c :: cs) ++ r' from h]
        rfl
      exact Bool.noConfusion (hr _ hhead)
  | cons c cs =>
    cases ds' with
    | nil =>
      have hhead : '.' ∈ r'.head? := by
        rw [show r' = pointed (c :: cs) ++ r from h.symm]
        rfl
      exact Bool.noConfusion (hr' _ hhead)
    | cons d ds => exact append_inj_of_class hds hds' (hends hr) (hends hr') (List.cons.inj h).2

theorem Numeral.exists_unsigned (n : Numeral) : ∃ c cs, n.unsigned = c :: cs ∧ c.isDigit = true := by
  obtain ⟨c, cs, hwhole⟩ := List.exists_cons_of_ne_nil n.whole_ne_nil
  refine ⟨c, cs ++ (pointed n.fraction ++ exponentChars n.exponent), ?_, ?_⟩
  · rw [unsigned, hwhole]
    rfl
  · exact n.isDigit c (hwhole ▸ List.mem_cons_self)

/-- A number starts with a minus or a digit. -/
theorem Numeral.exists_chars (n : Numeral) :
    ∃ c cs, n.chars = c :: cs ∧ (c = '-' ∨ c.isDigit = true) := by
  rw [chars]
  split
  · exact ⟨'-', _, rfl, .inl rfl⟩
  · obtain ⟨c, cs, h, hc⟩ := n.exists_unsigned
    exact ⟨c, cs, h, .inr hc⟩

theorem Numeral.unsigned_append_inj {n m : Numeral} (hr : EndsNumber r) (hr' : EndsNumber r')
    (h : n.unsigned ++ r = m.unsigned ++ r') :
    (n.whole = m.whole ∧ n.fraction = m.fraction ∧ n.exponent = m.exponent) ∧ r = r' := by
  simp only [unsigned, List.append_assoc] at h
  obtain ⟨hwhole, h⟩ := append_inj_of_class n.isDigit m.isDigit (startsOutside_pointed _ _ hr)
    (startsOutside_pointed _ _ hr') h
  obtain ⟨hfraction, h⟩ := pointed_append_inj n.isFractionDigit m.isFractionDigit
    (startsOutside_exponent_point _ hr) (startsOutside_exponent_point _ hr') h
  obtain ⟨hexponent, h⟩ := exponentChars_append_inj hr hr' h
  exact ⟨⟨hwhole, hfraction, hexponent⟩, h⟩

theorem Numeral.unsigned_ne_minus (n : Numeral) (r cs : List Char) : n.unsigned ++ r ≠ '-' :: cs := by
  obtain ⟨c, ds, hunsigned, hc⟩ := n.exists_unsigned
  intro h
  rw [hunsigned] at h
  rw [(List.cons.inj h).1] at hc
  cases hc

theorem Numeral.chars_append_inj {n m : Numeral} (hr : EndsNumber r) (hr' : EndsNumber r')
    (h : n.chars ++ r = m.chars ++ r') : n = m ∧ r = r' := by
  have hsigns : n.isNegative = m.isNegative ∧ n.unsigned ++ r = m.unsigned ++ r' := by
    rw [chars, chars] at h
    cases hn : n.isNegative <;> cases hm : m.isNegative <;> rw [hn, hm] at h
    · exact ⟨rfl, h⟩
    · exact absurd h (n.unsigned_ne_minus r _)
    · exact absurd h.symm (m.unsigned_ne_minus r' _)
    · exact ⟨rfl, (List.cons.inj h).2⟩
  obtain ⟨⟨hwhole, hfraction, hexponent⟩, hrest⟩ := unsigned_append_inj hr hr' hsigns.2
  cases n
  cases m
  cases hsigns.1
  cases hwhole
  cases hfraction
  cases hexponent
  exact ⟨rfl, hrest⟩

/-! ## Tokens -/

/-- A text that may stand behind a token. Only a number could go on in it. -/
def Token.EndsBefore : Token → List Char → Prop
  | .number _, rest => EndsNumber rest
  | _, _ => True

/-- What the first character of a token tells about it. -/
inductive Kind
  | mark (m : Mark)
  | null
  | bool (b : Bool)
  | number
  | text
  deriving DecidableEq

def Token.kind : Token → Kind
  | .mark m => .mark m
  | .null => .null
  | .bool b => .bool b
  | .number _ => .number
  | .text _ => .text

theorem Token.eq_mark_of_kind {t : Token} {m : Mark} (h : t.kind = .mark m) : t = .mark m := by
  cases t <;> cases h
  rfl

def kindOf? : Char → Option Kind
  | '\x7b' => some (.mark .openObject)
  | '\x7d' => some (.mark .closeObject)
  | '[' => some (.mark .openList)
  | ']' => some (.mark .closeList)
  | ':' => some (.mark .colon)
  | ',' => some (.mark .comma)
  | 'n' => some .null
  | 't' => some (.bool true)
  | 'f' => some (.bool false)
  | '"' => some .text
  | '-' => some .number
  | c => if c.isDigit then some .number else none

theorem kindOf?_of_isDigit {c : Char} (h : c.isDigit = true) : kindOf? c = some .number := by
  rw [kindOf?.eq_def]
  split
  case h_12 => exact if_pos h
  all_goals exact absurd h (by decide)

theorem Token.exists_chars (t : Token) : ∃ c cs, t.chars = c :: cs ∧ kindOf? c = some t.kind := by
  cases t with
  | number n =>
    obtain ⟨c, cs, h, rfl | hc⟩ := n.exists_chars
    · exact ⟨_, cs, h, rfl⟩
    · exact ⟨c, cs, h, kindOf?_of_isDigit hc⟩
  | mark m => cases m <;> exact ⟨_, _, rfl, rfl⟩
  | bool b => cases b <;> exact ⟨_, _, rfl, rfl⟩
  | _ => exact ⟨_, _, rfl, rfl⟩

theorem eq_of_isBlank {c : Char} (h : isBlank c = true) : c = ' ' ∨ c = '\n' ∨ c = '\t' ∨ c = '\r' := by
  simpa [isBlank, or_assoc] using h

theorem kindOf?_of_isBlank {c : Char} (h : isBlank c = true) : kindOf? c = none := by
  rcases eq_of_isBlank h with rfl | rfl | rfl | rfl <;> rfl

theorem Token.chars_text (ps : TextParts) (r : List Char) :
    (Token.text ps).chars ++ r = '"' :: (ps.flatMap TextPart.chars ++ '"' :: r) := by
  rw [chars, List.cons_append, List.cons_append, List.append_assoc]
  rfl

theorem Token.chars_append_inj {t u : Token} (ht : t.EndsBefore r) (hu : u.EndsBefore r')
    (h : t.chars ++ r = u.chars ++ r') : t = u ∧ r = r' := by
  have hkind : t.kind = u.kind := by
    obtain ⟨c, cs, htc, hct⟩ := t.exists_chars
    obtain ⟨d, ds, hud, hdu⟩ := u.exists_chars
    rw [htc, hud] at h
    rw [(List.cons.inj h).1, hdu] at hct
    exact (Option.some.inj hct).symm
  -- Tokens of one kind are the same, but for numbers and texts.
  cases t <;> cases u <;> cases hkind
  case number.number.refl n m =>
    obtain ⟨rfl, hrest⟩ := Numeral.chars_append_inj ht hu h
    exact ⟨rfl, hrest⟩
  case text.text.refl ps qs =>
    rw [chars_text, chars_text] at h
    obtain ⟨rfl, hrest⟩ := TextParts.chars_append_inj (List.cons.inj h).2
    exact ⟨rfl, hrest⟩
  all_goals exact ⟨rfl, List.append_cancel_left h⟩

/-! ## Layouts -/

theorem layout_cons_iff {t : Token} {ts : List Token} {cs : List Char} : Layout (t :: ts) cs ↔
    ∃ gap rest, (∀ c ∈ gap, isBlank c = true) ∧ cs = gap ++ (t.chars ++ rest) ∧ Layout ts rest := by
  constructor
  · rintro (_ | ⟨hgap, hrest⟩)
    exact ⟨_, _, hgap, List.append_assoc _ _ _, hrest⟩
  · rintro ⟨gap, rest, hgap, rfl, hrest⟩
    rw [← List.append_assoc]
    exact .cons hgap hrest

theorem layout_nil_iff {cs : List Char} : Layout [] cs ↔ ∀ c ∈ cs, isBlank c = true := by
  constructor
  · rintro ⟨hgap⟩
    exact hgap
  · exact .nil

theorem startsOutside_chars (t : Token) (r : List Char) : StartsOutside isBlank (t.chars ++ r) := by
  obtain ⟨c, cs, h, hkind⟩ := t.exists_chars
  rw [h]
  intro d hd
  cases hd
  cases hblank : isBlank c with
  | false => rfl
  | true =>
    rw [kindOf?_of_isBlank hblank] at hkind
    cases hkind

/-- Tokens of which a number may stand in front. -/
def Delimited : List Token → Prop
  | [] => True
  | t :: _ => ∃ m, t = .mark m

/-- Tokens among which numbers are apart from what follows. -/
def Separated : List Token → Prop
  | [] => True
  | .number _ :: ts => Delimited ts ∧ Separated ts
  | _ :: ts => Separated ts

theorem not_continuesNumber_of_isBlank {c : Char} (h : isBlank c = true) :
    continuesNumber c = false := by
  rcases eq_of_isBlank h with rfl | rfl | rfl | rfl <;> rfl

theorem Delimited.endsNumber {ts : List Token} {cs : List Char} (h : Delimited ts)
    (hcs : Layout ts cs) : EndsNumber cs := by
  cases ts with
  | nil =>
    exact fun c hc => not_continuesNumber_of_isBlank (layout_nil_iff.mp hcs c (List.mem_of_mem_head? hc))
  | cons t ts =>
    obtain ⟨m, rfl⟩ := h
    obtain ⟨gap, rest, hgap, rfl, -⟩ := layout_cons_iff.mp hcs
    intro c hc
    cases gap with
    | nil =>
      cases hc
      cases m <;> rfl
    | cons d gap =>
      cases hc
      exact not_continuesNumber_of_isBlank (hgap _ List.mem_cons_self)

theorem Delimited.endsBefore {t : Token} {ts : List Token} {cs : List Char} (h : Delimited ts)
    (hcs : Layout ts cs) : t.EndsBefore cs := by
  cases t with
  | number n => exact h.endsNumber hcs
  | _ => trivial

theorem Separated.endsBefore {t : Token} {ts : List Token} {cs : List Char} (h : Separated (t :: ts))
    (hcs : Layout ts cs) : t.EndsBefore cs := by
  cases t with
  | number n => exact h.1.endsNumber hcs
  | _ => trivial

theorem Separated.tail {t : Token} {ts : List Token} (h : Separated (t :: ts)) : Separated ts := by
  cases t with
  | number n => exact h.2
  | _ => exact h

theorem not_layout_nil {t : Token} {ts : List Token} {cs : List Char} (h : Layout (t :: ts) cs) :
    ¬Layout [] cs := by
  obtain ⟨gap, rest, -, rfl, -⟩ := layout_cons_iff.mp h
  obtain ⟨c, ds, hchars, -⟩ := t.exists_chars
  intro hnil
  have hblank := layout_nil_iff.mp hnil c (by simp [hchars])
  have houtside := startsOutside_chars t rest c (by rw [hchars]; rfl)
  exact Bool.noConfusion (hblank.symm.trans houtside)

/-- The tokens of a text can be told from it. -/
theorem Layout.eq {ts us : List Token} {cs : List Char} (hts : Separated ts) (hus : Separated us)
    (h : Layout ts cs) (h' : Layout us cs) : ts = us := by
  induction ts generalizing us cs with
  | nil =>
    cases us with
    | nil => rfl
    | cons u us => exact absurd h (not_layout_nil h')
  | cons t ts ih =>
    cases us with
    | nil => exact absurd h' (not_layout_nil h)
    | cons u us =>
      obtain ⟨gap, rest, hgap, rfl, hrest⟩ := layout_cons_iff.mp h
      obtain ⟨gap', rest', hgap', heq, hrest'⟩ := layout_cons_iff.mp h'
      obtain ⟨-, hchars⟩ := append_inj_of_class hgap hgap' (startsOutside_chars t rest)
        (startsOutside_chars u rest') heq
      obtain ⟨rfl, rfl⟩ :=
        Token.chars_append_inj (hts.endsBefore hrest) (hus.endsBefore hrest') hchars
      rw [ih hts.tail hus.tail hrest hrest']

/-! ## Trees -/

namespace Tree

/-- The kind of the first token of a value. -/
def kind : Tree → Kind
  | .null => .null
  | .bool b => .bool b
  | .number _ => .number
  | .text _ => .text
  | .list _ => .mark .openList
  | .object _ => .mark .openObject

theorem exists_tokens (v : Tree) : ∃ t ts, v.tokens = t :: ts ∧ t.kind = v.kind := by
  rcases v with _ | b | n | ps | (_ | ⟨v, vs⟩) | (_ | ⟨⟨k, v⟩, ms⟩) <;> exact ⟨_, _, rfl, rfl⟩

theorem kind_eq {v w : Tree} {ts us : List Token} (h : v.tokens ++ ts = w.tokens ++ us) :
    v.kind = w.kind := by
  obtain ⟨t, vs, hv, ht⟩ := v.exists_tokens
  obtain ⟨u, ws, hw, hu⟩ := w.exists_tokens
  rw [hv, hw] at h
  rw [← ht, ← hu, (List.cons.inj h).1]

/-- A value does not start with the mark that ends a list. -/
theorem tokens_ne_closeList (v : Tree) (ts us : List Token) :
    v.tokens ++ ts ≠ .mark .closeList :: us := by
  obtain ⟨t, vs, hv, ht⟩ := v.exists_tokens
  intro h
  rw [hv] at h
  rw [(List.cons.inj h).1] at ht
  cases v <;> cases ht

theorem delimited_itemTokens (vs : List Tree) (ts : List Token) : Delimited (itemTokens vs ++ ts) := by
  cases vs <;> exact ⟨_, rfl⟩

theorem delimited_memberTokens (ms : List Member) (ts : List Token) :
    Delimited (memberTokens ms ++ ts) := by
  cases ms <;> exact ⟨_, rfl⟩

mutual

theorem separated_tokens (v : Tree) {ts : List Token} (hd : Delimited ts) (h : Separated ts) :
    Separated (v.tokens ++ ts) :=
  match v with
  | .null => h
  | .bool _ => h
  | .number _ => ⟨hd, h⟩
  | .text _ => h
  | .list [] => h
  | .list (v :: vs) => by
    rw [tokens, List.append_assoc]
    exact separated_tokens v (delimited_itemTokens vs ts) (separated_itemTokens vs h)
  | .object [] => h
  | .object ((_, v) :: ms) => by
    rw [tokens, List.append_assoc]
    exact separated_tokens v (delimited_memberTokens ms ts) (separated_memberTokens ms h)

theorem separated_itemTokens (vs : List Tree) {ts : List Token} (h : Separated ts) :
    Separated (itemTokens vs ++ ts) :=
  match vs with
  | [] => h
  | v :: vs => by
    rw [itemTokens, List.append_assoc]
    exact separated_tokens v (delimited_itemTokens vs ts) (separated_itemTokens vs h)

theorem separated_memberTokens (ms : List Member) {ts : List Token} (h : Separated ts) :
    Separated (memberTokens ms ++ ts) :=
  match ms with
  | [] => h
  | (_, v) :: ms => by
    rw [memberTokens, List.append_assoc]
    exact separated_tokens v (delimited_memberTokens ms ts) (separated_memberTokens ms h)

end

mutual

theorem tokens_append_inj (v w : Tree) {ts us : List Token} (h : v.tokens ++ ts = w.tokens ++ us) :
    v = w ∧ ts = us := by
  match v, w, kind_eq h with
  | .null, .null, _ => exact ⟨rfl, (List.cons.inj h).2⟩
  | .bool b, .bool _, rfl => exact ⟨rfl, (List.cons.inj h).2⟩
  | .number n, .number m, _ =>
    obtain ⟨hn, hrest⟩ := List.cons.inj h
    exact ⟨congrArg number (Token.number.inj hn), hrest⟩
  | .text ps, .text qs, _ =>
    obtain ⟨hps, hrest⟩ := List.cons.inj h
    exact ⟨congrArg text (Token.text.inj hps), hrest⟩
  | .list [], .list [], _ => exact ⟨rfl, (List.cons.inj (List.cons.inj h).2).2⟩
  | .list [], .list (w :: ws), _ =>
    rw [tokens, tokens, List.append_assoc] at h
    exact absurd (List.cons.inj h).2.symm (w.tokens_ne_closeList _ _)
  | .list (v :: vs), .list [], _ =>
    rw [tokens, tokens, List.append_assoc] at h
    exact absurd (List.cons.inj h).2 (v.tokens_ne_closeList _ _)
  | .list (v :: vs), .list (w :: ws), _ =>
    rw [tokens, tokens, List.append_assoc, List.append_assoc] at h
    obtain ⟨rfl, hitems⟩ := tokens_append_inj v w (List.cons.inj h).2
    obtain ⟨rfl, hrest⟩ := itemTokens_append_inj vs ws hitems
    exact ⟨rfl, hrest⟩
  | .object [], .object [], _ => exact ⟨rfl, (List.cons.inj (List.cons.inj h).2).2⟩
  | .object ((k, v) :: ms), .object ((l, w) :: ns), _ =>
    simp only [tokens, List.cons_append, List.append_assoc, List.cons.injEq, Token.text.injEq,
      true_and] at h
    obtain ⟨rfl, hvalue⟩ := h
    obtain ⟨rfl, hmembers⟩ := tokens_append_inj v w hvalue
    obtain ⟨rfl, hrest⟩ := memberTokens_append_inj ms ns hmembers
    exact ⟨rfl, hrest⟩

theorem itemTokens_append_inj (vs ws : List Tree) {ts us : List Token}
    (h : itemTokens vs ++ ts = itemTokens ws ++ us) : vs = ws ∧ ts = us := by
  match vs, ws with
  | [], [] => exact ⟨rfl, (List.cons.inj h).2⟩
  | v :: vs, w :: ws =>
    simp only [itemTokens, List.append_assoc, List.cons_append, List.cons.injEq, true_and] at h
    obtain ⟨rfl, hitems⟩ := tokens_append_inj v w h
    obtain ⟨rfl, hrest⟩ := itemTokens_append_inj vs ws hitems
    exact ⟨rfl, hrest⟩

theorem memberTokens_append_inj (ms ns : List Member) {ts us : List Token}
    (h : memberTokens ms ++ ts = memberTokens ns ++ us) : ms = ns ∧ ts = us := by
  match ms, ns with
  | [], [] => exact ⟨rfl, (List.cons.inj h).2⟩
  | (k, v) :: ms, (l, w) :: ns =>
    simp only [memberTokens, List.append_assoc, List.cons_append, List.cons.injEq, Token.text.injEq,
      true_and] at h
    obtain ⟨rfl, hvalue⟩ := h
    obtain ⟨rfl, hmembers⟩ := tokens_append_inj v w hvalue
    obtain ⟨rfl, hrest⟩ := memberTokens_append_inj ms ns hmembers
    exact ⟨rfl, hrest⟩

end

/-- A text is the document of one value at most. -/
theorem Writes.eq {v w : Tree} {document : String} (h : v.Writes document) (h' : w.Writes document) :
    v = w := by
  have hseparated (v : Tree) : Separated v.tokens := by
    rw [← List.append_nil v.tokens]
    exact v.separated_tokens trivial trivial
  have htokens : v.tokens = w.tokens := Layout.eq (hseparated v) (hseparated w) h h'
  exact (tokens_append_inj v w (congrArg (· ++ []) htokens)).1

end Tree
end TrafficQuery.Json
