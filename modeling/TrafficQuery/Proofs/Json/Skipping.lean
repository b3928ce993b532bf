import TrafficQuery.Proofs.Json.Unambiguous

/-!
# Passing over values

A value that is not needed is passed over up to its end, whatever stands around it.
-/

namespace TrafficQuery.Json
open Text

/-- What passes over something leaves these characters. -/
def Leaves {c : Cursor} (x : Except Failure c.After) (r : List Char) : Prop :=
  ∃ d, x = .ok d ∧ d.cursor.rest = r

section
variable {c : Cursor} {r : List Char}

theorem next?_of_rest {x : Char} (h : c.rest = x :: r) :
    ∃ d, c.next? = some (x, d) ∧ d.cursor.rest = r := by
  rcases c with ⟨offset, _⟩
  cases h
  exact ⟨_, rfl, rfl⟩

theorem next?_eq_none (h : c.rest = []) : c.next? = none := by
  rcases c with ⟨offset, _⟩
  cases h
  rfl

theorem rest_of_next? {x : Char} {d : c.After} (h : c.next? = some (x, d)) :
    c.rest = x :: d.cursor.rest := by
  cases hc : c.rest with
  | nil =>
    rw [next?_eq_none hc] at h
    cases h
  | cons y r =>
    obtain ⟨e, hnext, hrest⟩ := next?_of_rest hc
    cases h.symm.trans hnext
    rw [hrest]

theorem StartsOutside.of_next? {p : Char → Bool} {x : Char} {d : c.After}
    (h : StartsOutside p c.rest) (hnext : c.next? = some (x, d)) : p x = false :=
  h x (by rw [rest_of_next? hnext]; rfl)

/-! ## Texts -/

theorem exists_readUnit {a b c d : HexDigit} {o : Cursor}
    (h : o.rest = a.char :: b.char :: c.char :: d.char :: r) :
    ∃ e, readUnit o = .ok (unitNumber a b c d, e) ∧ e.cursor.rest = r := by
  have hvalue : hexValue [a.char, b.char, c.char, d.char] = some (unitNumber a b c d) := by
    simp only [hexValue, List.foldlM_cons, List.foldlM_nil, HexDigit.hexValue?_char, unitNumber]
    simp
    omega
  rcases o with ⟨offset, _⟩
  cases h
  unfold readUnit
  dsimp only
  split
  case h_1 n hlength hn =>
    cases hvalue.symm.trans hn
    exact ⟨_, rfl, rfl⟩
  case h_2 hnot => exact absurd hvalue (hnot _ rfl)

theorem escapedChar?_of_escape {letter c : Char} (h : (letter, c) ∈ escapes) :
    escapedChar? letter = some c := by
  have hall : ∀ p ∈ escapes, escapedChar? p.1 = some p.2 := by decide
  exact hall _ h

theorem leaves_skipText (ps : TextParts) {c : Cursor}
    (h : c.rest = ps.flatMap TextPart.chars ++ '"' :: r) : Leaves (skipText c) r := by
  induction ps generalizing c with
  | nil =>
    obtain ⟨d, hnext, hrest⟩ := next?_of_rest h
    refine ⟨d, ?_, hrest⟩
    rw [skipText]
    simp only [hnext]
    rfl
  | cons p ps ih =>
    rw [List.flatMap_cons, List.append_assoc] at h
    cases p with
    | plain x hx =>
      obtain ⟨d, hnext, hrest⟩ := next?_of_rest h
      obtain ⟨e, he, hleft⟩ := ih hrest
      refine ⟨d.andThen e, ?_, hleft⟩
      rw [skipText]
      simp only [hnext, if_neg hx.2.1, if_neg (Nat.not_lt.mpr hx.1), if_neg hx.2.2, he]
    | escaped letter x hx =>
      obtain ⟨d, hnext, hrest⟩ := next?_of_rest h
      obtain ⟨e, hletter, hrest⟩ := next?_of_rest hrest
      obtain ⟨f, hf, hleft⟩ := ih hrest
      refine ⟨d.andThen (e.andThen f), ?_, hleft⟩
      rw [skipText]
      simp [hnext, hletter, ne_u_of_escape hx, escapedChar?_of_escape hx, hf]
    | unit a b x y =>
      obtain ⟨d, hnext, hrest⟩ := next?_of_rest h
      obtain ⟨e, hletter, hrest⟩ := next?_of_rest hrest
      obtain ⟨f, hf, hrest⟩ := exists_readUnit hrest
      obtain ⟨g, hg, hleft⟩ := ih hrest
      refine ⟨d.andThen (e.andThen (f.andThen g)), ?_, hleft⟩
      rw [skipText]
      simp [hnext, hletter, hf, hg]

/-! ## Words and numbers -/

theorem leaves_readWord {xs : List Char} {d : c.After} (h : d.cursor.rest = xs ++ r) :
    Leaves (readWord d xs) r := by
  induction xs generalizing d with
  | nil => exact ⟨d, rfl, h⟩
  | cons x xs ih =>
    obtain ⟨e, hnext, hrest⟩ := next?_of_rest h
    obtain ⟨f, hf, hleft⟩ := ih (d := d.andThen e) hrest
    refine ⟨f, ?_, hleft⟩
    simp only [readWord, hnext, if_pos, hf]

theorem rest_andWhile {p : Char → Bool} {l : List Char} {d : c.After} (h : d.cursor.rest = l ++ r)
    (hl : ∀ x ∈ l, p x = true) (hr : StartsOutside p r) : (andWhile p d).cursor.rest = r := by
  change d.cursor.rest.dropWhile p = r
  rw [h]
  exact dropWhile_append hl hr

/-- The place behind the sign of an exponent, if it has one. -/
def behindSign (d : c.After) : c.After :=
  match d.cursor.next? with
  | some (x, e) => if x = '+' || x = '-' then d.andThen e else d
  | none => d

/-- Passes over one digit or more. -/
def skipDigits (d : c.After) : Except Failure c.After :=
  match d.cursor.next? with
  | some (x, e) =>
    if x.isDigit then .ok (andWhile Char.isDigit (d.andThen e)) else .error (failNext d.cursor .invalidNumber)
  | none => .error (failNext d.cursor .invalidNumber)

theorem skipExponent_eq (d : c.After) : skipExponent d = skipDigits (behindSign d) := rfl

theorem leaves_skipDigits {ds : List Char} (hds : ∀ x ∈ ds, x.isDigit = true) (hne : ds ≠ [])
    {d : c.After} (h : d.cursor.rest = ds ++ r) (hr : StartsOutside Char.isDigit r) :
    Leaves (skipDigits d) r := by
  obtain ⟨x, xs, rfl⟩ := List.exists_cons_of_ne_nil hne
  obtain ⟨hx, hxs⟩ := List.forall_mem_cons.mp hds
  obtain ⟨e, hnext, hrest⟩ := next?_of_rest h
  refine ⟨andWhile Char.isDigit (d.andThen e), ?_, rest_andWhile hrest hxs hr⟩
  simp only [skipDigits, hnext, if_pos hx]

theorem leaves_skipExponent (e : Exponent) {d : c.After} (h : d.cursor.rest = e.sign ++ (e.digits ++ r))
    (hr : StartsOutside Char.isDigit r) : Leaves (skipExponent d) r := by
  rw [skipExponent_eq]
  refine leaves_skipDigits e.isDigit e.digits_ne_nil ?_ hr
  rcases e.isSign with hsign | hsign | hsign <;> rw [hsign] at h
  · obtain ⟨x, xs, hdigits⟩ := List.exists_cons_of_ne_nil e.digits_ne_nil
    have hx : x.isDigit = true := e.isDigit x (hdigits ▸ List.mem_cons_self)
    have hnot : ¬((x = '+' || x = '-') = true) := by
      simp only [Bool.or_eq_true, decide_eq_true_eq]
      rintro (rfl | rfl) <;> cases hx
    rw [hdigits] at h ⊢
    obtain ⟨f, hnext, -⟩ := next?_of_rest h
    have hsame : behindSign d = d := by
      rw [behindSign, hnext]
      exact if_neg hnot
    rw [hsame]
    exact h
  · obtain ⟨f, hnext, hrest⟩ := next?_of_rest h
    rw [behindSign, hnext]
    exact hrest
  · obtain ⟨f, hnext, hrest⟩ := next?_of_rest h
    rw [behindSign, hnext]
    exact hrest

theorem leaves_skipOptionalExponent (e : Option Exponent) {d : c.After}
    (h : d.cursor.rest = exponentChars e ++ r) (hr : EndsNumber r) :
    Leaves (skipOptionalExponent d) r := by
  cases e with
  | none =>
    refine ⟨d, ?_, h⟩
    cases r with
    | nil => simp only [skipOptionalExponent, next?_eq_none h]
    | cons x r =>
      obtain ⟨f, hnext, -⟩ := next?_of_rest h
      have hx : isExponentSign x = false := by
        have hcontinues := hr x rfl
        simp only [continuesNumber, Bool.or_eq_false_iff] at hcontinues
        exact hcontinues.2
      simp only [skipOptionalExponent, hnext, hx]
      rfl
  | some e =>
    rw [exponentChars, Exponent.chars, List.cons_append, List.cons_append, List.append_assoc] at h
    obtain ⟨f, hnext, hrest⟩ := next?_of_rest h
    obtain ⟨g, hg, hleft⟩ := leaves_skipExponent e (d := d.andThen f) hrest hr.not_isDigit
    refine ⟨g, ?_, hleft⟩
    simp only [skipOptionalExponent, hnext, e.isExponentSign_mark, if_pos, hg]

theorem leaves_skipRemainder {ds : List Char} (hds : ∀ x ∈ ds, x.isDigit = true)
    (e : Option Exponent) {d : c.After}
    (h : d.cursor.rest = pointed ds ++ (exponentChars e ++ r)) (hr : EndsNumber r) :
    Leaves (skipRemainder d) r := by
  -- Without digits behind a point, neither the exponent nor what follows the number may start like one.
  have hpoint := startsOutside_exponent_point e hr
  cases ds with
  | nil =>
    have hremainder : skipRemainder d = skipOptionalExponent d := by
      unfold skipRemainder
      split
      case h_1 f hnext =>
        have hrest : d.cursor.rest = exponentChars e ++ r := h
        cases (hrest ▸ hpoint).of_next? hnext
      case h_2 => rfl
    rw [hremainder]
    exact leaves_skipOptionalExponent e h hr
  | cons x xs =>
    obtain ⟨hx, hxs⟩ := List.forall_mem_cons.mp hds
    obtain ⟨f, hpointed, hrest⟩ := next?_of_rest h
    obtain ⟨g, hnext, hrest⟩ := next?_of_rest hrest
    obtain ⟨i, hi, hleft⟩ := leaves_skipOptionalExponent e
      (d := andWhile Char.isDigit (d.andThen (f.andThen g)))
      (rest_andWhile hrest hxs (hpoint.of_imp (by simp +contextual))) hr
    refine ⟨i, ?_, hleft⟩
    simp only [skipRemainder, hpointed, hnext, if_pos hx, hi]

theorem leaves_skipNumber (n : Numeral) {c : Cursor} (h : c.rest = n.unsigned ++ r)
    (hr : EndsNumber r) : Leaves (skipNumber c) r := by
  rw [Numeral.unsigned, List.append_assoc, List.append_assoc] at h
  have hbehind := startsOutside_pointed n.fraction n.exponent hr
  obtain ⟨x, xs, hwhole⟩ := List.exists_cons_of_ne_nil n.whole_ne_nil
  rw [hwhole] at h
  obtain ⟨hx, hxs⟩ := List.forall_mem_cons.mp (hwhole ▸ n.isDigit)
  obtain ⟨d, hnext, hrest⟩ := next?_of_rest h
  unfold skipNumber
  split
  case h_1 hnone => cases hnone.symm.trans hnext
  case h_2 d' hzero =>
    cases hnext.symm.trans hzero
    have hxs : xs = [] := by
      have hleading := n.leading (by rw [hwhole]; rfl)
      rw [hwhole] at hleading
      exact (List.cons.inj hleading).2
    rw [hxs] at hrest
    have hbehindZero : d.cursor.rest = pointed n.fraction ++ (exponentChars n.exponent ++ r) := hrest
    have hremainder := leaves_skipRemainder n.isFractionDigit n.exponent hbehindZero hr
    split
    case h_1 y f hy =>
      have hdigit : y.isDigit = false := (hbehindZero ▸ hbehind).of_next? hy
      rw [if_neg (Bool.eq_false_iff.mp hdigit)]
      exact hremainder
    case h_2 => exact hremainder
  case h_3 y d' hzero hsome =>
    cases hnext.symm.trans hsome
    rw [if_pos hx]
    exact leaves_skipRemainder n.isFractionDigit n.exponent (rest_andWhile hrest hxs hbehind) hr

/-! ## Layouts -/

variable {t : Token} {ts : List Token}

theorem exists_rest_skipBlanks (h : Layout (t :: ts) c.rest) :
    ∃ r, (skipBlanks c).rest = t.chars ++ r ∧ Layout ts r := by
  obtain ⟨gap, r, hgap, hrest, hr⟩ := layout_cons_iff.mp h
  refine ⟨r, ?_, hr⟩
  change c.rest.dropWhile isBlank = t.chars ++ r
  rw [hrest]
  exact dropWhile_append hgap (startsOutside_chars t r)

theorem rest_skipBlanks_eq_nil (h : Layout [] c.rest) : (skipBlanks c).rest = [] := by
  change c.rest.dropWhile isBlank = []
  rw [← List.append_nil c.rest]
  exact dropWhile_append (layout_nil_iff.mp h) fun _ hx => by cases hx

theorem exists_next?_mark {m : Mark} (h : Layout (.mark m :: ts) c.rest) :
    ∃ d, (skipBlanks c).next? = some (m.char, d) ∧ Layout ts d.cursor.rest := by
  obtain ⟨r, hrest, hr⟩ := exists_rest_skipBlanks h
  obtain ⟨d, hnext, rfl⟩ := next?_of_rest hrest
  exact ⟨d, hnext, hr⟩

theorem exists_next?_text {ps : TextParts} (h : Layout (.text ps :: ts) c.rest) :
    ∃ d r, (skipBlanks c).next? = some ('"', d) ∧
      d.cursor.rest = ps.flatMap TextPart.chars ++ '"' :: r ∧ Layout ts r := by
  obtain ⟨r, hrest, hr⟩ := exists_rest_skipBlanks h
  rw [Token.chars_text] at hrest
  obtain ⟨d, hnext, hd⟩ := next?_of_rest hrest
  exact ⟨d, r, hnext, hd, hr⟩

/-- The next character tells the kind of the next value. -/
theorem exists_next?_tree {v : Tree} (h : Layout (v.tokens ++ ts) c.rest) :
    ∃ x d, (skipBlanks c).next? = some (x, d) ∧ kindOf? x = some v.kind := by
  obtain ⟨t, us, hv, ht⟩ := v.exists_tokens
  rw [hv] at h
  obtain ⟨r, hrest, -⟩ := exists_rest_skipBlanks h
  obtain ⟨x, xs, hx, hkind⟩ := t.exists_chars
  rw [hx] at hrest
  obtain ⟨d, hnext, -⟩ := next?_of_rest hrest
  exact ⟨x, d, hnext, ht ▸ hkind⟩

theorem exists_readColon (h : Layout (.mark .colon :: ts) c.rest) :
    ∃ d, readColon c = .ok d ∧ Layout ts d.cursor.rest := by
  obtain ⟨d, hnext, hd⟩ := exists_next?_mark h
  refine ⟨behindBlanks d, ?_, hd⟩
  simp only [readColon, hnext, Mark.char]

theorem exists_skipKey {k : TextParts} (h : Layout (.text k :: .mark .colon :: ts) c.rest) :
    ∃ d, skipKey c = .ok d ∧ Layout ts d.cursor.rest := by
  obtain ⟨d, r, hnext, hd, hr⟩ := exists_next?_text h
  obtain ⟨e, he, rfl⟩ := leaves_skipText k hd
  obtain ⟨f, hf, hleft⟩ := exists_readColon hr
  refine ⟨behindBlanks (d.andThen (e.andThen f)), ?_, hleft⟩
  simp only [skipKey, hnext, he, bind, Except.bind, hf]
  rfl

theorem leaves_skipScalar {x : Char} {d : c.After} (ht : ∀ m, t ≠ .mark m)
    (h : c.rest = t.chars ++ r) (hr : t.EndsBefore r) (hnext : c.next? = some (x, d)) :
    Leaves (skipScalar c x d) r := by
  have hrest := (rest_of_next? hnext).symm.trans h
  cases t with
  | mark m => exact absurd rfl (ht m)
  | null =>
    obtain ⟨rfl, hd⟩ := List.cons.inj hrest
    exact leaves_readWord hd
  | bool b =>
    cases b
    · obtain ⟨rfl, hd⟩ := List.cons.inj hrest
      exact leaves_readWord hd
    · obtain ⟨rfl, hd⟩ := List.cons.inj hrest
      exact leaves_readWord hd
  | text ps =>
    rw [Token.chars_text] at hrest
    obtain ⟨rfl, hd⟩ := List.cons.inj hrest
    obtain ⟨e, he, hleft⟩ := leaves_skipText ps hd
    refine ⟨d.andThen e, ?_, hleft⟩
    simp only [skipScalar, he]
    rfl
  | number n =>
    rw [Token.chars, Numeral.chars] at hrest h
    split at hrest
    case isTrue hnegative =>
      obtain ⟨rfl, hd⟩ := List.cons.inj hrest
      obtain ⟨e, he, hleft⟩ := leaves_skipNumber n hd hr
      refine ⟨d.andThen e, ?_, hleft⟩
      simp only [skipScalar, he]
      rfl
    case isFalse hnegative =>
      rw [if_neg hnegative] at h
      obtain ⟨y, ys, hunsigned, hy⟩ := n.exists_unsigned
      have hx : x.isDigit = true := by
        rw [hunsigned] at hrest
        rw [(List.cons.inj hrest).1, hy]
      unfold skipScalar
      split
      case h_6 =>
        rw [if_pos hx]
        exact leaves_skipNumber n h hr
      all_goals exact absurd hx (by decide)

/-! ## Values -/

variable {o : Cursor} {around : List Enclosure}

/-- A value that is one token is passed over. -/
theorem exists_skipValue_token (ht : ∀ m, t ≠ .mark m) (hd : Delimited ts)
    (ho : c.rest.length ≤ o.rest.length) (h : Layout (t :: ts) c.rest) :
    ∃ e : o.After, skipValue around c ho = skipEnd around e ∧ Layout ts e.cursor.rest := by
  obtain ⟨r, hrest, hr⟩ := exists_rest_skipBlanks h
  obtain ⟨x, xs, hchars, hkind⟩ := t.exists_chars
  obtain ⟨d, hnext, -⟩ := next?_of_rest (hrest.trans (congrArg (· ++ r) hchars))
  obtain ⟨e, he, rfl⟩ := leaves_skipScalar ht hrest (hd.endsBefore hr) hnext
  refine ⟨(behindBlanks e).within ho, ?_, hr⟩
  rw [skipValue]
  simp only []
  split
  case h_1 hnone => cases hnone.symm.trans hnext
  case h_2 hlist =>
    cases hnext.symm.trans hlist
    exact absurd (Token.eq_mark_of_kind (Option.some.inj hkind).symm) (ht .openList)
  case h_3 hobject =>
    cases hnext.symm.trans hobject
    exact absurd (Token.eq_mark_of_kind (Option.some.inj hkind).symm) (ht .openObject)
  case h_4 hsome =>
    cases hnext.symm.trans hsome
    rw [he]

mutual

/-- A value is passed over with what it encloses, and then its own enclosures go on. -/
theorem exists_skipValue (v : Tree) (around : List Enclosure) {ts : List Token} {c o : Cursor}
    (hd : Delimited ts) (ho : c.rest.length ≤ o.rest.length) (h : Layout (v.tokens ++ ts) c.rest) :
    ∃ e : o.After, skipValue around c ho = skipEnd around e ∧ Layout ts e.cursor.rest := by
  match v with
  | .null => exact exists_skipValue_token (t := .null) (fun _ => nofun) hd ho h
  | .bool b => exact exists_skipValue_token (t := .bool b) (fun _ => nofun) hd ho h
  | .number n => exact exists_skipValue_token (t := .number n) (fun _ => nofun) hd ho h
  | .text ps => exact exists_skipValue_token (t := .text ps) (fun _ => nofun) hd ho h
  | .list [] =>
    obtain ⟨d, hopen, hd⟩ := exists_next?_mark h
    obtain ⟨e, hclose, he⟩ := exists_next?_mark hd
    refine ⟨(behindBlanks (d.andThen (behindBlanks e))).within ho, ?_, he⟩
    rw [skipValue]
    simp only [hopen, hclose, Mark.char]
  | .list (v :: vs) =>
    rw [Tree.tokens, List.append_assoc] at h
    obtain ⟨d, hopen, hd⟩ := exists_next?_mark h
    obtain ⟨e, he, hleft⟩ := exists_skipValue v (.list :: around) (Tree.delimited_itemTokens vs ts)
      (((behindBlanks d).within ho).le) hd
    obtain ⟨f, hf, hrest⟩ := exists_skipEnd_items vs around hleft
    refine ⟨f, ?_, hrest⟩
    obtain ⟨x, g, hnext, hkind⟩ := exists_next?_tree hd
    rw [skipValue]
    simp only [hopen, Mark.char]
    split
    case h_1 hnone => cases hnone.symm.trans hnext
    case h_2 hclose =>
      cases hnext.symm.trans hclose
      cases v <;> cases hkind
    case h_3 => exact he.trans hf
  | .object [] =>
    obtain ⟨d, hopen, hd⟩ := exists_next?_mark h
    obtain ⟨e, hclose, he⟩ := exists_next?_mark hd
    refine ⟨(behindBlanks (d.andThen (behindBlanks e))).within ho, ?_, he⟩
    rw [skipValue]
    simp only [hopen, hclose, Mark.char]
  | .object ((k, v) :: ms) =>
    rw [Tree.tokens, List.append_assoc] at h
    obtain ⟨d, hopen, hd⟩ := exists_next?_mark h
    obtain ⟨i, r, hkey, -, -⟩ := exists_next?_text hd
    obtain ⟨f, hf, hd⟩ := exists_skipKey hd
    obtain ⟨e, he, hleft⟩ := exists_skipValue v (.object :: around) (Tree.delimited_memberTokens ms ts)
      (((behindBlanks (d.andThen f)).within ho).le) hd
    obtain ⟨g, hg, hrest⟩ := exists_skipEnd_members ms around hleft
    refine ⟨g, ?_, hrest⟩
    rw [skipValue]
    simp only [hopen, Mark.char, hkey, hf]
    exact he.trans hg

theorem exists_skipEnd_items (vs : List Tree) (around : List Enclosure) {ts : List Token}
    {o : Cursor} {c : o.After} (h : Layout (Tree.itemTokens vs ++ ts) c.cursor.rest) :
    ∃ e : o.After, skipEnd (.list :: around) c = skipEnd around e ∧ Layout ts e.cursor.rest := by
  match vs with
  | [] =>
    obtain ⟨d, hclose, hd⟩ := exists_next?_mark h
    refine ⟨c.andThen (behindBlanks d), ?_, hd⟩
    rw [skipEnd]
    simp only [hclose, Mark.char]
  | v :: vs =>
    rw [Tree.itemTokens, List.append_assoc] at h
    obtain ⟨d, hcomma, hd⟩ := exists_next?_mark h
    obtain ⟨e, he, hleft⟩ := exists_skipValue v (.list :: around) (Tree.delimited_itemTokens vs ts)
      ((c.andThen (behindBlanks d)).le) hd
    obtain ⟨f, hf, hrest⟩ := exists_skipEnd_items vs around hleft
    refine ⟨f, ?_, hrest⟩
    rw [skipEnd]
    simp only [hcomma, Mark.char]
    exact he.trans hf

theorem exists_skipEnd_members (ms : List Member) (around : List Enclosure) {ts : List Token}
    {o : Cursor} {c : o.After} (h : Layout (Tree.memberTokens ms ++ ts) c.cursor.rest) :
    ∃ e : o.After, skipEnd (.object :: around) c = skipEnd around e ∧ Layout ts e.cursor.rest := by
  match ms with
  | [] =>
    obtain ⟨d, hclose, hd⟩ := exists_next?_mark h
    refine ⟨c.andThen (behindBlanks d), ?_, hd⟩
    rw [skipEnd]
    simp only [hclose, Mark.char]
  | (k, v) :: ms =>
    rw [Tree.memberTokens, List.append_assoc] at h
    obtain ⟨d, hcomma, hd⟩ := exists_next?_mark h
    obtain ⟨e, he, hd⟩ := exists_skipKey hd
    obtain ⟨f, hf, hleft⟩ := exists_skipValue v (.object :: around) (Tree.delimited_memberTokens ms ts)
      ((c.andThen (behindBlanks (d.andThen e))).le) hd
    obtain ⟨g, hg, hrest⟩ := exists_skipEnd_members ms around hleft
    refine ⟨g, ?_, hrest⟩
    rw [skipEnd]
    simp only [hcomma, Mark.char, he]
    exact hf.trans hg

end

end

end TrafficQuery.Json
