import TrafficQuery.Proofs.Query.Agreement

/-!
# Letter case outside strings

Where letters outside quoted strings change their case, tokens are read at the same places, and are of
the same kinds. Names and uuids keep what they are called in, but for its case; strings keep every
character.
-/

namespace TrafficQuery
open Text

/-- The same text, but for the case of letters that are not within quotes. Behind a quote that is never
closed there is no quoted string. -/
inductive Recased : List Char → List Char → Prop
  | nil : Recased [] []
  | char {c d : Char} {cs ds : List Char} :
      isQuote c = false → SameLetter c d → Recased cs ds → Recased (c :: cs) (d :: ds)
  | string {q : Char} {text cs ds : List Char} :
      isQuote q = true → q ∉ text → Recased cs ds →
      Recased (q :: (text ++ q :: cs)) (q :: (text ++ q :: ds))
  | unclosed {q : Char} {cs ds : List Char} :
      isQuote q = true → q ∉ cs → SameLetters cs ds → Recased (q :: cs) (q :: ds)

/-! ## Characters and words -/

namespace Text.SameLetter
variable {c d : Char}

theorem isWordChar_eq (h : SameLetter c d) : isWordChar c = isWordChar d := h.apply_eq (by decide)

theorem isQuote_eq (h : SameLetter c d) : isQuote c = isQuote d := h.apply_eq (by decide)

end Text.SameLetter

theorem sign?_less (cs : List Char) : sign? ('<' :: cs) =
    if cs.head? = some '=' then some (.order .le, 2) else some (.order .lt, 1) := by
  rcases cs with _ | ⟨c, cs⟩
  · rfl
  · by_cases hc : c = '='
    · subst hc
      rfl
    · simp [sign?, hc]

theorem sign?_greater (cs : List Char) : sign? ('>' :: cs) =
    if cs.head? = some '=' then some (.order .ge, 2) else some (.order .gt, 1) := by
  rcases cs with _ | ⟨c, cs⟩
  · rfl
  · by_cases hc : c = '='
    · subst hc
      rfl
    · simp [sign?, hc]

/-- The characters that a sign can start with. -/
def isSignStart (c : Char) : Bool := ['.', '(', ')', '=', '<', '>'].contains c

/-- Of the text behind its first character a sign takes notice only of a sign of equality. -/
theorem sign?_cons_congr {c : Char} (hc : isSignStart c = true) {cs ds : List Char}
    (h : cs.head? = some '=' ↔ ds.head? = some '=') : sign? (c :: cs) = sign? (c :: ds) := by
  simp only [isSignStart, List.contains_iff_mem, List.mem_cons, List.not_mem_nil, or_false] at hc
  rcases hc with rfl | rfl | rfl | rfl | rfl | rfl
  case inr.inr.inr.inr.inl => simp only [sign?_less, h]
  case inr.inr.inr.inr.inr => simp only [sign?_greater, h]
  all_goals rfl

/-- A quote that is never closed starts no token. -/
theorem leadingToken_unclosed {q : Char} {body : List Char} (hq : isQuote q = true) (hn : q ∉ body) :
    leadingToken (q :: body) = .error .unterminatedString := by
  have hall : ∀ c ∈ body, (c != q) = true := fun c hc => bne_iff_ne.mpr fun h => hn (h ▸ hc)
  have hbody : (body ++ []).takeWhile (· != q) = body ++ [].takeWhile (· != q) :=
    List.takeWhile_append_of_pos hall
  rw [List.append_nil, List.takeWhile_nil, List.append_nil] at hbody
  simp [leadingToken, sign?_eq_none_of_isQuote hq, hq, quotedString, hbody]

theorem not_isQuote_of_mem_signs {w : List Char} {k : Kind} (h : (w, k) ∈ signs) :
    ∀ c ∈ w, isQuote c = false := by
  have hall : (signs.all fun s => s.1.all fun c => !isQuote c) = true := by decide
  have hw := List.all_eq_true.mp hall _ h
  intro c hc
  simpa using List.all_eq_true.mp hw c hc

section
variable {w w' cs ds : List Char}

theorem sign?_eq_of_sameLetters (h : SameLetters cs ds) : sign? cs = sign? ds := by
  cases h with
  | nil => rfl
  | @cons c d cs ds hc hcs =>
    have hhead : cs.head? = some '=' ↔ ds.head? = some '=' := by
      cases hcs with
      | nil => rfl
      | @cons a b _ _ hab _ =>
        have hiff : (a == '=') = (b == '=') :=
          hab.apply_eq (f := (· == '=')) (by decide)
        simpa using hiff
    have hnone {c : Char} (h : isSignStart c = false) (cs : List Char) : sign? (c :: cs) = none :=
      sign?_eq_none (by simpa [isSignStart] using h) cs
    cases hsign : isSignStart c with
    | true =>
      obtain rfl := hc.eq_of_class hsign (by decide)
      exact sign?_cons_congr hsign hhead
    | false =>
      have hsign' : isSignStart d = false := (hc.apply_eq (by decide)).symm.trans hsign
      rw [hnone hsign, hnone hsign']

/-- Digits have no case, so there is one way to write a number. -/
theorem eq_of_isNumeral (h : SameLetters w w') (hw : isNumeral (foldWord w) = true) : w' = w := by
  have hdigit := isDigit_of_isNumeral hw
  clear hw
  induction h with
  | nil => rfl
  | @cons c d _ _ hc _ ih =>
    obtain ⟨hdigit, hrest⟩ := List.forall_mem_cons.mp hdigit
    obtain rfl := hc.eq_of_class (p := fun c => (foldCase c).isDigit) hdigit (by decide)
    rw [ih hrest]

/-- Words that differ in case alone are of one class, as which they are read to one kind. -/
theorem WordClass.agree_read {c : WordClass} (h : SameLetters w w')
    (hc : c.accepts (foldWord w) = true) :
    Agree (LexFault.Resembles lower) (Kind.Resembles lower) (c.read w) (c.read w') := by
  have hfold : w'.map foldCase = w.map foldCase := (h.map_eq SameLetter.foldCase_eq).symm
  have htext := h.lower_eq
  cases c with
  | reserved =>
    simp only [WordClass.read, hfold]
    split
    · exact .ok (.same _)
    · exact .error (.invalidToken htext)
  | duration =>
    simp only [WordClass.read, hfold]
    split
    · split
      · exact .ok (.same _)
      · exact .error (.invalidDuration rfl)
    · exact .error (.invalidToken htext)
  | identifier => exact .ok (.identifier htext)
  | uuid => exact .ok (.uuid htext)
  | headerName => exact .ok (.headerName htext)
  | number =>
    obtain rfl := eq_of_isNumeral h hc
    simp only [WordClass.read]
    split
    · exact .ok (.same _)
    · exact .error (.invalidNumber rfl)

theorem agree_classify (h : SameLetters w w') :
    Agree (LexFault.Resembles lower) (Kind.Resembles lower) (classify w) (classify w') := by
  have hfold : w'.map foldCase = w.map foldCase := (h.map_eq SameLetter.foldCase_eq).symm
  unfold classify classifyIn
  rw [hfold]
  split
  case h_1 c hfind => exact WordClass.agree_read h (List.find?_some hfind)
  case h_2 => exact .error (.invalidToken h.lower_eq)

/-- A quote is found in both texts or in neither. -/
theorem Text.SameLetters.quote_not_mem {q : Char} (h : SameLetters cs ds) (hq : isQuote q = true)
    (hn : q ∉ cs) : q ∉ ds := by
  induction h with
  | nil => exact hn
  | @cons c d cs ds hc _ ih =>
    rw [List.mem_cons, not_or] at hn ⊢
    refine ⟨?_, ih hn.2⟩
    rintro rfl
    have hdc : SameLetter q c := hc.symm
    exact hn.1 (hdc.eq_of_class hq (by decide)).symm

end

/-! ## Recased texts -/

namespace Recased
variable {cs ds : List Char}

theorem sameLetters (h : Recased cs ds) : SameLetters cs ds := by
  have hsame (text : List Char) : SameLetters text text := List.forall₂_same.mpr fun _ _ => rfl
  induction h with
  | nil => exact .nil
  | char _ hc _ ih => exact .cons hc ih
  | string _ _ _ ih => exact .cons rfl (List.rel_append (hsame _) (.cons rfl ih))
  | unclosed _ _ hcs => exact .cons rfl hcs

/-- Letters in front of two texts may be in any case as well. -/
theorem append_of_sameLetters {as bs : List Char} (hsame : SameLetters as bs)
    (hplain : ∀ c ∈ as, isQuote c = false) (h : Recased cs ds) : Recased (as ++ cs) (bs ++ ds) := by
  induction hsame with
  | nil => exact h
  | cons hc _ ih =>
    obtain ⟨hplain, hrest⟩ := List.forall_mem_cons.mp hplain
    exact .char hplain hc (ih hrest)

/-- Behind characters that are no quotes the texts go on as such. -/
theorem drop (h : Recased cs ds) {n : Nat} (hn : ∀ c ∈ cs.take n, isQuote c = false) :
    Recased (cs.drop n) (ds.drop n) := by
  induction n generalizing cs ds with
  | zero => exact h
  | succ n ih =>
    cases h with
    | nil => exact .nil
    | char _ _ hrest => exact ih hrest fun c hc => hn c (List.mem_cons_of_mem _ hc)
    | string hq | unclosed hq =>
      have hnot := hn _ List.mem_cons_self
      rw [hq] at hnot
      cases hnot

/-- Behind characters of a class without quotes the texts go on as such. -/
theorem dropWhile {p : Char → Bool} (h : Recased cs ds)
    (hp : ∀ {c d : Char}, SameLetter c d → p c = p d) (hquote : ∀ c, isQuote c = true → p c = false) :
    Recased (cs.dropWhile p) (ds.dropWhile p) := by
  induction h with
  | nil => exact .nil
  | @char c d cs ds hc hcd hrest ih =>
    rw [List.dropWhile_cons, List.dropWhile_cons, ← hp hcd]
    cases p c with
    | true => exact ih
    | false => exact .char hc hcd hrest
  | string hq hn hrest =>
    rw [List.dropWhile_cons_of_neg (by simp [hquote _ hq]),
      List.dropWhile_cons_of_neg (by simp [hquote _ hq])]
    exact .string hq hn hrest
  | unclosed hq hn hcs =>
    rw [List.dropWhile_cons_of_neg (by simp [hquote _ hq]),
      List.dropWhile_cons_of_neg (by simp [hquote _ hq])]
    exact .unclosed hq hn hcs

/-- How the leading tokens of two texts resemble each other: in their kinds and their lengths, in front
of texts that go on as such. -/
structure Leads (cs ds : List Char) (r r' : Kind × Nat) : Prop where
  kind : r.1.Resembles lower r'.1
  length : r'.2 = r.2
  rest : Recased (cs.drop r.2) (ds.drop r'.2)

theorem agree_leadingWord (h : Recased cs ds) :
    Agree (LexFault.Resembles lower) (Leads cs ds) (leadingWord cs) (leadingWord ds) := by
  have hword : SameLetters (cs.takeWhile isWordChar) (ds.takeWhile isWordChar) :=
    h.sameLetters.takeWhile SameLetter.isWordChar_eq
  have hlength := hword.length_eq.symm
  have hrest : Recased (cs.drop (cs.takeWhile isWordChar).length)
      (ds.drop (ds.takeWhile isWordChar).length) := by
    rw [hlength]
    refine h.drop fun c hc => not_isQuote_of_isWordChar ?_
    rw [← List.prefix_iff_eq_take.mp (List.takeWhile_prefix isWordChar)] at hc
    exact List.all_eq_true.mp List.all_takeWhile c hc
  exact (agree_classify hword).map fun _ _ hk => ⟨hk, hlength, hrest⟩

theorem agree_leadingToken (h : Recased cs ds) (hne : cs ≠ []) :
    Agree (LexFault.Resembles lower) (Leads cs ds) (leadingToken cs) (leadingToken ds) := by
  cases h with
  | nil => exact absurd rfl hne
  | @char c d cs ds hq hcd hrest =>
    have hall : Recased (c :: cs) (d :: ds) := .char hq hcd hrest
    have hsign := sign?_eq_of_sameLetters hall.sameLetters
    have hq' : isQuote d = false := hcd.isQuote_eq.symm.trans hq
    cases hs : sign? (c :: cs) with
    | some sign =>
      have hplain : ∀ a ∈ (c :: cs).take sign.2, isQuote a = false :=
        not_isQuote_of_mem_signs (mem_signs_of_sign? hs)
      simp only [leadingToken, ← hsign, hs]
      exact .ok ⟨.same _, rfl, hall.drop hplain⟩
    | none =>
      simp only [leadingToken, ← hsign, hs, hq, hq']
      exact agree_leadingWord hall
  | string hq hn hrest =>
    rw [leadingToken_string hq hn, leadingToken_string hq hn]
    refine .ok ⟨.same _, rfl, ?_⟩
    simpa using hrest
  | unclosed hq hn hcs =>
    rw [leadingToken_unclosed hq hn, leadingToken_unclosed hq (hcs.quote_not_mem hq hn)]
    exact .error .unterminatedString

end Recased

/-! ## Readings and scans -/

/-- Items at one place: tokens that resemble each other, or the end of the input. -/
inductive Item.Resembles : Item → Item → Prop
  | token {t u : Token} : t.Resembles lower Eq u → Resembles (.token t) (.token u)
  | endOfInput (n : Nat) : Resembles (.endOfInput n) (.endOfInput n)

namespace Text.Cursor
variable {c d : Cursor}

/-- Places with one offset in front of texts that differ in case alone. -/
structure Recased (c d : Cursor) : Prop where
  offset : c.offset = d.offset
  rest : TrafficQuery.Recased c.rest d.rest

theorem Recased.skipBlanks (h : c.Recased d) : c.skipBlanks.Recased d.skipBlanks := by
  have hblanks := h.rest.sameLetters.takeWhile SameLetter.isBlank_eq
  refine ⟨?_, h.rest.dropWhile SameLetter.isBlank_eq fun c hc => ?_⟩
  · rw [Cursor.skipBlanks, Cursor.skipBlanks, skipWhile, skipWhile, past, past, h.offset,
      hblanks.byteLength_eq]
  · rw [isQuote, Bool.or_eq_true, beq_iff_eq, beq_iff_eq] at hc
    rcases hc with rfl | rfl <;> rfl

/-- What two readings have in common. -/
structure ReadsAlike (r r' : Item × Cursor) : Prop where
  item : r.1.Resembles r'.1
  cursor : r.2.Recased r'.2

theorem Recased.agree_read (h : c.Recased d) :
    Agree (fun e e' : LexError => e.fault.Resembles lower e'.fault ∧ e.position = e'.position) ReadsAlike
      c.read d.read := by
  obtain ⟨hoffset, hrest⟩ := h.skipBlanks
  have hempty : c.skipBlanks.rest.isEmpty = d.skipBlanks.rest.isEmpty := by
    have hsame := hrest.sameLetters
    generalize c.skipBlanks.rest = cs at hsame
    generalize d.skipBlanks.rest = ds at hsame
    cases hsame <;> rfl
  unfold read
  simp only [← hempty, ← hoffset]
  split
  · exact .ok ⟨.endOfInput _, hoffset, hrest⟩
  · have htoken := hrest.agree_leadingToken (by simp_all)
    generalize leadingToken c.skipBlanks.rest = x at htoken
    generalize leadingToken d.skipBlanks.rest = x' at htoken
    cases htoken with
    | error he => exact .error ⟨he, rfl⟩
    | @ok r r' hr =>
      obtain ⟨k, n⟩ := r
      obtain ⟨k', m⟩ := r'
      obtain rfl : m = n := hr.length
      have hlexeme := List.forall₂_take m hrest.sameLetters
      refine .ok ⟨.token ⟨hr.kind, SameLetters.lower_eq hlexeme, rfl⟩, ?_, hr.rest⟩
      simp only [past, ← hoffset, SameLetters.byteLength_eq hlexeme]

/-- The scans of texts that differ in case alone. -/
theorem Recased.scan (h : c.Recased d) :
    List.Forall₂ (Token.Resembles lower Eq) c.scan.tokens d.scan.tokens ∧
      c.scan.ending.Resembles lower Eq d.scan.ending := by
  fun_induction Cursor.scan c generalizing d with
  | case1 c t c' hread later =>
    rename_i ih
    have hd := h.agree_read
    rw [hread] at hd
    generalize hx : d.read = x at hd
    obtain @⟨_, ⟨item, d'⟩, hr⟩ := hd
    have hitem : Item.Resembles (.token t) item := hr.item
    cases hitem with
    | token htu =>
      obtain ⟨htokens, hending⟩ := ih hr.cursor
      rw [scan_of_read_token hx]
      exact ⟨.cons htu htokens, hending⟩
  | case2 c n c' hread =>
    have hd := h.agree_read
    rw [hread] at hd
    generalize hx : d.read = x at hd
    obtain @⟨_, ⟨item, d'⟩, hr⟩ := hd
    have hitem : Item.Resembles (.endOfInput n) item := hr.item
    cases hitem with
    | endOfInput =>
      rw [scan_of_read_endOfInput hx]
      exact ⟨.nil, .endOfInput rfl⟩
  | case3 c e hread =>
    have hd := h.agree_read
    rw [hread] at hd
    generalize hx : d.read = x at hd
    obtain _ | ⟨hfault, hposition⟩ := hd
    rw [scan_of_read_error hx]
    exact ⟨.nil, .broken hfault hposition⟩

end Text.Cursor
end TrafficQuery
