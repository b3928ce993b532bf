import TrafficQuery.Proofs.Token.Scan
import TrafficQuery.Proofs.Token.Words
import TrafficQuery.Token.Session

/-!
# Scans lose nothing

The tokens of a scan and the blanks between them are the text. Each token carries what is written at its
place, as far as it goes, and a walk gives each of them once.
-/

namespace TrafficQuery
open Text

/-! ## What a token takes from its place -/

/-- A text that a token carries is its source text, a string without its quotes. -/
def Token.Verbatim (t : Token) : Prop :=
  match t.kind with
  | .identifier s | .headerName s | .uuid s => t.lexeme = s
  | .string s => ∃ q, isQuote q = true ∧ q ∉ s.toList ∧ t.lexeme.toList = q :: (s.toList ++ [q])
  | _ => True

/-- Tokens that are neither signs nor strings. -/
def Kind.isWord : Kind → Bool
  | .order _ | .paren _ | .dot | .string _ => false
  | _ => true

/-- The characters that end a word, apart from blanks. -/
def terminators : List Char := ['.', '(', ')', '=', '<', '>', '"', '\'']

/-- A token goes as far as it can in front of a text: a word goes up to a blank or a terminator, and an
angle bracket takes the sign of equality with it. -/
def Kind.EndsBefore (k : Kind) (after : List Char) : Prop :=
  (k.isWord = true → ∀ c ∈ after.head?, isBlank c = true ∨ c ∈ terminators) ∧
  (k = .order .lt ∨ k = .order .gt → after.head? ≠ some '=')

theorem fixedWord?_of_sign {w : List Char} {k : Kind} (h : (w, k) ∈ signs) :
    ∃ s, k.fixedWord? = some s := by
  simp only [signs, List.mem_cons, Prod.mk.injEq, List.not_mem_nil, or_false] at h
  rcases h with ⟨-, rfl⟩ | ⟨-, rfl⟩ | ⟨-, rfl⟩ | ⟨-, rfl⟩ | ⟨-, rfl⟩ | ⟨-, rfl⟩ | ⟨-, rfl⟩ | ⟨-, rfl⟩ <;>
    exact ⟨_, rfl⟩

theorem Token.Genuine.verbatim {t : Token} (h : t.Genuine) : t.Verbatim := by
  have hfixed {s : String} (hs : t.kind.fixedWord? = some s) : t.Verbatim := by
    unfold Verbatim
    split <;> simp_all [Kind.fixedWord?]
  rcases t with ⟨kind, start, lexeme⟩
  obtain ⟨w, rfl⟩ : ∃ w, lexeme = String.ofList w := ⟨lexeme.toList, (String.ofList_toList).symm⟩
  simp only [Genuine, String.toList_ofList] at h
  cases h with
  | sign hmem =>
    obtain ⟨s, hs⟩ := fixedWord?_of_sign hmem
    exact hfixed hs
  | @string q text hq hn =>
    refine ⟨q, hq, ?_, ?_⟩
    · rwa [String.toList_ofList]
    · simp only [String.toList_ofList]
  | word hne hw hk =>
    cases hkind : kind.fixedWord? with
    | some s => exact hfixed hkind
    | none =>
      obtain ⟨-, hclassed⟩ := classed_of_classify hk hkind
      cases hclassed <;> first | rfl | trivial

/-! ## Where a token ends -/

section Ends
variable {cs after : List Char} {k : Kind}

theorem isTerminator_iff {c : Char} : isTerminator c = true ↔ c ∈ terminators := by
  simp only [isTerminator, isQuote, Bool.or_eq_true, beq_iff_eq, terminators, List.mem_cons,
    List.not_mem_nil, or_false, or_assoc]

theorem head?_dropWhile_isWordChar (cs : List Char) :
    ∀ c ∈ (cs.dropWhile isWordChar).head?, isBlank c = true ∨ c ∈ terminators := by
  intro c hc
  have hnot := List.head?_dropWhile_not isWordChar cs
  rw [Option.mem_def.mp hc] at hnot
  rw [← isTerminator_iff]
  simpa [isWordChar, Classical.or_iff_not_imp_left] using hnot

theorem isWord_of_reservedKind? {s : String} (h : reservedKind? s = some k) : k.isWord = true := by
  unfold reservedKind? at h
  split at h <;> cases h <;> rfl

theorem isWord_of_read {c : WordClass} (h : c.read cs = .ok k) : k.isWord = true := by
  cases c with
  | reserved => exact isWord_of_reservedKind? (reserved_of_read h)
  | identifier | uuid | headerName =>
    cases h
    rfl
  | duration =>
    cases classed_of_read_duration h <;> rfl
  | number =>
    simp only [WordClass.read] at h
    split at h <;> cases h
    rfl

theorem isWord_of_classify (h : classify cs = .ok k) : k.isWord = true := by
  unfold classify classifyIn at h
  split at h
  case h_1 => exact isWord_of_read h
  case h_2 => cases h

/-- No sign is a word, and a sign that is an angle bracket alone has no sign of equality behind it. -/
theorem endsBefore_of_sign? (h : sign? (cs ++ after) = some (k, cs.length)) : k.EndsBefore after := by
  have bracket {c : Char} {tail : List Char} (hcs : cs ++ after = c :: tail) (hlength : 1 = cs.length)
      (htail : ∀ tail', tail ≠ '=' :: tail') : after.head? ≠ some '=' := by
    obtain ⟨d, rfl⟩ := List.length_eq_one_iff.mp hlength.symm
    obtain ⟨-, rfl⟩ := List.cons.inj hcs
    intro hhead
    obtain ⟨after', rfl⟩ := List.head?_eq_some_iff.mp hhead
    exact htail after' rfl
  generalize hall : cs ++ after = all at h
  unfold sign? at h
  split at h <;> simp only [Option.some.injEq, Prod.mk.injEq, reduceCtorEq] at h <;>
    obtain ⟨rfl, hlength⟩ := h <;> refine ⟨nofun, ?_⟩
  case h_6 tail htail => exact fun _ => bracket hall hlength fun tail' h => htail tail' h
  case h_8 tail htail => exact fun _ => bracket hall hlength fun tail' h => htail tail' h
  all_goals simp

/-- What is read in front of a text goes as far as it can. -/
theorem endsBefore_of_leadingToken (h : leadingToken (cs ++ after) = .ok (k, cs.length)) :
    k.EndsBefore after := by
  have word (hword : leadingWord (cs ++ after) = .ok (k, cs.length)) : k.EndsBefore after := by
    obtain ⟨hk, hlength⟩ := leadingWord_eq_ok hword
    have hafter : after = (cs ++ after).dropWhile isWordChar := by
      have hsplit := List.takeWhile_append_dropWhile (p := isWordChar) (l := cs ++ after)
      exact (List.append_inj_right hsplit hlength.symm).symm
    rw [hafter]
    refine ⟨fun _ => head?_dropWhile_isWordChar _, ?_⟩
    rintro (rfl | rfl) <;> cases isWord_of_classify hk
  unfold leadingToken at h
  split at h
  case h_1 hsign =>
    obtain rfl := Except.ok.inj h
    exact endsBefore_of_sign? hsign
  case h_2 c body _ _ =>
    split at h
    case isTrue =>
      obtain ⟨text, rest, -, -, rfl, -⟩ := quotedString_eq_ok h
      exact ⟨nofun, by simp⟩
    case isFalse => exact word h
  case h_3 _ hnil =>
    rw [hnil] at word
    exact word h

end Ends

/-! ## Tokens and the gaps between them -/

/-- The source texts of tokens, each of them behind a gap. -/
def interleave (gaps : List (List Char)) (ts : List Token) : List Char :=
  (gaps.zip ts).flatMap fun (gap, t) => gap ++ t.lexeme.toList

/-- Each token starts where the gap ends that is between it and the token before, the first gap being
at a byte. -/
def Laid (n : Nat) : List (List Char) → List Token → Prop
  | gap :: gaps, t :: ts => t.start = n + byteLength gap ∧ Laid t.stop gaps ts
  | [], [] => True
  | _, _ => False

/-- What a scan that ends leaves over of a text that starts at a byte: blanks at the end of the input,
and behind blanks what no token can be read from. -/
def Ending.Leaves (n : Nat) (rest : List Char) : Ending → Prop
  | .endOfInput m => IsGap rest ∧ m = n + byteLength rest
  | .broken e => ∃ blanks c after, rest = blanks ++ c :: after ∧ IsGap blanks ∧ isBlank c = false ∧
      e.position = n + byteLength blanks

/-- Where a token stands in a text that starts at a byte, with the text behind it. -/
def Token.StandsIn (t : Token) (n : Nat) (cs after : List Char) : Prop :=
  ∃ before, cs = before ++ (t.lexeme.toList ++ after) ∧ t.start = n + byteLength before

namespace Text.Cursor
variable {c d : Cursor} {t : Token}

/-- The tokens of a scan, with gaps between them, are the text in front of what is left over. -/
theorem exists_gaps (c : Cursor) : ∃ gaps rest, Laid c.offset gaps c.scan.tokens ∧
    (∀ gap ∈ gaps, IsGap gap) ∧ c.rest = interleave gaps c.scan.tokens ++ rest ∧
      c.scan.ending.Leaves (c.offset + byteLength (interleave gaps c.scan.tokens)) rest := by
  fun_induction Cursor.scan c with
  | case1 c t d h later ih =>
    obtain ⟨gaps, rest, hlaid, hgaps, hrest, hleaves⟩ := ih
    obtain ⟨blanks, htext, hstart, hstop, -, hblanks, -⟩ := exists_blanks_of_read h
    have hcons : interleave (blanks :: gaps) (t :: later.tokens) =
        blanks ++ t.lexeme.toList ++ interleave gaps later.tokens := rfl
    refine ⟨blanks :: gaps, rest, ⟨hstart, hstop ▸ hlaid⟩,
      List.forall_mem_cons.mpr ⟨hblanks, hgaps⟩, ?_, ?_⟩
    · rw [hcons, htext, hrest]
      simp only [List.append_assoc, later]
    · have hoffset : c.offset + byteLength (interleave (blanks :: gaps) (t :: later.tokens)) =
          d.offset + byteLength (interleave gaps later.tokens) := by
        rw [hcons, hstop, Token.stop, hstart]
        simp only [byteLength_append]
        omega
      rw [hoffset]
      exact hleaves
  | case2 c n d h =>
    obtain ⟨hgap, hn⟩ := isGap_of_read_endOfInput h
    exact ⟨[], c.rest, trivial, by simp, rfl, hgap, hn⟩
  | case3 c e h =>
    obtain ⟨blanks, a, after, hrest, hposition, -, hblanks, ha⟩ := exists_blanks_of_read_error h
    exact ⟨[], c.rest, trivial, by simp, rfl, blanks, a, after, hrest, hblanks, ha, hposition⟩

/-- A token of a scan stands in the text, where it is read. -/
theorem exists_after_of_mem_scan (c : Cursor) : ∀ t ∈ c.scan.tokens, ∃ after,
    t.StandsIn c.offset c.rest after ∧
      leadingToken (t.lexeme.toList ++ after) = .ok (t.kind, t.lexeme.toList.length) := by
  fun_induction Cursor.scan c with
  | case1 c t d h later ih =>
    obtain ⟨blanks, htext, hstart, hstop, -, -, hread⟩ := exists_blanks_of_read h
    refine List.forall_mem_cons.mpr ⟨⟨d.rest, ⟨blanks, htext, hstart⟩, hread⟩, ?_⟩
    intro u hu
    obtain ⟨after, ⟨before, hrest, hu'⟩, hread'⟩ := ih u hu
    refine ⟨after, ⟨blanks ++ (t.lexeme.toList ++ before), ?_, ?_⟩, hread'⟩
    · rw [htext, hrest]
      simp only [List.append_assoc]
    · rw [hu', hstop, Token.stop, hstart]
      simp only [byteLength_append]
      omega
  | case2 => exact fun t ht => absurd ht List.not_mem_nil
  | case3 => exact fun t ht => absurd ht List.not_mem_nil

end Text.Cursor

/-! ## Walks -/

/-- What a walk over a scan gives before it is finished: the tokens, and an error where no more of
them can be read. -/
def Scan.items (s : Scan) : List (Except ParseError Answer) :=
  s.tokens.map (fun t => .ok (.item (.token t))) ++
    match s.ending with
    | .endOfInput _ => []
    | .broken e => [.error e.toParseError]

/-- The answers to so many steps of a walk. -/
def Session.walked (s : Session) (n : Nat) : List (Except ParseError Answer) :=
  (s.run (List.replicate n .walk)).map Prod.fst

namespace Session
variable {s : Session} {c d : Cursor}

theorem walked_succ (s : Session) (n : Nat) : s.walked (n + 1) = s.walk.1 :: s.walk.2.walked n := rfl

/-- A finished walk stays finished. -/
theorem walked_of_finished (h : s.finished = true) (n : Nat) :
    s.walked n = List.replicate n (.ok .finished) := by
  induction n with
  | zero => rfl
  | succ n ih =>
    have hwalk : s.walk = (.ok .finished, s) := by rw [walk, if_pos h]
    rw [walked_succ, hwalk, ih, List.replicate_succ]

/-- A value more behind what is taken makes no difference. -/
theorem take_append_replicate_succ {α : Type} (xs : List α) (x : α) (n : Nat) :
    (xs ++ List.replicate (n + 1) x).take n = (xs ++ List.replicate n x).take n := by
  rw [List.replicate_succ', ← List.append_assoc, List.take_append_of_le_length]
  simp

/-- A walk gives the items of the scan one by one, and is finished behind them. -/
theorem walked_eq (c : Cursor) (saved : List (String × Cursor)) (n : Nat) :
    walked ⟨c, false, saved⟩ n =
      (c.scan.items ++ List.replicate n (Except.ok Answer.finished)).take n := by
  induction n generalizing c with
  | zero => rfl
  | succ n ih =>
    have hfinished (c : Cursor) : walked ⟨c, true, saved⟩ n = _ := walked_of_finished rfl n
    cases h : c.read with
    | error e =>
      have hwalk : walk ⟨c, false, saved⟩ = (.error e.toParseError, ⟨c, true, saved⟩) := by
        simp [walk, next, h]
      rw [walked_succ, hwalk, hfinished, Cursor.scan_of_read_error h]
      simp [Scan.items]
    | ok result =>
      obtain ⟨item, d⟩ := result
      cases item with
      | token t =>
        have hwalk : walk ⟨c, false, saved⟩ = (.ok (.item (.token t)), ⟨d, false, saved⟩) := by
          simp [walk, next, h]
        have hitems : Scan.items ⟨t :: d.scan.tokens, d.scan.ending⟩ =
            .ok (.item (.token t)) :: d.scan.items := rfl
        rw [walked_succ, hwalk, ih, Cursor.scan_of_read_token h, hitems, List.cons_append,
          List.take_succ_cons, take_append_replicate_succ]
      | endOfInput m =>
        have hwalk : walk ⟨c, false, saved⟩ = (.ok .finished, ⟨d, true, saved⟩) := by
          simp [walk, next, h]
        rw [walked_succ, hwalk, hfinished, Cursor.scan_of_read_endOfInput h]
        simp [Scan.items, List.replicate_succ]

end Session

/-- A walk has no more items than the text has bytes. -/
theorem Text.Cursor.length_items_le (c : Cursor) : c.scan.items.length ≤ byteLength c.rest := by
  fun_induction Cursor.scan c with
  | case1 c t d h later ih =>
    obtain ⟨blanks, htext, -, -, hgenuine, -⟩ := exists_blanks_of_read h
    have hlexeme := hgenuine.start_lt_stop
    have hitems : Scan.items ⟨t :: later.tokens, later.ending⟩ =
        .ok (.item (.token t)) :: later.items := rfl
    rw [hitems, List.length_cons, htext, byteLength_append, byteLength_append]
    simp only [Token.stop] at hlexeme
    simp only [later]
    omega
  | case2 => exact Nat.zero_le _
  | case3 c e h =>
    obtain ⟨blanks, a, after, hrest, -⟩ := exists_blanks_of_read_error h
    rw [hrest]
    exact byteLength_pos (by simp)

/-! ## Scans -/

/-- What a scan keeps of its text: how the gaps and the tokens make it up, and what each token is in it. -/
structure LosesNothing (source : String) : Prop where
  /-- The tokens, each behind a gap of blanks, and what is left over rebuild the text. -/
  rebuilds : ∃ gaps rest, Laid 0 gaps (scan source).tokens ∧ (∀ gap ∈ gaps, IsGap gap) ∧
    source.toList = interleave gaps (scan source).tokens ++ rest ∧
    (scan source).ending.Leaves (byteLength (interleave gaps (scan source).tokens)) rest
  /-- A token is not empty and stands in the text where it says, between two characters. It carries its
  source text, and goes as far as it can. -/
  placed : ∀ t ∈ (scan source).tokens, t.start < t.stop ∧ t.Verbatim ∧
    ∃ after, t.StandsIn 0 source.toList after ∧ t.kind.EndsBefore after
  /-- The tokens stand one behind the other. -/
  ordered : (scan source).tokens.Pairwise (·.stop ≤ ·.start)
  /-- A walk gives the tokens, and the error if there is one, and then nothing for ever. -/
  walked : ∀ n, (Session.start source).walked n =
    ((scan source).items ++ List.replicate n (Except.ok Answer.finished)).take n
  /-- It gives no more than one of them for each byte. -/
  bounded : (scan source).items.length ≤ byteLength source.toList

theorem scan_loses_nothing (source : String) : LosesNothing source where
  rebuilds := by
    obtain ⟨gaps, rest, hlaid, hgaps, hrest, hleaves⟩ := (Cursor.start source).exists_gaps
    rw [Cursor.start, Nat.zero_add] at hleaves
    exact ⟨gaps, rest, hlaid, hgaps, hrest, hleaves⟩
  placed := by
    intro t ht
    have hgenuine := (Cursor.start source).genuine_of_mem_scan t ht
    obtain ⟨after, hstands, hread⟩ := (Cursor.start source).exists_after_of_mem_scan t ht
    exact ⟨hgenuine.start_lt_stop, hgenuine.verbatim, after, hstands,
      endsBefore_of_leadingToken hread⟩
  ordered := (Cursor.start source).scan_spans.2.2
  walked := Session.walked_eq (Cursor.start source) []
  bounded := (Cursor.start source).length_items_le

end TrafficQuery
