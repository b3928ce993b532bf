import TrafficQuery.Proofs.Token.Spelling

/-!
# Scans

A scan cuts a text into tokens that stand one behind the other, as far as tokens can be read.
-/

namespace TrafficQuery
open Text

theorem Text.byteLength_pos {cs : List Char} (h : cs ≠ []) : 0 < byteLength cs := by
  cases cs with
  | nil => exact absurd rfl h
  | cons c cs =>
    rw [byteLength_cons]
    have hc := c.utf8Size_pos
    omega

/-- A token whose source text spells it. -/
def Token.Genuine (t : Token) : Prop := Spells t.lexeme.toList t.kind

theorem Token.Genuine.start_lt_stop {t : Token} (h : t.Genuine) : t.start < t.stop := by
  obtain ⟨c, cs, hlexeme, -⟩ := h.exists_cons
  have hpos : 0 < byteLength t.lexeme.toList := byteLength_pos (by simp [hlexeme])
  exact Nat.lt_add_of_pos_right hpos

/-! ## One token -/

/-- A text in which nothing but blanks stands. -/
def IsGap (cs : List Char) : Prop := ∀ c ∈ cs, isBlank c = true

namespace Text.Cursor
variable {c d : Cursor} {t : Token}

theorem rest_eq_blanks_append (c : Cursor) : c.rest = c.rest.takeWhile isBlank ++ c.skipBlanks.rest :=
  List.takeWhile_append_dropWhile.symm

theorem isGap_takeWhile (cs : List Char) : IsGap (cs.takeWhile isBlank) :=
  List.all_eq_true.mp List.all_takeWhile

/-- A token that is read stands behind blanks, in front of the text where the reading goes on. -/
theorem exists_blanks_of_read (h : c.read = .ok (.token t, d)) : ∃ blanks,
    c.rest = blanks ++ (t.lexeme.toList ++ d.rest) ∧ t.start = c.offset + byteLength blanks ∧
      d.offset = t.stop ∧ t.Genuine ∧ IsGap blanks ∧
      leadingToken (t.lexeme.toList ++ d.rest) = .ok (t.kind, t.lexeme.toList.length) := by
  have hrest := c.rest_eq_blanks_append
  unfold read at h
  simp only at h
  split at h
  · cases h
  · rename_i hne
    split at h
    · rename_i k n hk
      simp only [Except.ok.injEq, Prod.mk.injEq, Item.token.injEq] at h
      obtain ⟨rfl, rfl⟩ := h
      obtain ⟨a, r, hr⟩ := List.exists_cons_of_ne_nil (l := c.skipBlanks.rest) (by simp_all)
      have hspells := spells_of_leadingToken (isBlank_head_dropWhile hr) (hr ▸ hk)
      have hlength := (leadingToken_length (isBlank_head_dropWhile hr) (hr ▸ hk)).2
      rw [← hr] at hlength
      refine ⟨_, ?_, rfl, ?_, ?_, isGap_takeWhile _, ?_⟩
      · rw [String.toList_ofList]
        simpa only [past, List.take_append_drop] using hrest
      · simp only [past, Token.stop, String.toList_ofList]
      · rw [Token.Genuine, String.toList_ofList, hr]
        exact hspells
      · rw [String.toList_ofList, past, List.take_append_drop, List.length_take_of_le hlength]
        exact hk
    · cases h

/-- At the end of the input nothing but blanks is left. -/
theorem isGap_of_read_endOfInput {n : Nat} (h : c.read = .ok (.endOfInput n, d)) :
    IsGap c.rest ∧ n = c.offset + byteLength c.rest := by
  have hrest := c.rest_eq_blanks_append
  unfold read at h
  simp only at h
  split at h
  · rename_i hempty
    simp only [Except.ok.injEq, Prod.mk.injEq, Item.endOfInput.injEq] at h
    rw [List.isEmpty_iff.mp hempty, List.append_nil] at hrest
    rw [← h.1, skipBlanks, skipWhile, past, ← hrest]
    exact ⟨hrest ▸ isGap_takeWhile c.rest, rfl⟩
  · split at h <;> cases h

/-- An error stands behind blanks, at something that is none. -/
theorem exists_blanks_of_read_error {e : LexError} (h : c.read = .error e) : ∃ blanks a after,
    c.rest = blanks ++ a :: after ∧ e.position = c.offset + byteLength blanks ∧
      leadingToken (a :: after) = .error e.fault ∧ IsGap blanks ∧ isBlank a = false := by
  have hrest := c.rest_eq_blanks_append
  unfold read at h
  simp only at h
  split at h
  · cases h
  · split at h
    · cases h
    · rename_i fault hfault
      obtain rfl := Except.error.inj h
      obtain ⟨a, after, ha⟩ := List.exists_cons_of_ne_nil (l := c.skipBlanks.rest) (by simp_all)
      refine ⟨_, a, after, ha ▸ hrest, rfl, ha ▸ hfault, isGap_takeWhile _, ?_⟩
      exact isBlank_head_dropWhile ha

end Text.Cursor

/-! ## The tokens of a scan -/

namespace Text.Cursor
variable {c d : Cursor} {t : Token}

theorem scan_of_read_token (h : c.read = .ok (.token t, d)) :
    c.scan = ⟨t :: d.scan.tokens, d.scan.ending⟩ := by
  rw [scan]
  split <;> simp_all

theorem scan_of_read_endOfInput {n : Nat} (h : c.read = .ok (.endOfInput n, d)) :
    c.scan = ⟨[], .endOfInput n⟩ := by
  rw [scan]
  split <;> simp_all

theorem scan_of_read_error {e : LexError} (h : c.read = .error e) : c.scan = ⟨[], .broken e⟩ := by
  rw [scan]
  split <;> simp_all

end Text.Cursor

/-- The byte at which a scan ends. -/
def Ending.position : Ending → Nat
  | .endOfInput n => n
  | .broken e => e.position

namespace Text.Cursor

theorem genuine_of_mem_scan (c : Cursor) : ∀ t ∈ c.scan.tokens, t.Genuine := by
  fun_induction Cursor.scan c with
  | case1 c t d h later ih =>
    obtain ⟨-, -, -, -, hgenuine, -⟩ := exists_blanks_of_read h
    exact List.forall_mem_cons.mpr ⟨hgenuine, ih⟩
  | case2 => exact fun t ht => absurd ht List.not_mem_nil
  | case3 => exact fun t ht => absurd ht List.not_mem_nil

/-- The tokens of a scan lie between its place and its end, one behind the other. -/
theorem scan_spans (c : Cursor) : c.offset ≤ c.scan.ending.position ∧
    (∀ t ∈ c.scan.tokens, c.offset ≤ t.start ∧ t.stop ≤ c.scan.ending.position) ∧
      c.scan.tokens.Pairwise (·.stop ≤ ·.start) := by
  fun_induction Cursor.scan c with
  | case1 c t d h later ih =>
    obtain ⟨hend, hall, hsorted⟩ := ih
    obtain ⟨blanks, -, hstart, hstop, hgenuine, -⟩ := exists_blanks_of_read h
    have hlt := hgenuine.start_lt_stop
    have hlower : c.offset ≤ d.offset := by omega
    refine ⟨Nat.le_trans hlower hend, ?_, List.pairwise_cons.mpr ⟨?_, hsorted⟩⟩
    · intro u hu
      rcases List.mem_cons.mp hu with rfl | hu
      · exact ⟨by omega, hstop ▸ hend⟩
      · exact ⟨Nat.le_trans hlower (hall u hu).1, (hall u hu).2⟩
    · intro u hu
      rw [← hstop]
      exact (hall u hu).1
  | case2 c n d h =>
    obtain ⟨-, hn⟩ := isGap_of_read_endOfInput h
    refine ⟨?_, fun t ht => absurd ht List.not_mem_nil, .nil⟩
    simp only [Ending.position]
    omega
  | case3 c e h =>
    obtain ⟨blanks, -, -, -, hposition, -⟩ := exists_blanks_of_read_error h
    refine ⟨?_, fun t ht => absurd ht List.not_mem_nil, .nil⟩
    simp only [Ending.position]
    omega

theorem scan_starts (c : Cursor) : c.scan.tokens.Pairwise (·.start < ·.start) := by
  obtain ⟨-, -, hsorted⟩ := c.scan_spans
  refine hsorted.imp_of_mem fun {t u} ht _ hle => ?_
  exact Nat.lt_of_lt_of_le (c.genuine_of_mem_scan t ht).start_lt_stop hle

/-- A scan that reaches the end has come behind all of the text. -/
theorem position_of_scan_endOfInput {c : Cursor} {n : Nat} (h : c.scan.ending = .endOfInput n) :
    n = c.offset + byteLength c.rest := by
  fun_induction Cursor.scan c with
  | case1 c t d hread later ih =>
    obtain ⟨blanks, hrest, hstart, hstop, -⟩ := exists_blanks_of_read hread
    rw [ih h, hstop, hrest, Token.stop, hstart, byteLength_append, byteLength_append]
    omega
  | case2 c m d hread =>
    obtain rfl := Ending.endOfInput.inj h
    exact (isGap_of_read_endOfInput hread).2
  | case3 => cases h

/-- A scan that breaks off has come to a place where no token can be read, behind all blanks. -/
theorem exists_rest_of_scan_broken {c : Cursor} {e : LexError} (h : c.scan.ending = .broken e) :
    ∃ before a after, c.rest = before ++ a :: after ∧ e.position = c.offset + byteLength before ∧
      leadingToken (a :: after) = .error e.fault ∧ isBlank a = false := by
  fun_induction Cursor.scan c with
  | case1 c t d hread later ih =>
    obtain ⟨blanks, hrest, hstart, hstop, -⟩ := exists_blanks_of_read hread
    obtain ⟨before, a, after, hsplit, hposition, hfault⟩ := ih h
    refine ⟨blanks ++ (t.lexeme.toList ++ before), a, after, ?_, ?_, hfault⟩
    · rw [hrest, hsplit]
      simp only [List.append_assoc]
    · rw [hposition, hstop, Token.stop, hstart, byteLength_append, byteLength_append]
      omega
  | case2 => cases h
  | case3 c e' hread =>
    obtain rfl := Ending.broken.inj h
    obtain ⟨blanks, a, after, hrest, hposition, hfault, -, ha⟩ := exists_blanks_of_read_error hread
    exact ⟨blanks, a, after, hrest, hposition, hfault, ha⟩

end Text.Cursor

theorem scan_starts_nodup (source : String) : ((scan source).tokens.map Token.start).Nodup :=
  List.pairwise_map.mpr ((Cursor.start source).scan_starts.imp Nat.ne_of_lt)

end TrafficQuery
