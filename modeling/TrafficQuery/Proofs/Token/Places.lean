import TrafficQuery.Proofs.Token.Lossless

/-!
# Places on a scan

The places between which a source is read: its start, its end, and the ends of its tokens. What is read at
one of them is what the scan of the whole source has from there on.
-/

namespace TrafficQuery
open Text

/-- What is found from a byte on: the first token that starts there or later, or what the scan ends
with. -/
def Scan.itemFrom (s : Scan) (n : Nat) : Except ParseError Item :=
  match s.tokens.find? (n ≤ ·.start) with
  | some t => .ok (.token t)
  | none =>
    match s.ending with
    | .endOfInput m => .ok (.endOfInput m)
    | .broken e => .error e.toParseError

/-- The start of a text, its end, or the end of one of its tokens. -/
def IsStop (source : String) (n : Nat) : Prop :=
  n = 0 ∨ n = byteLength source.toList ∨ ∃ t ∈ (scan source).tokens, n = t.stop

/-- A place between two characters of a source: what stands before it takes the bytes it counts, and the
rest stands behind it. -/
def Text.Cursor.IsIn (c : Cursor) (source : String) : Prop :=
  ∃ behind, source.toList = behind ++ c.rest ∧ byteLength behind = c.offset

/-- A place behind some tokens of a scan, from which the others are scanned. -/
structure OnScan (source : String) (c : Cursor) : Prop where
  isStop : IsStop source c.offset
  isIn : c.IsIn source
  exists_rest : ∃ ts us, (scan source).tokens = ts ++ us ∧ c.scan = ⟨us, (scan source).ending⟩ ∧
    ∀ t ∈ ts, t.start < c.offset

/-- Behind the end of the input nothing is left. -/
theorem Text.Cursor.eq_of_read_endOfInput {c d : Cursor} {n : Nat}
    (h : c.read = .ok (.endOfInput n, d)) : d = ⟨n, []⟩ := by
  unfold read at h
  simp only at h
  split at h
  · rename_i hempty
    cases h
    rw [← List.isEmpty_iff.mp hempty]
  · split at h <;> cases h

namespace OnScan
variable {source : String} {c d : Cursor} {item : Item}

theorem start (source : String) : OnScan source (.start source) :=
  ⟨.inl rfl, ⟨[], rfl, rfl⟩, [], (scan source).tokens, rfl, rfl, by simp⟩

/-- What is read at a place is what is found from there on. -/
theorem itemFrom_eq (h : OnScan source c) : (scan source).itemFrom c.offset =
    (c.read.mapError LexError.toParseError).map Prod.fst := by
  obtain ⟨ts, us, htokens, hscan, hbehind⟩ := h.exists_rest
  have hnone : ts.find? (c.offset ≤ ·.start) = none := by
    refine List.find?_eq_none.mpr fun t ht => ?_
    have hlt := hbehind t ht
    simpa using hlt
  rw [Scan.itemFrom, htokens, List.find?_append, hnone, Option.none_or]
  cases hread : c.read with
  | error e =>
    obtain ⟨rfl, hending⟩ := Scan.mk.inj (hscan.symm.trans (Cursor.scan_of_read_error hread))
    rw [hending]
    rfl
  | ok result =>
    obtain ⟨item, d⟩ := result
    cases item with
    | token t =>
      obtain ⟨rfl, -⟩ := Scan.mk.inj (hscan.symm.trans (Cursor.scan_of_read_token hread))
      obtain ⟨blanks, -, hstart, -⟩ := Cursor.exists_blanks_of_read hread
      have hle : c.offset ≤ t.start := hstart ▸ Nat.le_add_right _ _
      rw [List.find?_cons_of_pos (by simpa using hle)]
      rfl
    | endOfInput n =>
      obtain ⟨rfl, hending⟩ := Scan.mk.inj (hscan.symm.trans (Cursor.scan_of_read_endOfInput hread))
      rw [hending]
      rfl

/-- The scan goes on behind what is read. -/
theorem of_read (h : OnScan source c) (hread : c.read = .ok (item, d)) :
    OnScan source d ∧ d.offset = item.stop := by
  obtain ⟨ts, us, htokens, hscan, hbehind⟩ := h.exists_rest
  cases item with
  | token t =>
    obtain ⟨rfl, hending⟩ := Scan.mk.inj (hscan.symm.trans (Cursor.scan_of_read_token hread))
    obtain ⟨blanks, htext, hstart, hstop, hgenuine, -⟩ := Cursor.exists_blanks_of_read hread
    have hin : d.IsIn source := by
      obtain ⟨behind, hsource, hcount⟩ := h.isIn
      refine ⟨behind ++ (blanks ++ t.lexeme.toList), ?_, ?_⟩
      · rw [hsource, htext]
        simp only [List.append_assoc]
      · rw [hstop, Token.stop, hstart, ← hcount, byteLength_append, byteLength_append, Nat.add_assoc]
    have hmem : t ∈ (scan source).tokens := htokens ▸ by simp
    have hlt := hgenuine.start_lt_stop
    refine ⟨⟨.inr (.inr ⟨t, hmem, hstop⟩), hin, ts ++ [t], d.scan.tokens, ?_, ?_, ?_⟩, hstop⟩
    · rw [htokens, List.append_assoc, List.singleton_append]
    · rw [hending]
    · intro u hu
      rcases List.mem_append.mp hu with hu | hu
      · have hlt' := hbehind u hu
        omega
      · obtain rfl := List.mem_singleton.mp hu
        omega
  | endOfInput n =>
    obtain ⟨rfl, hending⟩ := Scan.mk.inj (hscan.symm.trans (Cursor.scan_of_read_endOfInput hread))
    obtain rfl := Cursor.eq_of_read_endOfInput hread
    have hnext : Cursor.read ⟨n, []⟩ = .ok (.endOfInput n, ⟨n, []⟩) := rfl
    have hlength : n = byteLength source.toList :=
      (Cursor.position_of_scan_endOfInput hending).trans (Nat.zero_add _)
    have hin : (⟨n, []⟩ : Cursor).IsIn source := ⟨source.toList, (List.append_nil _).symm, hlength.symm⟩
    refine ⟨⟨.inr (.inl hlength), hin, ts, [], htokens, ?_, fun t ht => ?_⟩, rfl⟩
    · rw [Cursor.scan_of_read_endOfInput hnext, hending]
    · obtain ⟨-, hn⟩ := Cursor.isGap_of_read_endOfInput hread
      have hlt := hbehind t ht
      simp only
      omega

end OnScan

end TrafficQuery
