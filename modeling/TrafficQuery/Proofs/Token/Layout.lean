import Mathlib.Data.List.Forall2
import TrafficQuery.Proofs.Token.Lossless

/-!
# Blanks between tokens

A token is read behind any blanks, in front of any text that it ends before. So tokens that are written
in order with blanks between them are scanned as themselves.
-/

namespace TrafficQuery
open Text

/-! ## One token -/

section
variable {w gap after : List Char} {k : Kind}

theorem Kind.endsBefore_of_isBlank (k : Kind) (h : ∀ c ∈ after.head?, isBlank c = true) :
    k.EndsBefore after := by
  refine ⟨fun _ c hc => .inl (h c hc), fun _ hc => ?_⟩
  have hblank := h '=' hc
  cases hblank

theorem not_isWordChar_of_endsBefore (hk : k.isWord = true) (h : k.EndsBefore after) :
    ∀ c ∈ after.head?, isWordChar c = false := by
  intro c hc
  rw [isWordChar]
  rcases h.1 hk c hc with hblank | hterminator
  · rw [hblank]
    rfl
  · rw [isTerminator_iff.mpr hterminator, Bool.and_comm]
    rfl

/-- A word is read as what it spells in front of every text that it ends before. -/
theorem Spells.leadingToken_append (h : Spells w k) (hafter : k.EndsBefore after) :
    TrafficQuery.leadingToken (w ++ after) = .ok (k, w.length) := by
  cases h with
  | sign hmem =>
    have hangle := hafter.2
    simp only [signs, List.mem_cons, Prod.mk.injEq, List.not_mem_nil, or_false] at hmem
    rcases hmem with ⟨rfl, rfl⟩ | ⟨rfl, rfl⟩ | ⟨rfl, rfl⟩ | ⟨rfl, rfl⟩ | ⟨rfl, rfl⟩ | ⟨rfl, rfl⟩ |
      ⟨rfl, rfl⟩ | ⟨rfl, rfl⟩
    case inr.inr.inr.inr.inr.inl | inr.inr.inr.inr.inr.inr.inr =>
      rcases after with _ | ⟨c, after⟩
      · rfl
      · have hc : c ≠ '=' := by simpa using hangle
        simp [TrafficQuery.leadingToken, sign?, hc]
    all_goals rfl
  | string hq hn =>
    have hread := leadingToken_string hq hn after
    rw [List.cons_append, List.append_assoc, List.singleton_append, hread]
    simp
  | word hne hw hk =>
    exact leadingToken_word hne hw hk (not_isWordChar_of_endsBefore (isWord_of_classify hk) hafter)

end

/-! ## Blanks and places -/

def Token.shift (k : Nat) (t : Token) : Token := { t with start := t.start + k }

def Item.shift (k : Nat) : Item → Item
  | .token t => .token (t.shift k)
  | .endOfInput n => .endOfInput (n + k)

def LexError.shift (k : Nat) (e : LexError) : LexError := ⟨e.fault, e.position + k⟩

def Ending.shift (k : Nat) : Ending → Ending
  | .endOfInput n => .endOfInput (n + k)
  | .broken e => .broken (e.shift k)

/-- The scan of the same text so many bytes further on. -/
def Scan.shift (k : Nat) (s : Scan) : Scan := ⟨s.tokens.map (Token.shift k), s.ending.shift k⟩

namespace Text.Cursor
variable {gap w after : List Char} {k : Kind}

/-- Blanks in front of a place only move it. -/
theorem read_gap (hgap : IsGap gap) (n : Nat) (rest : List Char) :
    read ⟨n, gap ++ rest⟩ = read ⟨n + byteLength gap, rest⟩ := by
  have hskip : skipBlanks ⟨n, gap ++ rest⟩ = skipBlanks ⟨n + byteLength gap, rest⟩ := by
    simp only [skipBlanks, skipWhile, past, List.takeWhile_append_of_pos hgap,
      List.dropWhile_append_of_pos hgap, byteLength_append, Nat.add_assoc]
  unfold read
  rw [hskip]

theorem scan_eq_of_read_eq {c d : Cursor} (h : c.read = d.read) : c.scan = d.scan := by
  cases hd : d.read with
  | error e => rw [scan_of_read_error hd, scan_of_read_error (h.trans hd)]
  | ok result =>
    obtain ⟨item, d'⟩ := result
    cases item with
    | token t => rw [scan_of_read_token hd, scan_of_read_token (h.trans hd)]
    | endOfInput n => rw [scan_of_read_endOfInput hd, scan_of_read_endOfInput (h.trans hd)]

theorem scan_gap (hgap : IsGap gap) (n : Nat) (rest : List Char) :
    scan ⟨n, gap ++ rest⟩ = scan ⟨n + byteLength gap, rest⟩ :=
  scan_eq_of_read_eq (read_gap hgap n rest)

/-- A word is read at its place, and the reading goes on behind it. -/
theorem read_spells (h : Spells w k) (hafter : k.EndsBefore after) (n : Nat) :
    read ⟨n, w ++ after⟩ =
      .ok (.token ⟨k, n, String.ofList w⟩, ⟨n + byteLength w, after⟩) := by
  obtain ⟨c, cs, rfl, hc⟩ := h.exists_cons
  have hskip : skipBlanks ⟨n, c :: cs ++ after⟩ = ⟨n, c :: cs ++ after⟩ := by
    simp [skipBlanks, skipWhile, past, hc]
  unfold read
  simp only [hskip, h.leadingToken_append hafter]
  simp [past]

theorem scan_spells (h : Spells w k) (hafter : k.EndsBefore after) (n : Nat) :
    scan ⟨n, w ++ after⟩ = ⟨⟨k, n, String.ofList w⟩ :: (scan ⟨n + byteLength w, after⟩).tokens,
      (scan ⟨n + byteLength w, after⟩).ending⟩ :=
  scan_of_read_token (read_spells h hafter n)

/-- What is read at a place depends on it only in its starts. -/
theorem read_shift (c : Cursor) (k : Nat) : read ⟨c.offset + k, c.rest⟩ =
    match c.read with
    | .ok (item, d) => .ok (item.shift k, ⟨d.offset + k, d.rest⟩)
    | .error e => .error (e.shift k) := by
  have hskip : skipBlanks ⟨c.offset + k, c.rest⟩ = ⟨c.skipBlanks.offset + k, c.skipBlanks.rest⟩ := by
    simp only [skipBlanks, skipWhile, past, mk.injEq, and_true]
    omega
  unfold read
  simp only [hskip]
  split
  · rfl
  · cases leadingToken c.skipBlanks.rest with
    | error fault => rfl
    | ok result =>
      simp only [Item.shift, Token.shift, past, Except.ok.injEq, Prod.mk.injEq, mk.injEq, true_and,
        and_true]
      omega

theorem scan_shift (c : Cursor) (k : Nat) : scan ⟨c.offset + k, c.rest⟩ = c.scan.shift k := by
  have hshift (c : Cursor) := c.read_shift k
  fun_induction Cursor.scan c with
  | case1 c t d h later ih =>
    have hread := hshift c
    rw [h] at hread
    rw [scan_of_read_token hread, ih]
    rfl
  | case2 c n d h =>
    have hread := hshift c
    rw [h] at hread
    exact scan_of_read_endOfInput hread
  | case3 c e h =>
    have hread := hshift c
    rw [h] at hread
    exact scan_of_read_error hread

end Text.Cursor

/-! ## Tokens written with blanks -/

/-- Tokens as they stand when each is written behind a gap, the first gap being at a byte. -/
def layTokens (n : Nat) : List (List Char) → List Token → List Token
  | gap :: gaps, t :: ts =>
    let u : Token := { t with start := n + byteLength gap }
    u :: layTokens u.stop gaps ts
  | _, _ => []

/-- Tokens are written in order in a text, with blanks between two of them, and maybe at its ends. -/
def IsLayout (ts : List Token) (cs : List Char) : Prop :=
  ∃ gaps tail, gaps.length = ts.length ∧ (∀ gap ∈ gaps, IsGap gap) ∧ (∀ gap ∈ gaps.tail, gap ≠ []) ∧
    IsGap tail ∧ cs = interleave gaps ts ++ tail

namespace Text.Cursor
variable {gaps : List (List Char)} {ts : List Token} {tail : List Char}

/-- Behind a token there is a blank or nothing when no gap is left out. -/
theorem isBlank_head_interleave (hgaps : ∀ gap ∈ gaps, IsGap gap ∧ gap ≠ [])
    (hlength : gaps.length = ts.length) (htail : IsGap tail) :
    ∀ c ∈ (interleave gaps ts ++ tail).head?, isBlank c = true := by
  intro c hc
  rcases gaps with _ | ⟨gap, gaps⟩ <;> rcases ts with _ | ⟨t, ts⟩
  · exact htail c (List.mem_of_mem_head? hc)
  · cases hlength
  · cases hlength
  · obtain ⟨hgap, hne⟩ := hgaps gap List.mem_cons_self
    obtain ⟨b, gap, rfl⟩ := List.exists_cons_of_ne_nil hne
    obtain rfl : b = c := Option.some.inj hc
    exact hgap b List.mem_cons_self

/-- Tokens that are written with blanks between them are scanned as themselves. -/
theorem scan_interleave (hts : ∀ t ∈ ts, t.Genuine) (hlength : gaps.length = ts.length)
    (hgaps : ∀ gap ∈ gaps, IsGap gap) (hne : ∀ gap ∈ gaps.tail, gap ≠ []) (htail : IsGap tail)
    (n : Nat) : scan ⟨n, interleave gaps ts ++ tail⟩ =
      ⟨layTokens n gaps ts, .endOfInput (n + byteLength (interleave gaps ts ++ tail))⟩ := by
  induction ts generalizing gaps n with
  | nil =>
    obtain rfl := List.length_eq_zero_iff.mp hlength
    have hend : scan ⟨n + byteLength tail, []⟩ = ⟨[], .endOfInput (n + byteLength tail)⟩ :=
      scan_of_read_endOfInput rfl
    rw [← scan_gap htail n [], List.append_nil] at hend
    exact hend
  | cons t ts ih =>
    obtain ⟨gap, gaps, rfl⟩ := List.exists_cons_of_length_eq_add_one hlength
    obtain ⟨ht, hts⟩ := List.forall_mem_cons.mp hts
    obtain ⟨hgap, hgaps⟩ := List.forall_mem_cons.mp hgaps
    have hlength := Nat.succ.inj hlength
    have hafter : t.kind.EndsBefore (interleave gaps ts ++ tail) :=
      t.kind.endsBefore_of_isBlank
        (isBlank_head_interleave (fun g hg => ⟨hgaps g hg, hne g hg⟩) hlength htail)
    have hscan := ih hts hlength hgaps (fun g hg => hne g (List.mem_of_mem_tail hg))
      (n + byteLength gap + byteLength t.lexeme.toList)
    have hcons : interleave (gap :: gaps) (t :: ts) ++ tail =
        gap ++ (t.lexeme.toList ++ (interleave gaps ts ++ tail)) := by
      simp [interleave]
    rw [hcons, scan_gap hgap, scan_spells ht hafter, hscan, String.ofList_toList]
    simp only [layTokens, Token.stop, byteLength_append, Nat.add_assoc]

end Text.Cursor

/-- In every layout tokens keep their kinds and their source texts. -/
theorem forall₂_layTokens {gaps : List (List Char)} {ts : List Token}
    (h : gaps.length = ts.length) (n : Nat) :
    List.Forall₂ (fun t u => u.kind = t.kind ∧ u.lexeme = t.lexeme) ts (layTokens n gaps ts) := by
  induction ts generalizing gaps n with
  | nil => cases gaps <;> exact .nil
  | cons t ts ih =>
    obtain ⟨gap, gaps, rfl⟩ := List.exists_cons_of_length_eq_add_one h
    exact .cons ⟨rfl, rfl⟩ (ih (Nat.succ.inj h) _)

/-! ## Writing tokens -/

/-- The source texts of tokens, with a blank before each and one at the end. -/
def writtenTokens (ts : List Token) : List Char :=
  ts.flatMap (fun t => ' ' :: t.lexeme.toList) ++ [' ']

def writeTokens (ts : List Token) : String := String.ofList (writtenTokens ts)

theorem writtenTokens_eq (ts : List Token) :
    writtenTokens ts = interleave (List.replicate ts.length [' ']) ts ++ [' '] := by
  rw [writtenTokens]
  induction ts with
  | nil => rfl
  | cons t ts ih =>
    rw [List.flatMap_cons, List.append_assoc, ih]
    simp [interleave, List.replicate_succ]

/-- Written tokens are scanned as what they are. -/
theorem scan_writeTokens {ts : List Token} (h : ∀ t ∈ ts, t.Genuine) :
    (scan (writeTokens ts)).tokens.map Token.kind = ts.map Token.kind ∧
      ∃ m, (scan (writeTokens ts)).ending = .endOfInput m := by
  have hgap : IsGap [' '] := List.forall_mem_singleton.mpr rfl
  have hgaps : ∀ gap ∈ List.replicate ts.length [' '], IsGap gap := fun gap hmem =>
    List.eq_of_mem_replicate hmem ▸ hgap
  have hne : ∀ gap ∈ (List.replicate ts.length [' ']).tail, gap ≠ [] := fun gap hmem =>
    List.eq_of_mem_replicate (List.mem_of_mem_tail hmem) ▸ List.cons_ne_nil ' ' []
  have hlength := List.length_replicate (n := ts.length) (a := [' '])
  rw [scan, Cursor.start, writeTokens, String.toList_ofList, writtenTokens_eq,
    Cursor.scan_interleave h hlength hgaps hne hgap]
  have hkinds : List.Forall₂ (fun u t => u.kind = t.kind)
      (layTokens 0 (List.replicate ts.length [' ']) ts) ts :=
    (forall₂_layTokens hlength 0).flip.imp fun _ _ h => h.1
  have hmapped := List.forall₂_map_left_iff.mpr (List.forall₂_map_right_iff.mpr hkinds)
  exact ⟨List.forall₂_eq_eq_eq ▸ hmapped, _, rfl⟩

end TrafficQuery
