import Mathlib.Order.Monotone.Basic
import TrafficQuery.Proofs.Token.Layout

/-!
# Cuts between tokens

A text that is cut between two of its tokens is scanned part by part. So a parenthesis that is put into a
cut becomes a token of its own, and all other tokens stay what they are, some of them further on.
-/

namespace TrafficQuery
open Text

/-- A text before which every token ends. -/
def Separates (after : List Char) : Prop := ∀ k : Kind, k.EndsBefore after

theorem Kind.EndsBefore.congr_head {k : Kind} {as bs : List Char} (h : k.EndsBefore as)
    (hhead : bs.head? = as.head?) : k.EndsBefore bs := by
  rw [Kind.EndsBefore, hhead]
  exact h

/-- What is taken of a text from the front lies within a front of it that is as long. -/
theorem exists_append_of_byteLength_le {as bs cs ds : List Char} (h : cs ++ ds = as ++ bs)
    (hle : byteLength as ≤ byteLength cs) : ∃ es, cs = as ++ es ∧ bs = es ++ ds := by
  rcases List.append_eq_append_iff.mp h with ⟨es, rfl, rfl⟩ | ⟨es, rfl, rfl⟩
  · have hes : es = [] := by
      by_contra hne
      have hpos := byteLength_pos hne
      rw [byteLength_append] at hle
      omega
    subst hes
    exact ⟨[], by simp, rfl⟩
  · exact ⟨es, rfl, rfl⟩

namespace Text.Cursor
variable {c : Cursor} {n m : Nat} {cs ds : List Char} {t : Token} {ts us : List Token}

/-- The first token of a scan is read, and the others are scanned behind it. -/
theorem exists_read_of_scan_cons (h : c.scan = ⟨t :: ts, .endOfInput m⟩) :
    ∃ d, c.read = .ok (.token t, d) ∧ d.scan = ⟨ts, .endOfInput m⟩ := by
  cases hread : c.read with
  | error e =>
    rw [scan_of_read_error hread] at h
    cases h
  | ok result =>
    obtain ⟨item, d⟩ := result
    cases item with
    | token u =>
      obtain ⟨htokens, hending⟩ := Scan.mk.inj ((scan_of_read_token hread).symm.trans h)
      obtain ⟨rfl, rfl⟩ := List.cons.inj htokens
      exact ⟨d, rfl, congrArg (Scan.mk d.scan.tokens) hending⟩
    | endOfInput k =>
      rw [scan_of_read_endOfInput hread] at h
      cases h

/-- Only blanks stand before the first token of a scan. -/
theorem isGap_of_scan (h : scan ⟨n, cs ++ ds⟩ = ⟨us, .endOfInput m⟩)
    (hus : ∀ u ∈ us, n + byteLength cs ≤ u.start) : IsGap cs := by
  cases us with
  | nil =>
    obtain ⟨gaps, rest, -, -, htext, hrest⟩ := exists_gaps ⟨n, cs ++ ds⟩
    rw [h] at htext hrest
    have hnone : interleave gaps [] = [] := by rw [interleave, List.zip_nil_right, List.flatMap_nil]
    have htext : cs ++ ds = rest := by rwa [hnone] at htext
    exact fun c hc => hrest.1 c (htext ▸ List.mem_append_left ds hc)
  | cons u us =>
    obtain ⟨d, hread, -⟩ := exists_read_of_scan_cons h
    obtain ⟨blanks, htext, hstart, -, -, hblanks, -⟩ := exists_blanks_of_read hread
    have hle := hus u List.mem_cons_self
    simp only at htext hstart
    obtain ⟨es, rfl, -⟩ := exists_append_of_byteLength_le htext.symm (by omega)
    exact fun c hc => hblanks c (List.mem_append_left es hc)

/-- A token in front of a cut is read whatever stands behind the cut. -/
theorem exists_read_of_stop_le {d : Cursor} (h : read ⟨n, cs ++ ds⟩ = .ok (.token t, d))
    (hle : t.stop ≤ n + byteLength cs) : ∃ as es, cs = as ++ es ∧
      d = ⟨n + byteLength as, es ++ ds⟩ ∧ ∀ after, Separates after →
        read ⟨n, cs ++ after⟩ = .ok (.token t, ⟨n + byteLength as, es ++ after⟩) := by
  obtain ⟨blanks, htext, hstart, hstop, hgenuine, hblanks, hleads⟩ := exists_blanks_of_read h
  simp only [Token.stop] at htext hstart hstop hle
  have hword : byteLength (blanks ++ t.lexeme.toList) = byteLength blanks + byteLength t.lexeme.toList :=
    byteLength_append _ _
  obtain ⟨es, rfl, hrest⟩ :=
    exists_append_of_byteLength_le (htext.trans (List.append_assoc _ _ _).symm) (by omega)
  have hoffset : d.offset = n + byteLength (blanks ++ t.lexeme.toList) := by omega
  refine ⟨blanks ++ t.lexeme.toList, es, rfl, Cursor.mk.injEq .. ▸ ⟨hoffset, hrest⟩, ?_⟩
  intro after hafter
  have hends : t.kind.EndsBefore (es ++ after) := by
    have hold := endsBefore_of_leadingToken hleads
    rw [hrest] at hold
    cases es with
    | nil => exact hafter t.kind
    | cons e es => exact hold.congr_head rfl
  rw [List.append_assoc, List.append_assoc, read_gap hblanks, read_spells hgenuine hends,
    String.ofList_toList, ← hstart, hword, ← Nat.add_assoc, ← hstart]

/-- A text that is cut between two tokens is scanned part by part, whatever stands behind the cut, as
long as it keeps the tokens apart. -/
theorem scan_cut (h : scan ⟨n, cs ++ ds⟩ = ⟨ts ++ us, .endOfInput m⟩)
    (hts : ∀ t ∈ ts, t.stop ≤ n + byteLength cs) (hus : ∀ u ∈ us, n + byteLength cs ≤ u.start) :
    scan ⟨n + byteLength cs, ds⟩ = ⟨us, .endOfInput m⟩ ∧
      ∀ after, Separates after → scan ⟨n, cs ++ after⟩ =
        ⟨ts ++ (scan ⟨n + byteLength cs, after⟩).tokens, (scan ⟨n + byteLength cs, after⟩).ending⟩ := by
  induction ts generalizing n cs with
  | nil =>
    have hgap := isGap_of_scan h hus
    exact ⟨(scan_gap hgap n ds).symm.trans h, fun after _ => scan_gap hgap n after⟩
  | cons t ts ih =>
    obtain ⟨hle, hts⟩ := List.forall_mem_cons.mp hts
    obtain ⟨d, hread, hd⟩ := exists_read_of_scan_cons h
    obtain ⟨as, es, rfl, rfl, hreplace⟩ := exists_read_of_stop_le hread hle
    rw [byteLength_append, ← Nat.add_assoc] at hts hus ⊢
    obtain ⟨hbehind, hlater⟩ := ih hd hts hus
    refine ⟨hbehind, fun after hafter => ?_⟩
    rw [scan_of_read_token (hreplace after hafter), hlater after hafter]
    rfl

end Text.Cursor

/-! ## Parentheses -/

/-- A parenthesis, with blanks around it or without. -/
def Paren.IsWritten (side : Paren) (cs : List Char) : Prop :=
  ∃ gap gap', IsGap gap ∧ IsGap gap' ∧ cs = gap ++ (side.symbol.toList ++ gap')

section
variable {side : Paren} {cs : List Char}

theorem Paren.spells (side : Paren) : Spells side.symbol.toList (.paren side) :=
  spells_of_fixedWord? rfl

theorem Paren.endsBefore (side : Paren) (after : List Char) : (Kind.paren side).EndsBefore after := by
  refine ⟨nofun, fun h => ?_⟩
  rcases h with h | h <;> cases h

/-- A written parenthesis keeps tokens apart. -/
theorem Paren.IsWritten.separates (h : side.IsWritten cs) (after : List Char) :
    Separates (cs ++ after) := by
  obtain ⟨gap, gap', hgap, -, rfl⟩ := h
  intro k
  cases gap with
  | nil => cases side <;> exact ⟨fun _ c hc => .inr (Option.some.inj hc ▸ by decide), fun _ => nofun⟩
  | cons b gap =>
    refine k.endsBefore_of_isBlank fun c hc => ?_
    obtain rfl : b = c := Option.some.inj hc
    exact hgap b List.mem_cons_self

/-- A written parenthesis is a token, and the scan goes on behind it. -/
theorem Paren.IsWritten.exists_scan (h : side.IsWritten cs) (n : Nat) (after : List Char) :
    ∃ t : Token, t.kind = .paren side ∧ Cursor.scan ⟨n, cs ++ after⟩ =
      ⟨t :: (Cursor.scan ⟨n + byteLength cs, after⟩).tokens,
        (Cursor.scan ⟨n + byteLength cs, after⟩).ending⟩ := by
  obtain ⟨gap, gap', hgap, hgap', rfl⟩ := h
  have hends := side.endsBefore (gap' ++ after)
  refine ⟨⟨.paren side, n + byteLength gap, String.ofList side.symbol.toList⟩, rfl, ?_⟩
  rw [List.append_assoc, List.append_assoc, Cursor.scan_gap hgap, Cursor.scan_spells side.spells hends,
    Cursor.scan_gap hgap', byteLength_append, byteLength_append, Nat.add_assoc, Nat.add_assoc]

end

/-- Tokens in front of, between and behind two cuts of a text. -/
structure CutAt (before inner : List Char) (pre mid post : List Token) : Prop where
  pre : ∀ t ∈ pre, t.stop ≤ byteLength before
  mid : ∀ t ∈ mid, byteLength before ≤ t.start ∧ t.stop ≤ byteLength before + byteLength inner
  post : ∀ t ∈ post, byteLength before + byteLength inner ≤ t.start

/-- Where a place is found again when a text of `o` bytes has been put in front of byte `b`, and one of
`e` bytes in front of byte `c`. -/
def spread (b o c e n : Nat) : Nat := n + (if b ≤ n then o else 0) + (if c ≤ n then e else 0)

theorem strictMono_spread (b o c e : Nat) : StrictMono (spread b o c e) := by
  intro n m h
  simp only [spread]
  split_ifs <;> omega

/-- A token at another place. -/
def Token.move (ρ : Nat → Nat) (t : Token) : Token := { t with start := ρ t.start }

section
variable {before inner after opening closing : List Char} {pre mid post : List Token} {m : Nat}

theorem Token.shift_comp (k l : Nat) : Token.shift l ∘ Token.shift k = Token.shift (l + k) := by
  funext t
  rw [Function.comp_apply, shift, shift, shift, Nat.add_assoc, Nat.add_comm k l]

/-- The tokens of a text that starts with a pair of parentheses around a part of another. -/
theorem exists_scan_enclosed {n : Nat}
    (h : Cursor.scan ⟨n, inner ++ after⟩ = ⟨mid ++ post, .endOfInput m⟩)
    (hmid : ∀ t ∈ mid, t.stop ≤ n + byteLength inner)
    (hpost : ∀ t ∈ post, n + byteLength inner ≤ t.start)
    (ho : Paren.opening.IsWritten opening) (he : Paren.closing.IsWritten closing) :
    ∃ o e : Token, o.kind = .paren .opening ∧ e.kind = .paren .closing ∧
      Cursor.scan ⟨n, opening ++ (inner ++ (closing ++ after))⟩ =
        ⟨o :: (mid.map (Token.shift (byteLength opening)) ++
          e :: post.map (Token.shift (byteLength opening + byteLength closing))),
          .endOfInput (m + byteLength closing + byteLength opening)⟩ := by
  obtain ⟨hafter, hinner⟩ := Cursor.scan_cut h hmid hpost
  obtain ⟨e, hek, hclosing⟩ := he.exists_scan (n + byteLength inner) after
  obtain ⟨o, hok, hopening⟩ := ho.exists_scan n (inner ++ (closing ++ after))
  have hbehind := Cursor.scan_shift ⟨n + byteLength inner, after⟩ (byteLength closing)
  have hwithin := Cursor.scan_shift ⟨n, inner ++ (closing ++ after)⟩ (byteLength opening)
  simp only at hbehind hwithin
  rw [hbehind, hafter] at hclosing
  rw [hwithin, hinner _ (he.separates after), hclosing] at hopening
  refine ⟨o, e.shift (byteLength opening), hok, hek, hopening.trans ?_⟩
  simp only [Scan.shift, Ending.shift, List.map_append, List.map_cons, List.map_map, Token.shift_comp]

/-- Tokens between two places are moved by so many bytes. -/
theorem map_move_eq {ρ : Nat → Nat} {k : Nat} (hk : ∀ t ∈ mid, ρ t.start = t.start + k) :
    mid.map (Token.move ρ) = mid.map (Token.shift k) :=
  List.map_congr_left fun t ht => by rw [Token.move, Token.shift, hk t ht]

/-- The tokens of a text into which parentheses have been put at two cuts. -/
theorem exists_scan_parenthesized
    (h : Cursor.scan ⟨0, before ++ (inner ++ after)⟩ = ⟨pre ++ (mid ++ post), .endOfInput m⟩)
    (hcut : CutAt before inner pre mid post) (ho : Paren.opening.IsWritten opening)
    (he : Paren.closing.IsWritten closing) :
    ∃ o e : Token, o.kind = .paren .opening ∧ e.kind = .paren .closing ∧ ∃ ρ m', StrictMono ρ ∧
      Cursor.scan ⟨0, before ++ (opening ++ (inner ++ (closing ++ after)))⟩ =
        ⟨pre.map (Token.move ρ) ++ o :: (mid.map (Token.move ρ) ++ e :: post.map (Token.move ρ)),
          .endOfInput m'⟩ := by
  let b := byteLength before
  let c := b + byteLength inner
  let ρ := spread b (byteLength opening) c (byteLength closing)
  have hgenuine (t : Token) (ht : t ∈ pre ++ (mid ++ post)) : t.start < t.stop := by
    have hmem : t ∈ (Cursor.scan ⟨0, before ++ (inner ++ after)⟩).tokens := by rwa [h]
    exact (Cursor.genuine_of_mem_scan _ t hmem).start_lt_stop
  have hpre : pre.map (Token.move ρ) = pre := by
    refine (map_move_eq (k := 0) fun t ht => ?_).trans (List.map_id pre)
    have hlt := hgenuine t (by simp [ht])
    have hstop := hcut.pre t ht
    simp only [ρ, spread, b, c]
    rw [if_neg (by omega), if_neg (by omega)]
  have hmid : mid.map (Token.move ρ) = mid.map (Token.shift (byteLength opening)) := by
    refine map_move_eq fun t ht => ?_
    have hlt := hgenuine t (by simp [ht])
    obtain ⟨hstart, hstop⟩ := hcut.mid t ht
    simp only [ρ, spread, b, c]
    rw [if_pos (by omega), if_neg (by omega)]
    omega
  have hpost : post.map (Token.move ρ) =
      post.map (Token.shift (byteLength opening + byteLength closing)) := by
    refine map_move_eq fun t ht => ?_
    have hstart := hcut.post t ht
    simp only [ρ, spread, b, c]
    rw [if_pos (by omega), if_pos (by omega)]
    omega
  obtain ⟨hpost', hmid'⟩ : (∀ t ∈ post, 0 + b + byteLength inner ≤ t.start) ∧
      ∀ t ∈ mid ++ post, 0 + b ≤ t.start := by
    rw [Nat.zero_add]
    refine ⟨hcut.post, fun t ht => ?_⟩
    rcases List.mem_append.mp ht with ht | ht
    · exact (hcut.mid t ht).1
    · exact Nat.le_trans (Nat.le_add_right _ _) (hcut.post t ht)
  obtain ⟨hinner, hbefore⟩ :=
    Cursor.scan_cut h (fun t ht => (Nat.zero_add b).symm ▸ hcut.pre t ht) hmid'
  obtain ⟨o, e, hok, hek, henclosed⟩ := exists_scan_enclosed hinner
    (fun t ht => (Nat.zero_add b).symm ▸ (hcut.mid t ht).2) hpost' ho he
  refine ⟨o, e, hok, hek, ρ, m + byteLength closing + byteLength opening,
    strictMono_spread b (byteLength opening) c (byteLength closing), ?_⟩
  rw [hbefore _ (ho.separates _), henclosed, hpre, hmid, hpost]

end
end TrafficQuery
