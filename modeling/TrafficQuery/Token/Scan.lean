import TrafficQuery.Token.Lexeme

namespace TrafficQuery
open Text

/-- What stands behind the blanks of a place, and the place behind that. An error moves nothing. -/
def Text.Cursor.read (c : Cursor) : Except LexError (Item × Cursor) :=
  let c := c.skipBlanks
  if c.rest.isEmpty then .ok (.endOfInput c.offset, c)
  else match leadingToken c.rest with
    | .ok (kind, n) =>
      .ok (.token ⟨kind, c.offset, String.ofList (c.rest.take n)⟩,
        c.past (c.rest.take n) (c.rest.drop n))
    | .error fault => .error ⟨fault, c.offset⟩

theorem Text.Cursor.read_shorter {c d : Cursor} {t : Token}
    (h : c.read = .ok (.token t, d)) : d.rest.length < c.rest.length := by
  unfold Cursor.read at h
  simp only at h
  split at h
  · simp at h
  · split at h
    · rename_i k n hk
      simp only [Except.ok.injEq, Prod.mk.injEq, Item.token.injEq] at h
      obtain ⟨-, rfl⟩ := h
      have hle := Cursor.length_skipWhile_le isBlank c
      obtain ⟨a, r, hr⟩ := List.exists_cons_of_ne_nil (l := c.skipBlanks.rest) (by simp_all)
      have hn := leadingToken_length (isBlank_head_dropWhile hr) (hr ▸ hk)
      simp only [Cursor.past, List.length_drop]
      have : c.skipBlanks.rest.length ≤ c.rest.length := hle
      rw [← hr] at hn
      omega
    · simp at h

/-- How a scan ends: at the end of the input, or where no token can be read. -/
inductive Ending
  | endOfInput (position : Nat)
  | broken (error : LexError)
  deriving DecidableEq, Repr, Inhabited

/-- The tokens of a text from left to right, as far as they can be read. -/
structure Scan where
  tokens : List Token
  ending : Ending
  deriving Repr

def Text.Cursor.scan (c : Cursor) : Scan :=
  match _h : c.read with
  | .ok (.token t, d) =>
    let later := d.scan
    ⟨t :: later.tokens, later.ending⟩
  | .ok (.endOfInput n, _) => ⟨[], .endOfInput n⟩
  | .error e => ⟨[], .broken e⟩
termination_by c.rest.length
decreasing_by exact Cursor.read_shorter _h

def scan (source : String) : Scan := (Cursor.start source).scan

end TrafficQuery
