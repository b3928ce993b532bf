import TrafficQuery.Proofs.Query.Viability
import TrafficQuery.Proofs.Token.Faults
import TrafficQuery.Text.Caret

/-!
# Where the caret stands

A parse error is at a place between two characters of its text, so the caret has as many blanks in front
of it as the text has characters there.
-/

namespace TrafficQuery
open Text

/-- What stands at an error: a token, a text from which no token can be read, or the end. -/
inductive ParseError.PointsAt (source : String) (e : ParseError) (after : List Char) : Prop
  | token {t : Token} {rest : List Char} : t ∈ (scan source).tokens → t.start = e.position →
      after = t.lexeme.toList ++ rest → e.PointsAt source after
  | unreadable {fault : LexFault} : e.fault = .lex fault → leadingToken after = .error fault →
      fault.Quotes source e.position → e.PointsAt source after
  | ending {expected : Expected} : e.fault = .unexpectedEnd expected →
      e.position = byteLength source.toList → after = [] → e.PointsAt source after

/-- An error between two parts of its text, with the caret below it. -/
structure CaretBelow (source : String) (e : ParseError) (before after : List Char) : Prop where
  text : source.toList = before ++ after
  position : e.position = byteLength before
  le : e.position ≤ byteLength source.toList
  /-- The error is not inside a character. -/
  column : charsBefore? source.toList e.position = some before.length
  caret : caretLine source e.position =
    String.ofList (List.replicate before.length ' ' ++ ['^'])
  pointsAt : e.PointsAt source after

/-- Between two characters of a text the caret has its place. -/
theorem CaretBelow.of_split {source : String} {e : ParseError} {before after : List Char}
    (htext : source.toList = before ++ after) (hposition : e.position = byteLength before)
    (hpoints : e.PointsAt source after) : CaretBelow source e before after := by
  have hcolumn : charsBefore? source.toList e.position = some before.length := by
    rw [htext, hposition, charsBefore?_append]
  have hcaret : caretLine source e.position =
      String.ofList (List.replicate before.length ' ' ++ ['^']) := by
    rw [caretLine, hcolumn, Option.getD_some]
  have hle : e.position ≤ byteLength source.toList := by
    rw [htext, hposition, byteLength_append]
    exact Nat.le_add_right _ _
  exact ⟨htext, hposition, hle, hcolumn, hcaret, hpoints⟩

/-- A refused text is cut in two at what it is refused for. -/
theorem Refusal.exists_caretBelow {source : String} {e : ParseError} (h : Refusal source e) :
    ∃ before after, CaretBelow source e before after := by
  cases h with
  | @token us vs t p hts hus ht =>
    obtain ⟨hposition, -⟩ := Reading.blames_of_step (Reading.guided_of_foldlM hus) ht
    have hmem : t ∈ (scan source).tokens := hts ▸ List.mem_append_right us List.mem_cons_self
    obtain ⟨rest, ⟨before, htext, hstart⟩, -⟩ :=
      (Cursor.start source).exists_after_of_mem_scan t hmem
    rw [Cursor.start, Nat.zero_add] at hstart
    exact ⟨before, t.lexeme.toList ++ rest,
      .of_split htext (hposition.trans hstart) (.token hmem hposition.symm rfl)⟩
  | @broken p fault hp hending he =>
    subst he
    obtain ⟨before, c, after, htext, hposition, hread, hb⟩ :=
      Cursor.exists_rest_of_scan_broken hending
    rw [Cursor.start, Nat.zero_add] at hposition
    have hquotes : fault.fault.Quotes source fault.position := by
      rw [hposition]
      exact LexFault.quotes_of_leadingToken htext hb hread
    exact ⟨before, c :: after, .of_split htext hposition (.unreadable rfl hread hquotes)⟩
  | @ended p n expected hp hending hfinish he =>
    subst he
    have hposition := Cursor.position_of_scan_endOfInput hending
    rw [Cursor.start, Nat.zero_add] at hposition
    exact ⟨source.toList, [],
      .of_split (List.append_nil _).symm hposition (.ending rfl hposition rfl)⟩

/-- The caret stands below the first character of the token or of the unreadable text that a query is
refused for, or behind its last character. -/
theorem caret_below_parse_error {source : String} {e : ParseError} (h : parse source = .error e) :
    ∃ before after, CaretBelow source e before after :=
  (refusal_of_parse h).exists_caretBelow

/-- A query with a stray connective behind letters and blanks of several bytes. -/
def strayConnective : String := "query requests where path = 'éé' and\u3000or host exists"

theorem caret_below_parse_error_strayConnective :
    parse strayConnective = .error ⟨.unexpectedToken .condition (.connective .or), 41⟩ ∧
      caretLine strayConnective 41 = "                                     ^" ∧
      ∃ before after, CaretBelow strayConnective
        ⟨.unexpectedToken .condition (.connective .or), 41⟩ before after := by
  have h : parse strayConnective =
      .error ⟨.unexpectedToken .condition (.connective .or), 41⟩ := by decide +kernel
  exact ⟨h, by decide +kernel, caret_below_parse_error h⟩

end TrafficQuery
