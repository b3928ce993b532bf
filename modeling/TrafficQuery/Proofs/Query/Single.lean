import TrafficQuery.Compile.Query
import TrafficQuery.Proofs.Query.Kinds
import TrafficQuery.Proofs.Token.Layout

/-!
# Queries with one test

The texts of queries that have a single test of a time, of a status or of an id, and what they are read
to.
-/

namespace TrafficQuery
open Text Grammar

/-! ## Texts and the kinds of their tokens -/

/-- A text is scanned to its end, wherever it starts, and its tokens are of these kinds. -/
def ScansTo (cs : List Char) (ks : List Kind) : Prop :=
  ∀ n, (Cursor.scan ⟨n, cs⟩).tokens.map Token.kind = ks ∧ ∃ m, (Cursor.scan ⟨n, cs⟩).ending = .endOfInput m

namespace ScansTo
variable {w cs : List Char} {k : Kind} {ks : List Kind}

theorem nil : ScansTo [] [] := by
  intro n
  rw [Cursor.scan_of_read_endOfInput rfl]
  exact ⟨rfl, n, rfl⟩

theorem word (h : ScansTo cs ks) (hw : Spells w k) (hafter : k.EndsBefore cs) :
    ScansTo (w ++ cs) (k :: ks) := by
  intro n
  obtain ⟨hkinds, hending⟩ := h (n + byteLength w)
  rw [Cursor.scan_spells hw hafter]
  exact ⟨congrArg (k :: ·) hkinds, hending⟩

theorem last (hw : Spells w k) : ScansTo w [k] := by
  have hend : k.EndsBefore [] := k.endsBefore_of_isBlank (by simp)
  have h := nil.word hw hend
  rwa [List.append_nil] at h

theorem spaced (h : ScansTo cs ks) (hw : Spells w k) : ScansTo (w ++ ' ' :: cs) (k :: ks) := by
  have hgap : IsGap [' '] := List.forall_mem_singleton.mpr rfl
  have hblank : ScansTo (' ' :: cs) ks := by
    intro n
    have hscan := Cursor.scan_gap hgap n cs
    rw [List.singleton_append] at hscan
    rw [hscan]
    exact h _
  exact hblank.word hw (k.endsBefore_of_isBlank (by simp [isBlank]))

end ScansTo

/-! ## Queries -/

theorem Test.eq_of_unmarked {t u : Test} (h : t.unmarked = u.unmarked) (hu : u.join? = none) :
    t = u := by
  cases u with
  | header | raw => cases hu
  | _ =>
    cases t <;> cases h
    rfl

/-- The three words that a query starts with. -/
def leadingKinds : List Kind := [.keyword .query, .keyword .requests, .keyword .whereClause]

/-- A text with the tokens of one test is the query for that test. -/
theorem parse_of_scansTo {source : String} {ks : List Kind} {test : Test}
    (h : ScansTo source.toList (leadingKinds ++ ks)) (hfield : IsField (ks.map Kind.token) test)
    (hmark : test.join? = none) : parse source = .ok ⟨.rows, .test test⟩ := by
  obtain ⟨hkinds, hending⟩ := h 0
  have hquery : IsQuery ((leadingKinds ++ ks).map Kind.token) (.test test) 0 :=
    ⟨_, _, _, ks.map Kind.token, rfl, rfl, rfl, rfl, .last (.field hfield)⟩
  have hsame : (scan source).tokens.map Token.kind =
      ((leadingKinds ++ ks).map Kind.token).map Token.kind := by
    rw [List.map_map]
    exact hkinds.trans (List.map_id' _).symm
  obtain ⟨c, hc, hunmarked⟩ := hquery.of_kinds hsame
  cases c with
  | test t =>
    obtain rfl := Test.eq_of_unmarked (Condition.test.inj hunmarked) hmark
    have hread : (scan source).condition = .ok (.test t) :=
      Scan.condition_eq_ok_iff.mpr ⟨hending, 0, Nat.zero_le _, hc⟩
    exact bind_eq_ok_iff.mpr ⟨_, hread, rfl⟩
  | _ => cases hunmarked

theorem ScansTo.query {cs : List Char} {ks : List Kind} (h : ScansTo cs ks) :
    ScansTo ("query requests where ".toList ++ cs) (leadingKinds ++ ks) := by
  have hword (word : Keyword) : Spells word.word.toList (.keyword word) := spells_of_fixedWord? rfl
  exact ((h.spaced (hword .whereClause)).spaced (hword .requests)).spaced (hword .query)

section Texts
variable {w : List Char} {n : Nat} (op : OrderOp)

theorem spells_symbol : Spells op.symbol.toList (.order op) := spells_of_fixedWord? rfl

/-- The query for a time that is so many seconds back, with a word for the seconds. -/
def timestampQuery (op : OrderOp) (w : List Char) : String :=
  "query requests where timestamp " ++ op.symbol ++ " " ++ String.ofList w ++ " ago"

/-- The query for a status, with a word for its number. -/
def statusQuery (op : OrderOp) (w : List Char) : String :=
  "query requests where resp.status " ++ op.symbol ++ " " ++ String.ofList w

/-- The query for an id, with a word for it. -/
def idQuery (w : List Char) : String := "query requests where id = " ++ String.ofList w

theorem parse_timestampQuery (hw : Spells w (.duration n)) :
    parse (timestampQuery op w) = .ok ⟨.rows, .test (.timestamp op n)⟩ := by
  have hname : Spells "timestamp".toList (.identifier "timestamp") :=
    spells_of_classify (by decide) (by decide) rfl
  have hago : Spells "ago".toList (.keyword .ago) := spells_of_fixedWord? rfl
  have htext : (timestampQuery op w).toList = "query requests where ".toList ++
      ("timestamp".toList ++ ' ' :: (op.symbol.toList ++ ' ' :: (w ++ ' ' :: "ago".toList))) := by
    delta timestampQuery
    simp
  have hscan := ((((ScansTo.last hago).spaced hw).spaced (spells_symbol op)).spaced hname).query
  rw [← htext] at hscan
  have hisName : IsName (Kind.identifier "timestamp").token "timestamp" := ⟨_, rfl, by decide⟩
  have hmem : ("timestamp", Field.timestamp) ∈ requestFields := by decide
  exact parse_of_scansTo hscan
    ⟨.timestamp, _, _, _, rfl, .request hisName hmem, .timestamp rfl rfl rfl⟩ rfl

theorem parse_statusQuery (hw : Spells w (.number n)) :
    parse (statusQuery op w) = .ok ⟨.rows, .test (.status op n)⟩ := by
  have howner : Spells "resp".toList (.identifier "resp") :=
    spells_of_classify (by decide) (by decide) rfl
  have hdot : Spells ['.'] .dot := .sign (by decide)
  have hname : Spells "status".toList (.identifier "status") :=
    spells_of_classify (by decide) (by decide) rfl
  have htext : (statusQuery op w).toList = "query requests where ".toList ++ ("resp".toList ++
      (['.'] ++ ("status".toList ++ ' ' :: (op.symbol.toList ++ ' ' :: w)))) := by
    delta statusQuery
    simp
  have hvalue := (((ScansTo.last hw).spaced (spells_symbol op)).spaced hname)
  have hfield := (hvalue.word hdot ⟨nofun, by simp⟩).word howner ⟨by simp [terminators], by simp⟩
  have hscan := hfield.query
  rw [← htext] at hscan
  have hisOwner : IsName (Kind.identifier "resp").token "resp" := ⟨_, rfl, by decide⟩
  have hisName : IsName (Kind.identifier "status").token "status" := ⟨_, rfl, by decide⟩
  have hmem : ("status", Field.status) ∈ responseFields := by decide
  exact parse_of_scansTo hscan ⟨.status, _, _, _, rfl,
    .response hisOwner (by decide) rfl hisName hmem, .status rfl rfl⟩ rfl

theorem parse_idQuery (hw : Spells w (.number n)) :
    parse (idQuery w) = .ok ⟨.rows, .test (.id .eq (toString n))⟩ := by
  have hname : Spells "id".toList (.identifier "id") :=
    spells_of_classify (by decide) (by decide) rfl
  have htext : (idQuery w).toList = "query requests where ".toList ++
      ("id".toList ++ ' ' :: (OrderOp.eq.symbol.toList ++ ' ' :: w)) := by
    delta idQuery
    simp [OrderOp.symbol]
  have hscan := (((ScansTo.last hw).spaced (spells_symbol .eq)).spaced hname).query
  rw [← htext] at hscan
  have hisName : IsName (Kind.identifier "id").token "id" := ⟨_, rfl, by decide⟩
  have hmem : ("id", Field.id) ∈ requestFields := by decide
  exact parse_of_scansTo hscan ⟨.id, _, _, _, rfl, .request hisName hmem, .id rfl rfl⟩ rfl

end Texts

end TrafficQuery
