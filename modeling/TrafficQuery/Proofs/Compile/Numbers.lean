import TrafficQuery.Proofs.Compile.Failure
import TrafficQuery.Proofs.Compile.Values
import TrafficQuery.Proofs.Query.Fields
import TrafficQuery.Proofs.Query.Single
import TrafficQuery.Proofs.Token.Numbers

/-!
# Numbers and durations in statements

A duration in a query is a number of seconds in its statement, and a number is a bound value. Neither is
rounded or wrapped on the way from the text of the query, as what does not fit is refused there.
-/

namespace TrafficQuery
open Text Sql

/-! ## Tests with a number -/

namespace Grammar
variable {ts us : List Token} {f o v : Token} {op : OrderOp} {test : Test}

theorem Names.exists_last {field : Field} {mark : Nat} (h : Names field mark us) :
    (∃ before g name, us = before ++ [g] ∧ IsName g name ∧
      (name, field) ∈ requestFields ++ responseFields) ∧ ∀ t ∈ us, ∀ op, t.kind ≠ .order op := by
  cases h with
  | @request g name _ hname hmem =>
    refine ⟨⟨[], g, name, rfl, hname, List.mem_append_left _ hmem⟩, ?_⟩
    obtain ⟨text, hk, -⟩ := hname
    simp [hk]
  | @response r d g owner name _ howner _ hd hname hmem =>
    refine ⟨⟨[r, d], g, name, rfl, hname, List.mem_append_right _ hmem⟩, ?_⟩
    obtain ⟨text, hk, -⟩ := hname
    obtain ⟨text', hk', -⟩ := howner
    simp [hk, hk', hd]

/-- Behind the name of a field there is no third token in front of an operator and its number. -/
theorem Form.not_infix {field : Field} {mark : Nat} (h : Form field mark us test)
    (ho : o.kind = .order op) (hv : ∀ text, v.kind ≠ .string text) : ¬[f, o, v] <:+: us := by
  intro hwindow
  cases h <;> simp [List.infix_cons_iff] at hwindow
  case timestamp hd _ =>
    obtain ⟨-, rfl, -⟩ := hwindow
    cases hd.symm.trans ho
  case headerPresent hn _ =>
    obtain ⟨-, rfl, -⟩ := hwindow
    rw [ho] at hn
    cases hn
  case headerValue hn _ hstring =>
    rcases hwindow with ⟨-, rfl, -⟩ | ⟨-, -, rfl⟩
    · rw [ho] at hn
      cases hn
    · exact hv _ hstring

/-- An operator in a field condition, with what is no string behind it, follows the name of the field. -/
theorem IsField.exists_form_of_infix (h : IsField us test) (ho : o.kind = .order op)
    (hv : ∀ text, v.kind ≠ .string text) (hwindow : [f, o, v] <:+: us) :
    ∃ field mark name vs, IsName f name ∧ (name, field) ∈ requestFields ++ responseFields ∧
      Form field mark (o :: v :: vs) test := by
  obtain ⟨field, mark, names, form, rfl, hnames, hform⟩ := h
  obtain ⟨⟨before, g, name, rfl, hname, hmem⟩, hnone⟩ := hnames.exists_last
  have hnot : o ∉ before ++ [g] := fun h => hnone o h op ho
  rcases List.infix_append_iff.mp hwindow with hown | hlater | ⟨as, bs, hsplit, has, hbs⟩
  · exact absurd (hown.subset (by simp)) hnot
  · exact absurd hlater (hform.not_infix ho hv)
  · obtain - | ⟨a, - | ⟨b, as⟩⟩ := as
    · rw [List.nil_append] at hsplit
      exact absurd (hsplit ▸ hbs.isInfix) (hform.not_infix ho hv)
    · obtain ⟨rfl, rfl⟩ := List.cons.inj hsplit
      obtain ⟨vs, rfl⟩ := hbs
      obtain ⟨-, hlast⟩ := List.append_inj' (has.choose_spec) rfl
      obtain ⟨rfl, -⟩ := List.cons.inj hlast
      exact ⟨field, mark, name, vs, hname, hmem, hform⟩
    · obtain ⟨-, hsplit⟩ := List.cons.inj hsplit
      obtain ⟨rfl, -⟩ := List.cons.inj hsplit
      exact absurd (has.subset (by simp)) hnot

theorem IsName.unique {name name' : String} (h : IsName f name) (h' : IsName f name') : name = name' := by
  obtain ⟨text, hk, rfl⟩ := h
  obtain ⟨text', hk', rfl⟩ := h'
  rw [Kind.identifier.inj (hk.symm.trans hk')]

/-- A duration stands in a test of the time, and nowhere else. -/
theorem IsField.eq_of_duration {n : Nat} (h : IsField us test) (ho : o.kind = .order op)
    (hv : v.kind = .duration n) (hwindow : [f, o, v] <:+: us) : test = .timestamp op n := by
  obtain ⟨field, mark, name, vs, -, -, hform⟩ :=
    h.exists_form_of_infix ho (by simp [hv]) hwindow
  cases hform
  case timestamp _ ho' hd =>
    cases ho.symm.trans ho'
    cases hv.symm.trans hd
    rfl
  all_goals simp_all [idText?, methodText?]

/-- A number stands in a test of an id or of a status, and nowhere else. -/
theorem IsField.eq_of_number {n : Int} (h : IsField us test) (ho : o.kind = .order op)
    (hv : v.kind = .number n) (hwindow : [f, o, v] <:+: us) :
    (IsName f "id" ∧ op = .eq ∧ test = .id .eq (toString n)) ∨
      (IsName f "status" ∧ test = .status op n) := by
  obtain ⟨field, mark, name, vs, hname, hmem, hform⟩ :=
    h.exists_form_of_infix ho (by simp [hv]) hwindow
  cases hform
  case id ho' htext =>
    obtain rfl : name = "id" := by simpa [requestFields, responseFields] using hmem
    cases ho.symm.trans ho'
    rw [hv] at htext
    cases htext
    exact .inl ⟨hname, rfl, rfl⟩
  case status ho' hvalue =>
    obtain rfl : name = "status" := by simpa [requestFields, responseFields] using hmem
    cases ho.symm.trans ho'
    cases hv.symm.trans hvalue
    exact .inr ⟨hname, rfl⟩
  all_goals simp_all [methodText?]

end Grammar
open Grammar

/-- A name, an operator and a value behind each other in a query are within one of its field
conditions. -/
theorem exists_isField_of_infix {source : String} {q : Query} {f o v : Token} {op : OrderOp}
    {name : String} (h : parse source = .ok q) (hf : IsName f name) (ho : o.kind = .order op)
    (hv : v.kind.isStructural = false ∧ ∀ text, v.kind ≠ .identifier text)
    (hwindow : [f, o, v] <:+: (scan source).tokens) :
    ∃ us, ∃ test ∈ q.root.tests, IsField us test ∧ [f, o, v] <:+: us := by
  have hf : f.kind.isStructural = false := by
    obtain ⟨text, hk, -⟩ := hf
    rw [hk]
    rfl
  obtain ⟨-, depth, -, hquery⟩ := exists_isQuery_of_parse h
  obtain ⟨fields, hfields, htests⟩ := hquery.exists_fields
  have ho' : o.kind.isStructural = false ∧ ∀ text, o.kind ≠ .identifier text := by
    simp [ho, Kind.isStructural]
  have hrest : ∀ t ∈ [o, v], t.kind.isStructural = false ∧ ∀ text, t.kind ≠ .identifier text :=
    List.forall_mem_cons.mpr ⟨ho', List.forall_mem_singleton.mpr hv⟩
  obtain ⟨⟨us, test⟩, hmem, hown⟩ := hfields.exists_mem_of_infix hf hrest hwindow
  exact ⟨us, test, htests ▸ List.mem_map_of_mem hmem, (hfields.isField _ hmem).1, hown⟩

/-! ## Comparisons in a statement -/

/-- A text stands in a statement, and its placeholders have these values. -/
def Sql.Statement.Contains (s : Statement) (text : String) (values : List Value) : Prop :=
  ∃ front back before after, s.text = front ++ text ++ back ∧
    s.values = before ++ values ++ after ∧ placeholders front = before.length

/-- What a test compiles to stands in the statement of its query. -/
theorem Query.contains_of_mem_tests {s : Settings} {query : Query} {statement : Statement} {t : Test}
    {e : Expr} (h : query.compile s = .ok statement) (ht : t ∈ query.root.tests)
    (he : Compile.test s t = .ok e) : statement.Contains (textOf e.pieces) e.values := by
  obtain ⟨filter, hfilter, rfl⟩ := Query.compile_eq_ok_iff.mp h
  obtain ⟨ps, hps, hcomposed⟩ := Compile.exists_composed_of_filter hfilter
  obtain ⟨earlier, later, htests⟩ := List.append_of_mem ht
  rw [htests] at hps
  obtain ⟨qs, p, rs, rfl, -, hp⟩ := hps.exists_append
  obtain rfl := Except.ok.inj (he.symm.trans hp)
  let statement : Statement := ⟨query.operation, s.tables, query.root.joins, filter⟩
  obtain ⟨front, back, hstatement, -⟩ := statement.exists_text
  obtain ⟨front', back', hpart, -⟩ := hcomposed.exists_pieces
  have hpieces : statement.pieces = (front ++ front') ++ e.pieces ++ (back' ++ back) := by
    rw [hstatement, hpart]
    simp only [List.append_assoc]
  obtain ⟨-, -, -, hlegible, -⟩ := statement.exists_pieces
  have hproper : ∀ q ∈ front ++ front', q.isProper = true := by
    intro q hq
    apply hlegible.1
    rw [hpieces, List.append_assoc]
    exact List.mem_append_left _ hq
  refine ⟨textOf (front ++ front'), textOf (back' ++ back), valuesOf (front ++ front'),
    valuesOf (back' ++ back), ?_, ?_, placeholders_textOf hproper⟩
  · change textOf statement.pieces = _
    rw [hpieces, textOf_append, textOf_append]
  · change valuesOf statement.pieces = _
    rw [hpieces, valuesOf_append, valuesOf_append]
    rfl

/-- A text without the quote is written as it is. -/
theorem doubled_eq_self {quote : Char} {s : String} (h : quote ∉ s.toList) : doubled quote s = s := by
  have hchars : s.toList.flatMap (fun c => if c = quote then [c, c] else [c]) = s.toList := by
    have hone : ∀ c ∈ s.toList, (if c = quote then [c, c] else [c]) = [c] := by
      intro c hc
      exact if_neg fun (heq : c = quote) => h (heq ▸ hc)
    rw [List.flatMap_congr hone, List.flatMap_singleton']
  rw [doubled, hchars, String.ofList_toList]

theorem textOf_ago (n : Nat) : textOf (Term.ago n).pieces =
    "(datetime('now', '-" ++ toString n ++ " seconds'))" := by
  have hquote : '\'' ∉ ("-" ++ toString n ++ " seconds").toList := by
    have hdigits : '\'' ∉ (toString n).toList := by
      rw [Nat.toString_eq_ofList_toDigits, String.toList_ofList]
      intro hmem
      cases isDigit_of_mem_toDigits hmem
    simp only [String.toList_append, List.mem_append, not_or]
    exact ⟨⟨by decide, hdigits⟩, by decide⟩
  have hpieces : (Term.ago n).pieces =
      [.sign "(", .word "datetime", .sign "(", .literal "now", .sign ",", .space] ++
        .literal ("-" ++ toString n ++ " seconds") :: [.sign ")", .sign ")"] := rfl
  have hfront : textOf [.sign "(", .word "datetime", .sign "(", .literal "now", .sign ",", .space] =
      "(datetime('now', " := by decide
  have hback : textOf [.sign ")", .sign ")"] = "))" := by decide
  rw [hpieces, textOf_append, hfront, textOf_cons, hback, Piece.text, doubled_eq_self hquote]
  apply String.toList_inj.mp
  simp

theorem textOf_compare (op : OrderOp) (l r : Term) : textOf (Expr.compare op l r).pieces =
    textOf l.pieces ++ " " ++ op.symbol ++ " " ++ textOf r.pieces := by
  have hbetween : textOf (between (.sign op.symbol)) = " " ++ op.symbol ++ " " := by
    cases op <;> decide
  rw [Expr.pieces, textOf_append, textOf_append, hbetween]
  simp only [String.append_assoc]

/-- A text stands in every statement of a query, and its placeholders have these values. -/
def Query.Says (q : Query) (text : String) (values : List Value) : Prop :=
  ∀ s operation, ∃ statement, Query.compile s ⟨operation, q.root⟩ = .ok statement ∧
    statement.Contains text values

/-- A parsed query says what one of its tests compiles to, if that does not depend on settings. -/
theorem Query.says_of_mem_tests {source : String} {q : Query} {t : Test} {e : Expr}
    {values : List Value} (h : parse source = .ok q) (ht : t ∈ q.root.tests)
    (he : ∀ s, Compile.test s t = .ok e) (hvalues : ∀ s, t.values s = values) :
    q.Says (textOf e.pieces) values := by
  intro s operation
  obtain ⟨statement, hstatement⟩ := Query.exists_compile_eq_ok_of_parse (s := s) h operation
  have hcontains := Query.contains_of_mem_tests hstatement ht (he s)
  rw [Compile.values_test (he s), hvalues s] at hcontains
  exact ⟨statement, hstatement, hcontains⟩

/-- The text of a test of the time. -/
def timestampSql (op : OrderOp) (seconds : Nat) : String :=
  "\"req\".\"timestamp\" " ++ op.symbol ++ " " ++
    ("(datetime('now', '-" ++ toString seconds ++ " seconds'))")

/-- The text of a test of the status. -/
def statusSql (op : OrderOp) : String := "\"resp\".\"status_code\" " ++ op.symbol ++ " ?"

/-- The text of a test of an id. -/
def idSql : String := "\"req\".\"request_id\" = ?"

theorem textOf_timestamp (op : OrderOp) (n : Nat) :
    textOf (Expr.compare op (.column .request .timestamp) (.ago n)).pieces = timestampSql op n := by
  have hcolumn : textOf (Term.column .request .timestamp).pieces ++ " " =
      "\"req\".\"timestamp\" " := by decide
  -- The equation of the definition would evaluate the literals.
  delta timestampSql
  rw [textOf_compare, hcolumn, textOf_ago]

theorem textOf_status (op : OrderOp) (n : Int) :
    textOf (Expr.compare op (.column .response .statusCode) (.bound (.bigInt n))).pieces =
      statusSql op := by
  have hbound : textOf (Term.bound (.bigInt n)).pieces = "?" := rfl
  rw [textOf_compare, hbound]
  cases op <;> decide

theorem textOf_id (text : String) :
    textOf (Expr.compare .eq (.column .request .requestId) (.bound (.string text))).pieces = idSql := by
  have hbound : textOf (Term.bound (.string text)).pieces = "?" := rfl
  rw [textOf_compare, hbound]
  decide

section Tests
variable {source : String} {q : Query} {op : OrderOp}

theorem says_timestamp {n : Nat} (h : parse source = .ok q)
    (ht : Test.timestamp op n ∈ q.root.tests) : q.Says (timestampSql op n) [] := by
  rw [← textOf_timestamp]
  exact Query.says_of_mem_tests h ht (fun _ => rfl) fun _ => rfl

theorem says_status {n : Int} (h : parse source = .ok q) (ht : Test.status op n ∈ q.root.tests) :
    q.Says (statusSql op) [.bigInt n] := by
  rw [← textOf_status op n]
  exact Query.says_of_mem_tests h ht (fun _ => rfl) fun _ => rfl

theorem says_id {text : String} (h : parse source = .ok q) (ht : Test.id .eq text ∈ q.root.tests) :
    q.Says idSql [.string text] := by
  rw [← textOf_id text]
  exact Query.says_of_mem_tests h ht (fun _ => rfl) fun _ => rfl

end Tests

/-! ## Numbers in parsed queries -/

section Parsed
variable {source : String} {q : Query} {f o v : Token} {op : OrderOp} {w : List Char} {n : Nat}

/-- A token with the text of a word of digits is what the word stands for. -/
theorem classify_lexeme (hv : v ∈ (scan source).tokens) (hw : ∀ c ∈ w, isWordChar c = true)
    (hlexeme : v.lexeme = String.ofList w) : classify w = .ok v.kind := by
  have hspells : Spells v.lexeme.toList v.kind := (Cursor.start source).genuine_of_mem_scan v hv
  rw [hlexeme, String.toList_ofList] at hspells
  exact hspells.classify_eq hw

theorem WritesSeconds.kind_eq (hw : WritesSeconds w n) (hv : v ∈ (scan source).tokens)
    (hlexeme : v.lexeme = String.ofList w) : n < Nat.pow 2 64 ∧ v.kind = .duration n := by
  have hclass := classify_lexeme hv hw.isWordChar hlexeme
  rw [hw.classify_eq] at hclass
  split at hclass
  case isTrue hlt => exact ⟨hlt, (Except.ok.inj hclass).symm⟩
  case isFalse => cases hclass

theorem WritesNumber.kind_eq (hw : WritesNumber w n) (hv : v ∈ (scan source).tokens)
    (hlexeme : v.lexeme = String.ofList w) : n < Nat.pow 2 63 ∧ v.kind = .number n := by
  have hclass := classify_lexeme hv hw.isWordChar hlexeme
  rw [hw.classify_eq] at hclass
  split at hclass
  case isTrue hlt => exact ⟨hlt, (Except.ok.inj hclass).symm⟩
  case isFalse => cases hclass

/-- A duration in a parsed query is within its limit, and every statement of the query says its
seconds. -/
theorem WritesSeconds.says (hw : WritesSeconds w n) (h : parse source = .ok q)
    (hwindow : [f, o, v] <:+: (scan source).tokens) (hf : IsName f "timestamp")
    (ho : o.kind = .order op) (hlexeme : v.lexeme = String.ofList w) :
    n < Nat.pow 2 64 ∧ q.Says (timestampSql op n) [] := by
  obtain ⟨hlt, hv⟩ := hw.kind_eq (hwindow.subset (by simp)) hlexeme
  obtain ⟨us, test, htest, hfield, hown⟩ :=
    exists_isField_of_infix h hf ho (by simp [hv, Kind.isStructural]) hwindow
  obtain rfl := hfield.eq_of_duration ho hv hown
  exact ⟨hlt, says_timestamp h htest⟩

/-- A number in a parsed query is within its limit. A status is bound as the number, and an id as it is
written. -/
theorem WritesNumber.says (hw : WritesNumber w n) (h : parse source = .ok q)
    (hwindow : [f, o, v] <:+: (scan source).tokens) (ho : o.kind = .order op)
    (hlexeme : v.lexeme = String.ofList w) : n < Nat.pow 2 63 ∧
      (IsName f "status" → q.Says (statusSql op) [.bigInt n]) ∧
      (IsName f "id" → q.Says idSql [.string (String.ofList w)]) := by
  obtain ⟨hlt, hv⟩ := hw.kind_eq (hwindow.subset (by simp)) hlexeme
  have hvalue : v.kind.isStructural = false ∧ ∀ text, v.kind ≠ .identifier text := by
    simp [hv, Kind.isStructural]
  refine ⟨hlt, fun hf => ?_, fun hf => ?_⟩
  · obtain ⟨us, test, htest, hfield, hown⟩ :=
      exists_isField_of_infix h hf ho hvalue hwindow
    obtain ⟨hid, -⟩ | ⟨-, rfl⟩ := hfield.eq_of_number ho hv hown
    · exact absurd (hf.unique hid) (by decide)
    · exact says_status h htest
  · obtain ⟨us, test, htest, hfield, hown⟩ :=
      exists_isField_of_infix h hf ho hvalue hwindow
    obtain ⟨-, -, rfl⟩ | ⟨hstatus, -⟩ := hfield.eq_of_number ho hv hown
    · have htext : toString (n : Int) = String.ofList w := hw.toString_eq
      rw [htext] at htest
      exact says_id h htest
    · exact absurd (hf.unique hstatus) (by decide)

end Parsed

/-! ## Exactness -/

/-- A word for a number of seconds is exact, or it is refused. -/
structure SecondsAreExact (w : List Char) (n : Nat) : Prop where
  read : n < Nat.pow 2 64 → IsReadAs w (.duration n)
  refused : Nat.pow 2 64 ≤ n → ∃ s, IsRefusedFor w (.invalidDuration s)
  /-- The seconds are in every statement of the query that has the word in its only test. -/
  alone : n < Nat.pow 2 64 → ∀ op, ∃ q, parse (timestampQuery op w) = .ok q ∧
    q.Says (timestampSql op n) []
  /-- They are in every statement of a query that has the word in one of its tests. -/
  within : ∀ source q f o v op, parse source = .ok q → [f, o, v] <:+: (scan source).tokens →
    IsName f "timestamp" → o.kind = .order op → v.lexeme = String.ofList w →
      n < Nat.pow 2 64 ∧ q.Says (timestampSql op n) []

/-- A word for a number is exact, or it is refused. -/
structure NumberIsExact (w : List Char) (n : Nat) : Prop where
  read : n < Nat.pow 2 63 → IsReadAs w (.number n)
  refused : Nat.pow 2 63 ≤ n → ∃ s, IsRefusedFor w (.invalidNumber s)
  status : n < Nat.pow 2 63 → ∀ op, ∃ q, parse (statusQuery op w) = .ok q ∧
    q.Says (statusSql op) [.bigInt n]
  id : n < Nat.pow 2 63 → ∃ q, parse (idQuery w) = .ok q ∧
    q.Says idSql [.string (String.ofList w)]
  within : ∀ source q f o v op, parse source = .ok q → [f, o, v] <:+: (scan source).tokens →
    o.kind = .order op → v.lexeme = String.ofList w → n < Nat.pow 2 63 ∧
      (IsName f "status" → q.Says (statusSql op) [.bigInt n]) ∧
      (IsName f "id" → q.Says idSql [.string (String.ofList w)])

theorem WritesSeconds.areExact {w : List Char} {n : Nat} (hw : WritesSeconds w n) :
    SecondsAreExact w n where
  read := hw.isReadAs
  refused hle := ⟨_, hw.isRefusedFor hle⟩
  alone hlt op := by
    have h := parse_timestampQuery op (hw.spells hlt)
    exact ⟨_, h, says_timestamp h (List.mem_singleton_self _)⟩
  within _ _ _ _ _ _ h hwindow hf ho hlexeme := hw.says h hwindow hf ho hlexeme

theorem WritesNumber.isExact {w : List Char} {n : Nat} (hw : WritesNumber w n) :
    NumberIsExact w n where
  read := hw.isReadAs
  refused hle := ⟨_, hw.isRefusedFor hle⟩
  status hlt op := by
    have h := parse_statusQuery op (hw.spells hlt)
    exact ⟨_, h, says_status h (List.mem_singleton_self _)⟩
  id hlt := by
    have h := parse_idQuery (hw.spells hlt)
    rw [hw.toString_eq] at h
    exact ⟨_, h, says_id h (List.mem_singleton_self _)⟩
  within _ _ _ _ _ _ h hwindow ho hlexeme := hw.says h hwindow ho hlexeme

/-- Durations of less than `2 ^ 64` seconds and numbers below `2 ^ 63` go into statements as they are
written, and no others go into any. -/
theorem numbers_are_exact (w : List Char) (n : Nat) :
    (WritesSeconds w n → SecondsAreExact w n) ∧ (WritesNumber w n → NumberIsExact w n) :=
  ⟨fun hw => hw.areExact, fun hw => hw.isExact⟩

/-- A query with a duration in minutes, with a large unit. -/
def minutesQuery : String := "query requests where id = 7 or timestamp > 15M ago"

def minutesRoot : Condition := .binary .or (.test (.id .eq "7")) (.test (.timestamp .gt 900))

theorem numbers_are_exact_minutes :
    parse minutesQuery = .ok ⟨.rows, minutesRoot⟩ ∧
      Query.Says ⟨.rows, minutesRoot⟩ (timestampSql .gt 900) [] ∧
      (∃ s, IsRefusedFor "213503982334602d".toList (.invalidDuration s)) ∧
      ∃ s, IsRefusedFor "9223372036854775808".toList (.invalidNumber s) := by
  have hparse : parse minutesQuery = .ok ⟨.rows, minutesRoot⟩ := by decide +kernel
  have hminutes : WritesSeconds "15M".toList 900 := ⟨"15".toList, 'm', 60, by decide,
    isPositiveNumeral_iff.mp rfl, by decide, by decide⟩
  have hlong : WritesSeconds "213503982334602d".toList (213503982334602 * 86400) :=
    ⟨"213503982334602".toList, 'd', 86400, by decide, isPositiveNumeral_iff.mp rfl, by decide,
      by decide⟩
  have hlarge : WritesNumber "9223372036854775808".toList (Nat.pow 2 63) :=
    ⟨isNumeral_iff.mp rfl, by decide⟩
  have hwindow : [⟨.identifier "timestamp", 31, "timestamp"⟩, ⟨.order .gt, 41, ">"⟩,
      ⟨.duration 900, 43, "15M"⟩] <:+: (scan minutesQuery).tokens := by decide +kernel
  have hname : IsName ⟨.identifier "timestamp", 31, "timestamp"⟩ "timestamp" := ⟨_, rfl, by decide⟩
  obtain ⟨-, hsays⟩ := ((numbers_are_exact _ _).1 hminutes).within _ _ _ _ _ _ hparse hwindow hname
    rfl rfl
  exact ⟨hparse, hsays, ((numbers_are_exact _ _).1 hlong).refused (by decide),
    ((numbers_are_exact _ _).2 hlarge).refused (by decide)⟩

end TrafficQuery
