import TrafficQuery.Proofs.Query.Kinds

/-!
# What the query language can say

A condition can be said if each of its tests can be written, and if its shape does not need more
levels than may be open at once.
-/

namespace TrafficQuery
open Grammar

/-! ## Tests -/

def HeaderMatch.Expressible : HeaderMatch → Prop
  | .present => True
  | .value _ text => Quotable text

/-- A test that the query language can say. -/
def Test.Expressible : Test → Prop
  | .timestamp _ ago => 0 < ago ∧ ago < durationLimit
  | .id op value => op = .eq ∧ Quotable value
  | .method _ => True
  | .header _ _ name wanted => IsHeaderWord name ∧ wanted.Expressible
  | .body _ op text => op ≠ .equals ∧ Quotable text
  | .path _ text => Quotable text
  | .raw _ _ text => Quotable text
  | .status _ value => 0 ≤ value ∧ value < numberLimit

theorem Test.expressible_unmarked (t : Test) : t.unmarked.Expressible ↔ t.Expressible := by
  cases t <;> rfl

section Said
variable {ts : List Token} {test : Test}

theorem quotable_of_idText? {k : Kind} {text : String} (hk : k.Spelled) (h : idText? k = some text) :
    Quotable text := by
  cases k with
  | uuid s =>
    cases h
    exact quotable_of_isWordChar (isWordChar_of_spelled_uuid hk)
  | number value =>
    cases h
    obtain ⟨hpos, -⟩ := spelled_number_iff.mp hk
    obtain ⟨n, rfl⟩ := Int.eq_ofNat_of_zero_le hpos
    exact quotable_toString n
  | string s =>
    cases h
    exact spelled_string_iff.mp hk
  | _ => cases h

theorem isHeaderWord_of_headerText? {k : Kind} {name : String} (hk : k.Spelled)
    (h : headerText? k = some name) : IsHeaderWord name := by
  cases k with
  | identifier s =>
    cases h
    exact spelled_headerName_iff.mp (.inl hk)
  | headerName s =>
    cases h
    exact spelled_headerName_iff.mp (.inr hk)
  | _ => cases h

/-- A test whose tokens can be written is expressible. -/
theorem Grammar.Form.expressible {field : Field} {mark : Nat} (h : Form field mark ts test)
    (hts : ∀ t ∈ ts, t.kind.Spelled) : test.Expressible := by
  cases h <;> simp only [List.forall_mem_cons] at hts
  case timestamp ho hd ha => exact spelled_duration_iff.mp (hd ▸ hts.2.1)
  case id ho hv => exact ⟨rfl, quotable_of_idText? hts.2.1 hv⟩
  case method ho hv hm => trivial
  case headerPresent hd hn ho => exact ⟨isHeaderWord_of_headerText? hts.2.1 hn, trivial⟩
  case headerValue hd hn ho hv =>
    exact ⟨isHeaderWord_of_headerText? hts.2.1 hn, spelled_string_iff.mp (hv ▸ hts.2.2.2.1)⟩
  case body ho hne hv => exact ⟨hne, spelled_string_iff.mp (hv ▸ hts.2.1)⟩
  case path ho hv => exact spelled_string_iff.mp (hv ▸ hts.2.1)
  case raw ho hv => exact spelled_string_iff.mp (hv ▸ hts.2.1)
  case status ho hv => exact spelled_number_iff.mp (hv ▸ hts.2.1)

end Said

/-! ## Writing a test -/

/-- The words in the names of fields. -/
def fieldWords : List String := "resp" :: (requestFields ++ responseFields).map Prod.fst

theorem spelled_of_mem_fieldWords {name : String} (h : name ∈ fieldWords) :
    (Kind.identifier name).Spelled := by
  obtain ⟨hne, hw, hr, hi⟩ :=
    (by decide : ∀ n ∈ fieldWords, n.toList ≠ [] ∧ n.toList.all isWordChar = true ∧
      reservedKind? (String.ofList (foldWord n.toList)) = none ∧
      isIdentifier (foldWord n.toList) = true) name h
  have hk := classify_identifier hr hi
  rw [String.ofList_toList] at hk
  exact spelled_of_classify hne hw hk

theorem isName_of_mem_fieldWords {name : String} (h : name ∈ fieldWords) :
    IsName (Kind.identifier name).token name :=
  ⟨name, rfl, (by decide : ∀ n ∈ fieldWords, Text.lower n = n) name h⟩

theorem exists_names_request {name : String} {field : Field} (h : (name, field) ∈ requestFields) :
    ∃ ts mark, (∀ t ∈ ts, t.kind.Spelled) ∧ Names field mark ts := by
  have hword : name ∈ fieldWords :=
    List.mem_cons_of_mem _ (List.mem_map_of_mem (List.mem_append_left _ h))
  refine ⟨[(Kind.identifier name).token], _, ?_, .request (isName_of_mem_fieldWords hword) h⟩
  exact fun t ht => List.mem_singleton.mp ht ▸ spelled_of_mem_fieldWords hword

theorem exists_names_response {name : String} {field : Field} (h : (name, field) ∈ responseFields) :
    ∃ ts mark, (∀ t ∈ ts, t.kind.Spelled) ∧ Names field mark ts := by
  have hresp : "resp" ∈ fieldWords := List.mem_cons_self
  have hword : name ∈ fieldWords :=
    List.mem_cons_of_mem _ (List.mem_map_of_mem (List.mem_append_right _ h))
  refine ⟨[(Kind.identifier "resp").token, Kind.dot.token, (Kind.identifier name).token], _, ?_,
    .response (isName_of_mem_fieldWords hresp) (by decide) rfl (isName_of_mem_fieldWords hword) h⟩
  simp only [List.forall_mem_cons]
  exact ⟨spelled_of_mem_fieldWords hresp, spelled_of_fixedWord? rfl,
    spelled_of_mem_fieldWords hword, by simp⟩

/-- Every field has a name that can be written. -/
theorem exists_names (field : Field) :
    ∃ ts mark, (∀ t ∈ ts, t.kind.Spelled) ∧ Names field mark ts := by
  have request (name : String) (h : (name, field) ∈ requestFields) := exists_names_request h
  have response (name : String) (h : (name, field) ∈ responseFields) := exists_names_response h
  cases field with
  | timestamp => exact request "timestamp" (by decide)
  | id => exact request "id" (by decide)
  | method => exact request "method" (by decide)
  | path => exact request "path" (by decide)
  | status => exact response "status" (by decide)
  | header side =>
    cases side with
    | request => exact request "header" (by decide)
    | response => exact response "header" (by decide)
  | body side =>
    cases side with
    | request => exact request "body" (by decide)
    | response => exact response "body" (by decide)
  | raw side =>
    cases side with
    | request => exact request "raw" (by decide)
    | response => exact response "raw" (by decide)

def TextOp.kind : TextOp → Kind
  | .equals => .order .eq
  | .contains => .contains
  | .icontains => .icontains

theorem textOp?_kind (op : TextOp) : textOp? op.kind = some op := by cases op <;> rfl

theorem TextOp.spelled_kind (op : TextOp) : op.kind.Spelled := by
  cases op <;> exact spelled_of_fixedWord? rfl

theorem exists_headerText? {name : String} (h : IsHeaderWord name) :
    ∃ k : Kind, k.Spelled ∧ headerText? k = some name := by
  rcases spelled_headerName_iff.mpr h with hk | hk
  · exact ⟨_, hk, rfl⟩
  · exact ⟨_, hk, rfl⟩

theorem spelled_word (m : Method) : (Kind.string m.word).Spelled :=
  spelled_string_iff.mpr (.inl (by cases m <;> decide))

def Test.field : Test → Field
  | .timestamp _ _ => .timestamp
  | .id _ _ => .id
  | .method _ => .method
  | .header side _ _ _ => .header side
  | .body side _ _ => .body side
  | .path _ _ => .path
  | .raw side _ _ => .raw side
  | .status _ _ => .status

/-- An expressible test has a form that can be written. -/
theorem exists_form {test : Test} (h : test.Expressible) (mark : Nat) :
    ∃ (ks : List Kind) (test' : Test), (∀ k ∈ ks, k.Spelled) ∧
      Form test.field mark (ks.map Kind.token) test' ∧ test'.unmarked = test.unmarked := by
  have order (op : OrderOp) : (Kind.order op).Spelled := spelled_of_fixedWord? rfl
  have hago : (Kind.keyword .ago).Spelled := spelled_of_fixedWord? rfl
  have hdot : Kind.dot.Spelled := spelled_of_fixedWord? rfl
  have hpresent : Kind.present.Spelled := spelled_of_fixedWord? rfl
  have hcontains : Kind.contains.Spelled := spelled_of_fixedWord? rfl
  cases test with
  | timestamp op ago =>
    have hduration := spelled_duration_iff.mpr h
    exact ⟨[.order op, .duration ago, .keyword .ago], _, by simp [order, hduration, hago],
      .timestamp rfl rfl rfl, rfl⟩
  | id op value =>
    obtain ⟨rfl, hvalue⟩ := h
    have hstring := spelled_string_iff.mpr hvalue
    exact ⟨[.order .eq, .string value], _, by simp [order, hstring], .id rfl rfl, rfl⟩
  | method m =>
    have hword : Text.upper m.word = m.word := by cases m <;> decide
    exact ⟨[.order .eq, .string m.word], _, by simp [order, spelled_word], .method rfl rfl hword, rfl⟩
  | header side _ name wanted =>
    obtain ⟨k, hk, hname⟩ := exists_headerText? h.1
    cases wanted with
    | present =>
      exact ⟨[.dot, k, .present], _, by simp [hdot, hk, hpresent],
        .headerPresent rfl hname rfl, rfl⟩
    | value op text =>
      have hstring := spelled_string_iff.mpr h.2
      exact ⟨[.dot, k, op.kind, .string text], _, by simp [hdot, hk, op.spelled_kind, hstring],
        .headerValue rfl hname (textOp?_kind op) rfl, rfl⟩
  | body side op text =>
    have hstring := spelled_string_iff.mpr h.2
    exact ⟨[op.kind, .string text], _, by simp [op.spelled_kind, hstring],
      .body (textOp?_kind op) h.1 rfl, rfl⟩
  | path op text =>
    have hstring := spelled_string_iff.mpr h
    exact ⟨[op.kind, .string text], _, by simp [op.spelled_kind, hstring],
      .path (textOp?_kind op) rfl, rfl⟩
  | raw side _ text =>
    have hstring := spelled_string_iff.mpr h
    exact ⟨[.contains, .string text], _, by simp [hcontains, hstring], .raw rfl rfl, rfl⟩
  | status op value =>
    have hnumber := spelled_number_iff.mpr h
    exact ⟨[.order op, .number value], _, by simp [order, hnumber], .status rfl rfl, rfl⟩

/-- An expressible test is formed, apart from its mark, by tokens that can be written. -/
theorem exists_isField {test : Test} (h : test.Expressible) :
    ∃ ts test', (∀ t ∈ ts, t.kind.Spelled) ∧ IsField ts test' ∧ test'.unmarked = test.unmarked := by
  obtain ⟨us, mark, hus, hnames⟩ := exists_names test.field
  obtain ⟨ks, test', hks, hform, htest⟩ := exists_form h mark
  refine ⟨us ++ ks.map Kind.token, test', fun t ht => ?_, ⟨_, mark, us, _, rfl, hnames, hform⟩, htest⟩
  exact (List.mem_append.mp ht).elim (hus t) (spelled_tokens hks t)

/-! ## Levels -/

/-- The levels that a condition needs as a phrase: as an operand, a chain stands in parentheses. -/
def Condition.levels : Condition → Phrase → Nat
  | .test _, _ => 0
  | .negation c, _ => c.levels .operand
  | .binary op l r, .operand => max (l.levels .operand) (r.levels (.chain (some op))) + 1
  | .binary op l r, .chain before =>
    max (l.levels .operand) (switchLevel before op + r.levels (.chain (some op)))

/-- The operands along the right spine, each with the connectives in front of it. -/
def Condition.spine (ops : List Connective) : Condition → List (List Connective × Condition)
  | .binary op l r => (ops, l) :: r.spine (ops ++ [op])
  | c => [(ops, c)]

/-- How often neighbouring connectives differ. -/
def changes : List Connective → Nat
  | a :: b :: ops => (if a = b then 0 else 1) + changes (b :: ops)
  | _ => 0

/-- The levels of a chain: at each operand the changes in front of it are open, and the levels that it
needs itself. -/
def Condition.nesting (c : Condition) : Nat :=
  ((c.spine []).map fun (ops, x) => changes ops + x.levels .operand).foldr max 0

theorem switchLevel_le_one (before : Option Connective) (op : Connective) :
    switchLevel before op ≤ 1 := by
  unfold switchLevel
  split <;> omega

namespace Condition
variable {c : Condition}

/-- Behind a connective a chain needs no more levels than in parentheses. -/
theorem levels_chain_le (c : Condition) (before : Option Connective) :
    c.levels (.chain before) ≤ c.levels .operand := by
  cases c with
  | binary op l r =>
    have hswitch := switchLevel_le_one before op
    simp only [levels]
    omega
  | _ => exact Nat.le_refl _

theorem levels_operand_binary (op : Connective) (l r : Condition) :
    (binary op l r).levels .operand = (binary op l r).levels (.chain none) + 1 := by
  have hswitch : switchLevel none op = 0 := rfl
  rw [levels, levels, hswitch, Nat.zero_add]

theorem levels_operand_le (c : Condition) : c.levels .operand ≤ c.levels (.chain none) + 1 := by
  cases c with
  | binary op l r => exact Nat.le_of_eq (levels_operand_binary op l r)
  | _ => exact Nat.le_succ _

theorem changes_append (ops : List Connective) (op : Connective) :
    changes (ops ++ [op]) = changes ops + switchLevel ops.getLast? op := by
  induction ops with
  | nil => rfl
  | cons a ops ih =>
    cases ops with
    | nil => by_cases h : a = op <;> simp [changes, switchLevel, h]
    | cons b ops =>
      simp only [List.cons_append, changes, List.getLast?_cons_cons] at ih ⊢
      rw [ih, Nat.add_assoc]

theorem levels_spine (c : Condition) (ops : List Connective) :
    ((c.spine ops).map fun (ops, x) => changes ops + x.levels .operand).foldr max 0 =
      changes ops + c.levels (.chain ops.getLast?) := by
  induction c generalizing ops with
  | binary op l r _ ihr =>
    simp only [spine, List.map_cons, List.foldr_cons, ihr, changes_append, List.getLast?_append,
      List.getLast?_singleton, Option.some_or, levels]
    omega
  | _ => exact Nat.max_zero _

theorem levels_chain_none (c : Condition) : c.levels (.chain none) = c.nesting := by
  have hspine := c.levels_spine []
  rw [List.getLast?_nil] at hspine
  exact (hspine.trans (Nat.zero_add _)).symm

example (t : Test) : (binary .and (binary .or (.test t) (.test t)) (.negation (binary .and (.test t)
    (binary .or (.test t) (.test t))))).nesting = 2 := rfl

theorem levels_unmarked (c : Condition) (phrase : Phrase) :
    c.unmarked.levels phrase = c.levels phrase := by
  induction c generalizing phrase with
  | test t => rfl
  | negation c ih => exact ih .operand
  | binary op l r ihl ihr => cases phrase <;> simp only [unmarked, levels, ihl, ihr]

end Condition

/-- No derivation of a condition needs fewer levels. -/
theorem Grammar.Derives.levels_le {phrase : Phrase} {ts : List Token} {c : Condition} {depth : Nat}
    (h : Derives phrase ts c depth) : c.levels phrase ≤ depth := by
  induction h with
  | field => exact Nat.le_refl 0
  | negated _ _ ih => exact ih
  | @group o e ts c depth _ _ _ ih =>
    have hle := c.levels_operand_le
    omega
  | @last before ts c depth _ ih => exact Nat.le_trans (c.levels_chain_le before) ih
  | link _ _ _ ih ihrest =>
    simp only [Condition.levels]
    omega

/-- A condition of expressible tests has a derivation with no more levels than it needs. -/
theorem exists_derives {c : Condition} (h : ∀ t ∈ c.tests, t.Expressible) (phrase : Phrase) :
    ∃ ts c', (∀ t ∈ ts, t.kind.Spelled) ∧ Derives phrase ts c' (c.levels phrase) ∧
      c'.unmarked = c.unmarked := by
  induction c generalizing phrase with
  | test t =>
    obtain ⟨ts, t', hts, hfield, ht⟩ := exists_isField (h t List.mem_cons_self)
    refine ⟨ts, .test t', hts, ?_, congrArg Condition.test ht⟩
    cases phrase with
    | operand => exact .field hfield
    | chain before => exact .last (.field hfield)
  | negation c ih =>
    obtain ⟨ts, c', hts, hc, heq⟩ := ih h .operand
    have hnot : Kind.not.Spelled := spelled_of_fixedWord? rfl
    refine ⟨Kind.not.token :: ts, .negation c', List.forall_mem_cons.mpr ⟨hnot, hts⟩, ?_,
      congrArg Condition.negation heq⟩
    cases phrase with
    | operand => exact .negated rfl hc
    | chain before => exact .last (.negated rfl hc)
  | binary op l r ihl ihr =>
    simp only [Condition.tests, List.forall_mem_append] at h
    obtain ⟨us, l', hus, hl, hleq⟩ := ihl h.1 .operand
    obtain ⟨vs, r', hvs, hr, hreq⟩ := ihr h.2 (.chain (some op))
    have hop : (Kind.connective op).Spelled := spelled_of_fixedWord? rfl
    have hlink : ∀ t ∈ us ++ (Kind.connective op).token :: vs, t.kind.Spelled := by
      simp only [List.forall_mem_append, List.forall_mem_cons]
      exact ⟨hus, hop, hvs⟩
    have heq : (Condition.binary op l' r').unmarked = (Condition.binary op l r).unmarked := by
      rw [Condition.unmarked, Condition.unmarked, hleq, hreq]
    -- Only a chain that stands as an operand needs parentheses, and they cost its one level more.
    cases phrase with
    | operand =>
      have hgroup : Derives (.chain none) (us ++ (Kind.connective op).token :: vs)
          (.binary op l' r') ((Condition.binary op l r).levels (.chain none)) := .link hl rfl hr
      have hopen : (Kind.paren .opening).Spelled := spelled_of_fixedWord? rfl
      have hclose : (Kind.paren .closing).Spelled := spelled_of_fixedWord? rfl
      refine ⟨(Kind.paren .opening).token ::
          ((us ++ (Kind.connective op).token :: vs) ++ [(Kind.paren .closing).token]),
        .binary op l' r', ?_, ?_, heq⟩
      · rw [List.forall_mem_cons, List.forall_mem_append]
        exact ⟨hopen, hlink, fun t ht => List.mem_singleton.mp ht ▸ hclose⟩
      · rw [Condition.levels_operand_binary]
        exact .group rfl hgroup rfl
    | chain before =>
      exact ⟨us ++ (Kind.connective op).token :: vs, .binary op l' r', hlink, .link hl rfl hr, heq⟩

/-! ## Conditions -/

theorem Grammar.IsField.expressible {ts : List Token} {test : Test} (h : IsField ts test)
    (hts : ∀ t ∈ ts, t.kind.Spelled) : test.Expressible := by
  obtain ⟨field, mark, us, vs, rfl, -, hform⟩ := h
  exact hform.expressible fun t ht => hts t (List.mem_append_right us ht)

/-- The tests of a condition whose tokens can be written are expressible. -/
theorem Grammar.Derives.expressible {phrase : Phrase} {ts : List Token} {c : Condition} {depth : Nat}
    (h : Derives phrase ts c depth) (hts : ∀ t ∈ ts, t.kind.Spelled) :
    ∀ t ∈ c.tests, t.Expressible := by
  induction h with
  | field hfield => exact fun t ht => List.mem_singleton.mp ht ▸ hfield.expressible hts
  | negated _ _ ih => exact ih (List.forall_mem_cons.mp hts).2
  | group _ _ _ ih =>
    rw [List.forall_mem_cons, List.forall_mem_append] at hts
    exact ih hts.2.1
  | last _ ih => exact ih hts
  | link _ _ _ ih ihrest =>
    rw [List.forall_mem_append, List.forall_mem_cons] at hts
    exact List.forall_mem_append.mpr ⟨ih hts.1, ihrest hts.2.2⟩

theorem tests_unmarked (c : Condition) : c.unmarked.tests = c.tests.map Test.unmarked := by
  induction c with
  | test t => rfl
  | negation c ih => exact ih
  | binary op l r ihl ihr =>
    rw [Condition.unmarked, Condition.tests, ihl, ihr, Condition.tests, List.map_append]

theorem expressible_tests_congr {c c' : Condition} (h : c'.unmarked = c.unmarked) :
    (∀ t ∈ c'.tests, t.Expressible) ↔ ∀ t ∈ c.tests, t.Expressible := by
  have unmarked (c : Condition) :
      (∀ t ∈ c.unmarked.tests, t.Expressible) ↔ ∀ t ∈ c.tests, t.Expressible := by
    simp only [tests_unmarked, List.forall_mem_map, Test.expressible_unmarked]
  rw [← unmarked c', h, unmarked c]

theorem nesting_congr {c c' : Condition} (h : c'.unmarked = c.unmarked) : c'.nesting = c.nesting := by
  rw [← c'.levels_chain_none, ← Condition.levels_unmarked, h, Condition.levels_unmarked,
    c.levels_chain_none]

/-- Apart from its marks, a condition is that of a query if and only if each of its tests can be said
and its shape does not need more levels than may be open at once. -/
theorem exists_parse_unmarked_iff (c : Condition) :
    (∃ source q, parse source = .ok q ∧ q.root.unmarked = c.unmarked) ↔
      (∀ t ∈ c.tests, t.Expressible) ∧ c.nesting ≤ maxNesting := by
  constructor
  · rintro ⟨source, q, hq, hc⟩
    obtain ⟨hspelled, depth, hle, c', ⟨k, r, w, us, hts, -, -, -, h⟩, hc'⟩ :=
      exists_parse_iff.mp ⟨source, q, hq, rfl, rfl⟩
    have hus : ∀ t ∈ us, t.kind.Spelled := by
      rw [hts] at hspelled
      simp only [List.forall_mem_cons] at hspelled
      exact hspelled.2.2.2
    rw [← nesting_congr (hc'.trans hc), ← expressible_tests_congr (hc'.trans hc)]
    rw [← c'.levels_chain_none]
    exact ⟨h.expressible hus, Nat.le_trans h.levels_le hle⟩
  · rintro ⟨htests, hle⟩
    obtain ⟨ts, c', hts, h, hc⟩ := exists_derives htests (.chain none)
    rw [c.levels_chain_none] at h
    have hkeyword (word : Keyword) : (Kind.keyword word).Spelled := spelled_of_fixedWord? rfl
    have hwords : ∀ k ∈ [Kind.keyword .query, .keyword .requests, .keyword .whereClause],
        k.Spelled := by simp [hkeyword]
    have hspelled : ∀ t ∈ [Kind.keyword .query, .keyword .requests, .keyword .whereClause].map
        Kind.token ++ ts, t.kind.Spelled :=
      List.forall_mem_append.mpr ⟨spelled_tokens hwords, hts⟩
    obtain ⟨source, q, hq, -, hroot⟩ := exists_parse_iff.mpr
      ⟨hspelled, c.nesting, hle, c', ⟨_, _, _, ts, rfl, rfl, rfl, rfl, h⟩, hc⟩
    exact ⟨source, q, hq, hroot⟩

end TrafficQuery
