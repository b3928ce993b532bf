import TrafficQuery.Proofs.Query.Marks
import TrafficQuery.Proofs.Token.Lossless

/-!
# The tokens of a test

The tokens of a query are those of its tests, one behind the other, with keywords, connectives, negations
and parentheses around them. The mark of a test is the byte where its own first token starts.
-/

namespace TrafficQuery
open Text

/-- Tokens that belong to no test. -/
def Kind.isStructural : Kind → Bool
  | .keyword _ | .connective _ | .not | .paren _ => true
  | _ => false

namespace Grammar
variable {ts us : List Token}

/-- The tokens are those of some field conditions, in order, and structural ones around them. -/
inductive Fields : List Token → List (List Token × Test) → Prop
  | nil : Fields [] []
  | structural {t : Token} {ts : List Token} {fields : List (List Token × Test)} :
      t.kind.isStructural = true → Fields ts fields → Fields (t :: ts) fields
  | field {us ts : List Token} {test : Test} {fields : List (List Token × Test)} :
      IsField us test → Fields ts fields → Fields (us ++ ts) ((us, test) :: fields)

theorem Fields.append {fields more : List (List Token × Test)} (h : Fields ts fields)
    (h' : Fields us more) : Fields (ts ++ us) (fields ++ more) := by
  induction h with
  | nil => exact h'
  | structural ht _ ih => exact .structural ht ih
  | field hfield _ ih =>
    rw [List.append_assoc]
    exact .field hfield ih

theorem Fields.isField {fields : List (List Token × Test)} (h : Fields ts fields) :
    ∀ f ∈ fields, IsField f.1 f.2 ∧ f.1.Sublist ts := by
  induction h with
  | nil => exact fun f hf => absurd hf List.not_mem_nil
  | structural _ _ ih => exact fun f hf => ⟨(ih f hf).1, (ih f hf).2.cons _⟩
  | field hfield _ ih =>
    refine List.forall_mem_cons.mpr ⟨⟨hfield, List.sublist_append_left _ _⟩, fun f hf => ?_⟩
    exact ⟨(ih f hf).1, (ih f hf).2.trans (List.sublist_append_right _ _)⟩

/-- A phrase is made of the field conditions of its tests. -/
theorem Derives.exists_fields {phrase : Phrase} {c : Condition} {depth : Nat}
    (h : Derives phrase ts c depth) : ∃ fields, Fields ts fields ∧ fields.map Prod.snd = c.tests := by
  induction h with
  | @field ts test hfield =>
    have hfields : Fields (ts ++ []) [(ts, test)] := .field hfield .nil
    rw [List.append_nil] at hfields
    exact ⟨_, hfields, rfl⟩
  | negated hn _ ih =>
    obtain ⟨fields, hfields, htests⟩ := ih
    exact ⟨fields, .structural (by rw [hn]; rfl) hfields, htests⟩
  | group ho _ he ih =>
    obtain ⟨fields, hfields, htests⟩ := ih
    have hend : Fields [_] [] := .structural (by rw [he]; rfl) .nil
    refine ⟨fields, .structural (by rw [ho]; rfl) ?_, htests⟩
    rw [← List.append_nil fields]
    exact hfields.append hend
  | last _ ih => exact ih
  | link _ ht _ ih ihrest =>
    obtain ⟨fields, hfields, htests⟩ := ih
    obtain ⟨more, hmore, hrest⟩ := ihrest
    refine ⟨fields ++ more, hfields.append (.structural (by rw [ht]; rfl) hmore), ?_⟩
    rw [List.map_append, htests, hrest, Condition.tests]

theorem IsQuery.exists_fields {c : Condition} {depth : Nat} (h : IsQuery ts c depth) :
    ∃ fields, Fields ts fields ∧ fields.map Prod.snd = c.tests := by
  obtain ⟨q, r, w, us, rfl, hq, hr, hw, h⟩ := h
  obtain ⟨fields, hfields, htests⟩ := h.exists_fields
  exact ⟨fields, .structural (by rw [hq]; rfl) (.structural (by rw [hr]; rfl)
    (.structural (by rw [hw]; rfl) hfields)), htests⟩

/-! ## First tokens -/

/-- The words that a header or raw test of a side starts with. -/
def firstWords : Side → List String
  | .request => ["header", "raw"]
  | .response => ["resp", "response"]

/-- A header or raw test is marked with the start of its first token, which is a word of its side. -/
theorem IsField.exists_first {test : Test} {j : Sql.HeaderJoin} (h : IsField ts test)
    (hj : test.join? = some j) : ∃ t rest name, ts = t :: rest ∧ t.start = j.mark ∧ IsName t name ∧
      name ∈ firstWords j.side := by
  obtain ⟨field, mark, us, vs, rfl, hnames, hform⟩ := h
  have hmark := hform.mark_eq hj
  have hfield : field = .header j.side ∨ field = .raw j.side := by
    cases hform <;> cases hj
    · exact .inl rfl
    · exact .inl rfl
    · exact .inr rfl
  cases hnames with
  | @request t name _ hname hmem =>
    refine ⟨t, vs, name, rfl, hmark.symm, hname, ?_⟩
    rcases hfield with rfl | rfl <;> cases hside : j.side <;> rw [hside] at hmem <;>
      simp_all [requestFields, firstWords]
  | @response t _ _ owner name _ howner ho _ _ hmem =>
    refine ⟨t, _, owner, rfl, hmark.symm, howner, ?_⟩
    rcases hfield with rfl | rfl <;> cases hside : j.side <;> rw [hside] at hmem <;>
      simp_all [responseFields, firstWords]

theorem IsField.exists_cons {test : Test} (h : IsField ts test) :
    ∃ t rest text, ts = t :: rest ∧ t.kind = .identifier text := by
  obtain ⟨field, mark, us, vs, rfl, hnames, -⟩ := h
  cases hnames with
  | request hname =>
    obtain ⟨text, hk, -⟩ := hname
    exact ⟨_, _, text, rfl, hk⟩
  | response howner =>
    obtain ⟨text, hk, -⟩ := howner
    exact ⟨_, _, text, rfl, hk⟩

/-- A field condition starts with a word, so the tokens start with one unless they start with a
structural token. -/
theorem Fields.head_cases {t : Token} {fields : List (List Token × Test)} (h : Fields (t :: ts) fields) :
    t.kind.isStructural = true ∨ ∃ text, t.kind = .identifier text := by
  generalize hall : t :: ts = all at h
  cases h with
  | nil => cases hall
  | structural hs =>
    obtain ⟨rfl, -⟩ := List.cons.inj hall
    exact .inl hs
  | field hfield =>
    obtain ⟨u, rest, text, rfl, hk⟩ := hfield.exists_cons
    obtain ⟨rfl, -⟩ := List.cons.inj hall
    exact .inr ⟨text, hk⟩

/-- Tokens behind each other are within one field condition if the first of them belongs to one and no
later one can start the next. -/
theorem Fields.exists_mem_of_infix {fields : List (List Token × Test)} (h : Fields ts fields)
    {t : Token} (ht : t.kind.isStructural = false)
    (hus : ∀ u ∈ us, u.kind.isStructural = false ∧ ∀ text, u.kind ≠ .identifier text)
    (hwindow : t :: us <:+: ts) : ∃ f ∈ fields, t :: us <:+: f.1 := by
  induction h with
  | nil => cases List.infix_nil.mp hwindow
  | @structural s ts fields hs _ ih =>
    rcases List.infix_cons_iff.mp hwindow with hstarts | hwindow
    · obtain ⟨rfl, -⟩ := List.cons_prefix_cons.mp hstarts
      rw [hs] at ht
      cases ht
    · exact ih hwindow
  | @field vs ts test fields hfield hmore ih =>
    rcases List.infix_append_iff.mp hwindow with hown | hlater | ⟨as, bs, hsplit, has, hbs⟩
    · exact ⟨_, List.mem_cons_self, hown⟩
    · obtain ⟨f, hf, hwindow⟩ := ih hlater
      exact ⟨f, List.mem_cons_of_mem _ hf, hwindow⟩
    · obtain - | ⟨a, as⟩ := as
      · obtain ⟨f, hf, hwindow⟩ := ih (hsplit ▸ hbs.isInfix)
        exact ⟨f, List.mem_cons_of_mem _ hf, hwindow⟩
      · obtain - | ⟨b, bs⟩ := bs
        · rw [List.append_nil] at hsplit
          exact ⟨_, List.mem_cons_self, hsplit ▸ has.isInfix⟩
        · -- The next field condition would start with a later one of the tokens.
          obtain ⟨rest, rfl⟩ := hbs
          obtain ⟨hnone, hword⟩ := hus b (by simp [(List.cons.inj hsplit).2])
          rcases hmore.head_cases with hs | ⟨text, hk⟩
          · rw [hnone] at hs
            cases hs
          · exact absurd hk (hword text)

theorem IsName.lower_lexeme {t : Token} {name : String} (h : IsName t name) (ht : t.Genuine) :
    Text.lower t.lexeme = name := by
  obtain ⟨text, hk, hname⟩ := h
  have hverbatim := ht.verbatim
  simp only [Token.Verbatim, hk] at hverbatim
  rw [hverbatim, hname]

end Grammar
open Grammar

/-- The tests of a condition are read from tokens of a text, from left to right, and each header or raw
test is marked with the byte where its own first word stands. -/
structure MarkedByStarts (source : String) (c : Condition) : Prop where
  increasing : c.marks.Pairwise (· < ·)
  fields : ∃ fields, Fields (scan source).tokens fields ∧ fields.map Prod.snd = c.tests ∧
    ∀ us test, (us, test) ∈ fields → ∀ j, test.join? = some j → ∃ t rest after, us = t :: rest ∧
      t.start = j.mark ∧ t.StandsIn 0 source.toList after ∧ Text.lower t.lexeme ∈ firstWords j.side

theorem markedByStarts_of_parse {source : String} {q : Query} (h : parse source = .ok q) :
    MarkedByStarts source q.root := by
  obtain ⟨-, depth, -, hquery⟩ := exists_isQuery_of_parse h
  refine ⟨?_, ?_⟩
  · obtain ⟨k, r, w, us, hts, -, -, -, hus⟩ := hquery
    have hstarts : ((scan source).tokens.map Token.start).Pairwise (· < ·) :=
      List.pairwise_map.mpr (Cursor.start source).scan_starts
    rw [hts] at hstarts
    simp only [List.map_cons, List.pairwise_cons] at hstarts
    exact hstarts.2.2.2.sublist hus.marks_sublist
  · obtain ⟨fields, hfields, htests⟩ := hquery.exists_fields
    refine ⟨fields, hfields, htests, fun us test hmem j hj => ?_⟩
    obtain ⟨hfield, hsub⟩ := hfields.isField _ hmem
    obtain ⟨t, rest, name, rfl, hstart, hname, hword⟩ := hfield.exists_first hj
    have ht : t ∈ (scan source).tokens := hsub.subset List.mem_cons_self
    obtain ⟨after, hstands, -⟩ := (Cursor.start source).exists_after_of_mem_scan t ht
    have hlower := hname.lower_lexeme ((Cursor.start source).genuine_of_mem_scan t ht)
    exact ⟨t, rest, after, rfl, hstart, hstands, hlower ▸ hword⟩

end TrafficQuery
