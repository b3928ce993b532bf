import TrafficQuery.Proofs.Query.Reading

namespace TrafficQuery
open Grammar

namespace Reading
variable {ts : List Token} {c : Condition}

theorem conclude_eq_ok_iff {p : Reading} {ending : Ending} : p.conclude ending = .ok c ↔
    (∃ n, ending = .endOfInput n) ∧ p.finish = .ok c := by
  cases ending with
  | broken e => simp [conclude]
  | endOfInput n => cases h : p.finish <;> simp [conclude, h]

/-- Reading a keyword leaves the others and the condition. -/
theorem ends_keyword_iff {word : Keyword} {others : List Keyword} :
    Ends ⟨[], [], 0, atKeywords (word :: others)⟩ ts c ↔
      ∃ t us, ts = t :: us ∧ t.kind = .keyword word ∧ Ends ⟨[], [], 0, atKeywords others⟩ us c := by
  constructor
  · intro hends
    cases ts with
    | nil =>
      obtain ⟨last, ⟨⟩, -⟩ := finish_eq_ok_iff.mp (ends_nil_iff.mp hends)
    | cons t us =>
      obtain ⟨q, hq, hus⟩ := ends_cons_iff.mp hends
      obtain ⟨hk, rfl⟩ := (step_keyword_iff rfl).mp hq
      exact ⟨t, us, rfl, hk, hus⟩
  · rintro ⟨t, us, rfl, hk, hus⟩
    exact ends_cons_iff.mpr ⟨_, (step_keyword_iff rfl).mpr ⟨hk, rfl⟩, hus⟩

theorem ends_condition_iff : Ends ⟨[], [], 0, .operand 0⟩ ts c ↔
    ∃ depth ≤ maxNesting, Derives (.chain none) ts c depth := by
  constructor
  · intro h
    obtain ⟨us, vs, x, depth, chain, d, last, rfl, hx, hle, hclose, hvs, h⟩ :=
      starts (.chain none) ts ⟨[], [], 0, .operand 0⟩ c rfl rfl (Nat.zero_le _) h
    have hle : depth ≤ maxNesting := by simpa using hle
    cases vs with
    | nil =>
      obtain ⟨_, ⟨⟩, -, rfl⟩ := finish_eq_ok_iff.mp (ends_nil_iff.mp h)
      refine ⟨depth, hle, ?_⟩
      rw [hclose, List.append_nil]
      exact hx
    | cons t vs =>
      -- Only a parenthesis can stand here, and no group is open that it could close.
      obtain ⟨q, hq, -⟩ := ends_cons_iff.mp h
      have hk : t.kind = .paren .closing := hvs t rfl
      rcases (step_behind_iff rfl).mp hq with ⟨op, hop, -⟩ | ⟨-, hq⟩
      · rw [hk] at hop
        cases hop
      · obtain ⟨_, _, ⟨⟩, -⟩ := closeGroup_eq_ok_iff.mp hq
  · rintro ⟨depth, hle, h⟩
    obtain ⟨chain, d, last, hts, hclose⟩ :=
      passes_of_derives h ⟨[], [], 0, .operand 0⟩ rfl rfl (by simpa using hle)
    exact ⟨_, hts, finish_eq_ok_iff.mpr ⟨last, rfl, rfl, hclose.symm⟩⟩

theorem ends_start_iff : start.Ends ts c ↔ ∃ depth ≤ maxNesting, IsQuery ts c depth := by
  change Ends ⟨[], [], 0, atKeywords [.query, .requests, .whereClause]⟩ ts c ↔ _
  constructor
  · intro h
    obtain ⟨q, _, rfl, hq, h⟩ := ends_keyword_iff.mp h
    obtain ⟨r, _, rfl, hr, h⟩ := ends_keyword_iff.mp h
    obtain ⟨w, us, rfl, hw, h⟩ := ends_keyword_iff.mp h
    obtain ⟨depth, hle, h⟩ := ends_condition_iff.mp h
    exact ⟨depth, hle, q, r, w, us, rfl, hq, hr, hw, h⟩
  · rintro ⟨depth, hle, q, r, w, us, rfl, hq, hr, hw, h⟩
    have hcondition := ends_condition_iff.mpr ⟨depth, hle, h⟩
    exact ends_keyword_iff.mpr ⟨q, _, rfl, hq, ends_keyword_iff.mpr ⟨r, _, rfl, hr,
      ends_keyword_iff.mpr ⟨w, us, rfl, hw, hcondition⟩⟩⟩

end Reading

theorem Scan.condition_eq_ok_iff {s : Scan} {c : Condition} : s.condition = .ok c ↔
    (∃ n, s.ending = .endOfInput n) ∧ ∃ depth ≤ maxNesting, IsQuery s.tokens c depth := by
  rw [Scan.condition, bind_eq_ok_iff, ← Reading.ends_start_iff]
  simp only [Reading.conclude_eq_ok_iff]
  constructor
  · rintro ⟨p, hts, hending, hfinish⟩
    exact ⟨hending, p, hts, hfinish⟩
  · rintro ⟨hending, p, hts, hfinish⟩
    exact ⟨p, hts, hending, hfinish⟩

theorem exists_isQuery_of_parse {source : String} {q : Query} (h : parse source = .ok q) :
    (∃ n, (scan source).ending = .endOfInput n) ∧
      ∃ depth ≤ maxNesting, IsQuery (scan source).tokens q.root depth := by
  obtain ⟨c, hc, hq⟩ := bind_eq_ok_iff.mp h
  obtain rfl := Except.ok.inj hq
  exact Scan.condition_eq_ok_iff.mp hc

/-- A text is read to a query if and only if all of it can be cut into tokens, and the tokens derive
the condition of the query with no more levels open at once than may be. -/
theorem parse_eq_ok_iff_isQuery (source : String) (q : Query) : parse source = .ok q ↔
    q.operation = .rows ∧ (∃ n, (scan source).ending = .endOfInput n) ∧
      ∃ depth ≤ maxNesting, IsQuery (scan source).tokens q.root depth := by
  constructor
  · intro h
    refine ⟨?_, exists_isQuery_of_parse h⟩
    obtain ⟨c, -, hq⟩ := bind_eq_ok_iff.mp h
    obtain rfl := Except.ok.inj hq
    rfl
  · rintro ⟨hop, h⟩
    have hc : (scan source).condition = .ok q.root := Scan.condition_eq_ok_iff.mpr h
    rcases q with ⟨op, root⟩
    obtain rfl : op = .rows := hop
    exact bind_eq_ok_iff.mpr ⟨root, hc, rfl⟩

end TrafficQuery
