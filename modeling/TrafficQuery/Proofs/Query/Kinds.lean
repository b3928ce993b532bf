import TrafficQuery.Proofs.Query.Acceptance
import TrafficQuery.Proofs.Token.Layout

/-!
# What a query takes from its tokens

Apart from the marks of its tests, a query takes nothing from its tokens but their kinds. So a sequence
of kinds is accepted wherever its tokens stand, as soon as each of them can be written.
-/

namespace TrafficQuery
open Grammar

/-! ## Conditions without marks -/

def Test.unmarked : Test → Test
  | .header side _ name wanted => .header side 0 name wanted
  | .raw side _ text => .raw side 0 text
  | t => t

def Condition.unmarked : Condition → Condition
  | .test t => .test t.unmarked
  | .binary op l r => .binary op l.unmarked r.unmarked
  | .negation c => .negation c.unmarked

/-! ## Tokens of the same kinds -/

namespace Grammar
variable {ts us : List Token} {field : Field} {mark : Nat}

theorem IsName.of_kind {t u : Token} {name : String} (h : IsName t name) (hk : u.kind = t.kind) :
    IsName u name := by
  obtain ⟨text, ht, hname⟩ := h
  exact ⟨text, hk.trans ht, hname⟩

theorem Names.of_kinds (h : Names field mark ts) (hk : us.map Token.kind = ts.map Token.kind) :
    ∃ mark, Names field mark us := by
  cases h <;> simp only [List.map_cons, List.map_nil, List.map_eq_cons_iff, List.map_eq_nil_iff] at hk
  case request hname hf =>
    obtain ⟨f, _, rfl, hfk, rfl⟩ := hk
    exact ⟨_, .request (hname.of_kind hfk) hf⟩
  case response howner ho hd hname hf =>
    obtain ⟨r, _, rfl, hrk, d, _, rfl, hdk, f, _, rfl, hfk, rfl⟩ := hk
    exact ⟨_, .response (howner.of_kind hrk) ho (hdk.trans hd) (hname.of_kind hfk) hf⟩

/-- Tokens of the same kinds form the same test behind every mark. -/
theorem Form.of_kinds {test : Test} (h : Form field mark ts test)
    (hk : us.map Token.kind = ts.map Token.kind) (other : Nat) :
    ∃ test', Form field other us test' ∧ test'.unmarked = test.unmarked := by
  cases h <;> simp only [List.map_cons, List.map_nil, List.map_eq_cons_iff, List.map_eq_nil_iff] at hk
  case timestamp ho hd ha =>
    obtain ⟨o, _, rfl, hok, d, _, rfl, hdk, a, _, rfl, hak, rfl⟩ := hk
    exact ⟨_, .timestamp (hok.trans ho) (hdk.trans hd) (hak.trans ha), rfl⟩
  case id ho hv =>
    obtain ⟨o, _, rfl, hok, v, _, rfl, hvk, rfl⟩ := hk
    exact ⟨_, .id (hok.trans ho) (hvk ▸ hv), rfl⟩
  case method ho hv hm =>
    obtain ⟨o, _, rfl, hok, v, _, rfl, hvk, rfl⟩ := hk
    exact ⟨_, .method (hok.trans ho) (hvk ▸ hv) hm, rfl⟩
  case headerPresent hd hn ho =>
    obtain ⟨d, _, rfl, hdk, n, _, rfl, hnk, o, _, rfl, hok, rfl⟩ := hk
    exact ⟨_, .headerPresent (hdk.trans hd) (hnk ▸ hn) (hok.trans ho), rfl⟩
  case headerValue hd hn ho hv =>
    obtain ⟨d, _, rfl, hdk, n, _, rfl, hnk, o, _, rfl, hok, v, _, rfl, hvk, rfl⟩ := hk
    exact ⟨_, .headerValue (hdk.trans hd) (hnk ▸ hn) (hok ▸ ho) (hvk.trans hv), rfl⟩
  case body ho hne hv =>
    obtain ⟨o, _, rfl, hok, v, _, rfl, hvk, rfl⟩ := hk
    exact ⟨_, .body (hok ▸ ho) hne (hvk.trans hv), rfl⟩
  case path ho hv =>
    obtain ⟨o, _, rfl, hok, v, _, rfl, hvk, rfl⟩ := hk
    exact ⟨_, .path (hok ▸ ho) (hvk.trans hv), rfl⟩
  case raw ho hv =>
    obtain ⟨o, _, rfl, hok, v, _, rfl, hvk, rfl⟩ := hk
    exact ⟨_, .raw (hok.trans ho) (hvk.trans hv), rfl⟩
  case status ho hv =>
    obtain ⟨o, _, rfl, hok, v, _, rfl, hvk, rfl⟩ := hk
    exact ⟨_, .status (hok.trans ho) (hvk.trans hv), rfl⟩

theorem IsField.of_kinds {test : Test} (h : IsField ts test)
    (hk : us.map Token.kind = ts.map Token.kind) :
    ∃ test', IsField us test' ∧ test'.unmarked = test.unmarked := by
  obtain ⟨field, mark, names, form, rfl, hnames, hform⟩ := h
  rw [List.map_append, List.map_eq_append_iff] at hk
  obtain ⟨names', form', rfl, hnk, hfk⟩ := hk
  obtain ⟨mark', hnames'⟩ := hnames.of_kinds hnk
  obtain ⟨test', hform', htest⟩ := hform.of_kinds hfk mark'
  exact ⟨test', ⟨field, mark', names', form', rfl, hnames', hform'⟩, htest⟩

/-- Tokens of the same kinds derive the same condition, apart from its marks. -/
theorem Derives.of_kinds {phrase : Phrase} {c : Condition} {depth : Nat}
    (h : Derives phrase ts c depth) (hk : us.map Token.kind = ts.map Token.kind) :
    ∃ c', Derives phrase us c' depth ∧ c'.unmarked = c.unmarked := by
  induction h generalizing us with
  | field hf =>
    obtain ⟨test', hf', htest⟩ := hf.of_kinds hk
    exact ⟨_, .field hf', congrArg Condition.test htest⟩
  | negated hn _ ih =>
    obtain ⟨n, us, rfl, hnk, hk⟩ := List.map_eq_cons_iff.mp hk
    obtain ⟨c', h', hc⟩ := ih hk
    exact ⟨_, .negated (hnk.trans hn) h', congrArg Condition.negation hc⟩
  | group ho _ he ih =>
    rw [List.map_cons, List.map_append, List.map_eq_cons_iff] at hk
    obtain ⟨o, _, rfl, hok, hk⟩ := hk
    obtain ⟨us, _, rfl, husk, hk⟩ := List.map_eq_append_iff.mp hk
    obtain ⟨e, _, rfl, hek, hk⟩ := List.map_eq_cons_iff.mp hk
    obtain rfl := List.map_eq_nil_iff.mp hk
    obtain ⟨c', h', hc⟩ := ih husk
    exact ⟨_, .group (hok.trans ho) h' (hek.trans he), hc⟩
  | last _ ih =>
    obtain ⟨c', h', hc⟩ := ih hk
    exact ⟨_, .last h', hc⟩
  | link _ ht _ ih ihrest =>
    rw [List.map_append, List.map_cons, List.map_eq_append_iff] at hk
    obtain ⟨us, _, rfl, husk, hk⟩ := hk
    obtain ⟨t, vs, rfl, htk, hvk⟩ := List.map_eq_cons_iff.mp hk
    obtain ⟨c', h', hc⟩ := ih husk
    obtain ⟨rest', hrest', hrest⟩ := ihrest hvk
    refine ⟨_, .link h' (htk.trans ht) hrest', ?_⟩
    rw [Condition.unmarked, Condition.unmarked, hc, hrest]

theorem IsQuery.of_kinds {c : Condition} {depth : Nat} (h : IsQuery ts c depth)
    (hk : us.map Token.kind = ts.map Token.kind) :
    ∃ c', IsQuery us c' depth ∧ c'.unmarked = c.unmarked := by
  obtain ⟨q, r, w, vs, rfl, hq, hr, hw, h⟩ := h
  simp only [List.map_cons, List.map_eq_cons_iff] at hk
  obtain ⟨q', _, rfl, hqk, r', _, rfl, hrk, w', vs', rfl, hwk, hk⟩ := hk
  obtain ⟨c', h', hc⟩ := h.of_kinds hk
  exact ⟨c', ⟨q', r', w', vs', rfl, hqk.trans hq, hrk.trans hr, hwk.trans hw, h'⟩, hc⟩

end Grammar

/-! ## Accepted kinds -/

theorem exists_genuine {ts : List Token} (h : ∀ t ∈ ts, t.kind.Spelled) :
    ∃ us : List Token, (∀ u ∈ us, u.Genuine) ∧ us.map Token.kind = ts.map Token.kind := by
  induction ts with
  | nil => exact ⟨[], by simp, rfl⟩
  | cons t ts ih =>
    obtain ⟨ht, hts⟩ := List.forall_mem_cons.mp h
    obtain ⟨w, hw⟩ := ht
    obtain ⟨us, hus, hk⟩ := ih hts
    have hgenuine : (⟨t.kind, 0, String.ofList w⟩ : Token).Genuine := by
      rw [Token.Genuine, String.toList_ofList]
      exact hw
    exact ⟨_ :: us, List.forall_mem_cons.mpr ⟨hgenuine, hus⟩, congrArg (t.kind :: ·) hk⟩

theorem spelled_of_mem_scan {source : String} {t : Token} (h : t ∈ (scan source).tokens) :
    t.kind.Spelled :=
  ⟨_, Text.Cursor.genuine_of_mem_scan _ t h⟩

/-- A source has tokens of given kinds and is read to a condition, apart from its marks, if and only
if the kinds can be written and the tokens that are given with them are a query for it. -/
theorem exists_parse_iff {ts : List Token} {c : Condition} :
    (∃ source q, parse source = .ok q ∧
      (scan source).tokens.map Token.kind = ts.map Token.kind ∧ q.root.unmarked = c.unmarked) ↔
    (∀ t ∈ ts, t.kind.Spelled) ∧
      ∃ depth ≤ maxNesting, ∃ c', IsQuery ts c' depth ∧ c'.unmarked = c.unmarked := by
  constructor
  · rintro ⟨source, q, hq, hk, hc⟩
    obtain ⟨-, depth, hle, h⟩ := exists_isQuery_of_parse hq
    obtain ⟨c', h', hc'⟩ := h.of_kinds hk.symm
    refine ⟨fun t ht => ?_, depth, hle, c', h', hc'.trans hc⟩
    have hmem : t.kind ∈ (scan source).tokens.map Token.kind := hk ▸ List.mem_map_of_mem ht
    obtain ⟨u, hu, hkind⟩ := List.mem_map.mp hmem
    exact hkind ▸ spelled_of_mem_scan hu
  · rintro ⟨hspelled, depth, hle, c', h, hc⟩
    obtain ⟨us, hus, hk⟩ := exists_genuine hspelled
    obtain ⟨hscan, hending⟩ := scan_writeTokens hus
    obtain ⟨c'', h', hc'⟩ := h.of_kinds (hscan.trans hk)
    have hread : (scan (writeTokens us)).condition = .ok c'' :=
      Scan.condition_eq_ok_iff.mpr ⟨hending, depth, hle, h'⟩
    have hparse : parse (writeTokens us) = .ok ⟨.rows, c''⟩ := bind_eq_ok_iff.mpr ⟨c'', hread, rfl⟩
    exact ⟨_, _, hparse, hscan.trans hk, hc'.trans hc⟩

end TrafficQuery
