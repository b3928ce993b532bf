import TrafficQuery.Proofs.Compile.Renaming
import TrafficQuery.Proofs.Query.Acceptance
import TrafficQuery.Proofs.Query.Marks
import TrafficQuery.Proofs.Token.Cut

/-!
# Parentheses around a phrase

Wherever a phrase stands in a query, the query with that phrase in parentheses stands for the same
condition. It has more levels open, so it may be nested too deeply, but it is refused for nothing else.
-/

namespace TrafficQuery
open Text

namespace Grammar

/-! ## Phrases in phrases -/

/-- The tokens `mid` are a phrase that is part of another, with the tokens `pre` of that other phrase in
front of it and the tokens `post` behind it. -/
inductive Occurs (inner : Phrase) (mid : List Token) : Phrase → List Token → List Token → Prop
  | here {c : Condition} {depth : Nat} : Derives inner mid c depth → Occurs inner mid inner [] []
  | negated {n : Token} {pre post : List Token} :
      n.kind = .not → Occurs inner mid .operand pre post → Occurs inner mid .operand (n :: pre) post
  | group {o e : Token} {pre post : List Token} :
      o.kind = .paren .opening → Occurs inner mid (.chain none) pre post → e.kind = .paren .closing →
      Occurs inner mid .operand (o :: pre) (post ++ [e])
  | last {before : Option Connective} {pre post : List Token} :
      Occurs inner mid .operand pre post → Occurs inner mid (.chain before) pre post
  | left {before : Option Connective} {t : Token} {pre post us : List Token} {op : Connective}
      {rest : Condition} {depth : Nat} :
      Occurs inner mid .operand pre post → t.kind = .connective op →
      Derives (.chain (some op)) us rest depth → Occurs inner mid (.chain before) pre (post ++ t :: us)
  | right {before : Option Connective} {t : Token} {ts pre post : List Token} {op : Connective}
      {c : Condition} {depth : Nat} :
      Derives .operand ts c depth → t.kind = .connective op →
      Occurs inner mid (.chain (some op)) pre post → Occurs inner mid (.chain before) (ts ++ t :: pre) post

variable {phrase inner outer : Phrase} {ts pre mid post : List Token} {c : Condition} {depth : Nat}
  {o e : Token} {ρ : Nat → Nat}

theorem Derives.moved (h : Derives phrase ts c depth) (ρ : Nat → Nat) :
    Derives phrase (ts.map (Token.move ρ)) (c.remark ρ) depth := by
  have hts : List.Forall₂ (Token.Resembles id fun n m => m = ρ n) ts (ts.map (Token.move ρ)) :=
    List.forall₂_map_right_iff.mpr (List.forall₂_same.mpr fun t _ => ⟨.same _, rfl, rfl⟩)
  obtain ⟨c', fields, h', -, -, hc⟩ :=
    h.exists_resembling (fun s t hs => congrArg Text.lower hs) hts
  have hremark : c'.remark id = c.remark ρ := hc.remark_eq Function.injective_id fun _ _ h => h
  rw [Condition.remark_id] at hremark
  rwa [← hremark]

/-- What is left of a chain is a chain as well, in which other levels may be open. -/
theorem Derives.exists_chain (h : Derives phrase ts c depth) (before : Option Connective) :
    ∃ depth', Derives (.chain before) ts c depth' := by
  cases h with
  | field hfield => exact ⟨_, .last (.field hfield)⟩
  | negated hn h => exact ⟨_, .last (.negated hn h)⟩
  | group ho h he => exact ⟨_, .last (.group ho h he)⟩
  | last h => exact ⟨_, .last h⟩
  | link h ht hrest => exact ⟨_, .link h ht hrest⟩

/-- A phrase in parentheses is one operand, and so it is the same phrase. -/
theorem Derives.exists_enclosed (h : Derives phrase ts c depth) (ho : o.kind = .paren .opening)
    (he : e.kind = .paren .closing) : ∃ depth', Derives phrase (o :: (ts ++ [e])) c depth' := by
  obtain ⟨depth', hchain⟩ := h.exists_chain none
  cases phrase with
  | operand => exact ⟨_, .group ho hchain he⟩
  | chain before => exact ⟨_, .last (.group ho hchain he)⟩

/-- A phrase stands for one condition, but for its marks, with a part of it in parentheses or without. -/
theorem Occurs.exists_derives (h : Occurs inner mid outer pre post) (ho : o.kind = .paren .opening)
    (he : e.kind = .paren .closing) (ρ : Nat → Nat) :
    ∃ c depth depth', Derives outer (pre ++ (mid ++ post)) c depth ∧
      Derives outer (pre.map (Token.move ρ) ++ o :: (mid.map (Token.move ρ) ++
        e :: post.map (Token.move ρ))) (c.remark ρ) depth' := by
  induction h with
  | @here c depth h =>
    obtain ⟨depth', henclosed⟩ := (h.moved ρ).exists_enclosed ho he
    refine ⟨c, depth, depth', ?_, henclosed⟩
    rwa [List.nil_append, List.append_nil]
  | @negated n pre post hn _ ih =>
    obtain ⟨c, depth, depth', hplain, henclosed⟩ := ih
    exact ⟨_, _, _, .negated hn hplain, .negated (n := n.move ρ) hn henclosed⟩
  | @group a z pre post ha _ hz ih =>
    obtain ⟨c, depth, depth', hplain, henclosed⟩ := ih
    have hgroup := Derives.group ha hplain hz
    have hgroup' := Derives.group (o := a.move ρ) (e := z.move ρ) ha henclosed hz
    simp only [List.map_append, List.map_cons, List.map_nil, List.append_assoc, List.cons_append]
      at hgroup hgroup' ⊢
    exact ⟨c, _, _, hgroup, hgroup'⟩
  | last _ ih =>
    obtain ⟨c, depth, depth', hplain, henclosed⟩ := ih
    exact ⟨c, _, _, .last hplain, .last henclosed⟩
  | @left before t pre post us op rest below _ ht hrest ih =>
    obtain ⟨c, depth, depth', hplain, henclosed⟩ := ih
    have hlink : Derives (.chain before) _ _ _ := .link hplain ht hrest
    have hlink' : Derives (.chain before) _ _ _ := .link (t := t.move ρ) henclosed ht (hrest.moved ρ)
    simp only [List.map_append, List.map_cons, List.append_assoc, List.cons_append]
      at hlink hlink' ⊢
    exact ⟨_, _, _, hlink, hlink'⟩
  | @right before t ts pre post op x below hx ht _ ih =>
    obtain ⟨c, depth, depth', hplain, henclosed⟩ := ih
    have hlink : Derives (.chain before) _ _ _ := .link hx ht hplain
    have hlink' : Derives (.chain before) _ _ _ := .link (t := t.move ρ) (hx.moved ρ) ht henclosed
    simp only [List.map_append, List.map_cons, List.append_assoc, List.cons_append]
      at hlink hlink' ⊢
    exact ⟨_, _, _, hlink, hlink'⟩

end Grammar
open Grammar

/-! ## Readings without a bound on the levels -/

/-- A computation that fails because too many levels are open. -/
def TooDeep {α : Type} (x : Except ParseError α) : Prop := ∃ n, x = .error ⟨.nestingTooDeep, n⟩

theorem TooDeep.bind {α β : Type} {x : Except ParseError α} (h : TooDeep x)
    (f : α → Except ParseError β) : TooDeep (x >>= f) := by
  obtain ⟨n, rfl⟩ := h
  exact ⟨n, rfl⟩

namespace Reading
variable {p : Reading} {t : Token} {ts us : List Token} {c : Condition}

theorem tooDeep_append (h : TooDeep (ts.foldlM step p)) (us : List Token) :
    TooDeep ((ts ++ us).foldlM step p) := by
  rw [List.foldlM_append]
  exact h.bind _

theorem tooDeep_cons (h : TooDeep (p.step t)) (ts : List Token) :
    TooDeep ((t :: ts).foldlM step p) := by
  rw [List.foldlM_cons]
  exact h.bind _

theorem foldlM_step_cons {q : Reading} (h : p.step t = .ok q) (ts : List Token) :
    (t :: ts).foldlM step p = ts.foldlM step q := by
  rw [List.foldlM_cons, h]
  rfl

theorem foldlM_step_append {q : Reading} (h : ts.foldlM step p = .ok q) :
    (ts ++ us).foldlM step p = us.foldlM step q := by
  rw [List.foldlM_append, h]
  rfl

/-- A parenthesis opens a group, if one level more may be open. -/
theorem step_opening {n : Nat} (hplace : p.place = .operand n) (hk : t.kind = .paren .opening) :
    p.step t = .ok ⟨⟨p.chain, n, p.depth⟩ :: p.groups, [], p.depth + 1, .operand 0⟩ ∨
      TooDeep (p.step t) := by
  have hstep : p.step t = p.openGroup n t := by
    unfold step
    rw [hplace, hk]
  rw [hstep]
  by_cases hdepth : p.depth < maxNesting
  · exact .inl (openGroup_eq_ok_iff.mpr ⟨hdepth, rfl⟩)
  · refine .inr ⟨t.start, ?_⟩
    rw [openGroup, descend, if_neg hdepth]
    rfl

/-- A connective goes on with a chain, if the level that it asks for may be open. -/
theorem step_connective {x : Condition} {op : Connective} (hplace : p.place = .behind x)
    (hk : t.kind = .connective op) :
    p.step t =
        .ok ⟨p.groups, (x, op) :: p.chain, p.depth + switchLevel p.before op, .operand 0⟩ ∨
      TooDeep (p.step t) := by
  have hstep : p.step t = p.extend x op t := by
    unfold step
    rw [hplace, hk]
  rw [hstep]
  by_cases hlevel : switchLevel p.before op = 0 ∨ p.depth < maxNesting
  · exact .inl (extend_eq_ok_iff.mpr ⟨hlevel, rfl⟩)
  · rw [not_or, switchLevel_before] at hlevel
    refine .inr ⟨t.start, ?_⟩
    have hswitches : p.switches op = true := by simpa using hlevel.1
    rw [extend, if_pos hswitches, descend, if_neg hlevel.2]
    rfl

/-- What the tokens of a phrase do to a reading in front of it when any number of levels is open: they
are passed, or too many levels are open within them. -/
def PassesUnlessTooDeep (phrase : Phrase) (ts : List Token) (c : Condition) : Prop :=
  match phrase with
  | .operand => ∀ (p : Reading) (n : Nat), p.place = .operand n →
      ts.foldlM step p = .ok { p with place := .behind (.negations n c) } ∨
        TooDeep (ts.foldlM step p)
  | .chain _ => ∀ p : Reading, p.place = .operand 0 →
      (∃ chain d last, ts.foldlM step p = .ok ⟨p.groups, chain, d, .behind last⟩ ∧
        chain.close last = p.chain.close c) ∨ TooDeep (ts.foldlM step p)

theorem passesUnlessTooDeep_negated (hk : t.kind = .not) (h : PassesUnlessTooDeep .operand ts c) :
    PassesUnlessTooDeep .operand (t :: ts) (.negation c) := by
  intro p n hplace
  have hstep : p.step t = .ok { p with place := .operand (n + 1) } :=
    (step_operand_iff hplace).mpr (.inl ⟨hk, rfl⟩)
  rw [foldlM_step_cons hstep, negations_negation]
  exact h { p with place := .operand (n + 1) } (n + 1) rfl

theorem passesUnlessTooDeep_group {before : Option Connective} {e : Token}
    (hk : t.kind = .paren .opening) (h : PassesUnlessTooDeep (.chain before) ts c)
    (he : e.kind = .paren .closing) : PassesUnlessTooDeep .operand (t :: (ts ++ [e])) c := by
  intro p n hplace
  rcases step_opening hplace hk with hstep | hdeep
  · rw [foldlM_step_cons hstep]
    rcases h ⟨⟨p.chain, n, p.depth⟩ :: p.groups, [], p.depth + 1, .operand 0⟩ rfl with
      ⟨chain, d, last, hts, hclose⟩ | hdeep
    · left
      obtain rfl : chain.close last = c := hclose
      rw [foldlM_step_append hts]
      exact foldlM_cons_eq_ok_iff.mpr
        ⟨_, (step_behind_iff rfl).mpr (.inr ⟨he, closeGroup_eq_ok_iff.mpr ⟨_, _, rfl, rfl⟩⟩), rfl⟩
    · exact .inr (tooDeep_append hdeep _)
  · exact .inr (tooDeep_cons hdeep _)

theorem passesUnlessTooDeep_last {before : Option Connective} (h : PassesUnlessTooDeep .operand ts c) :
    PassesUnlessTooDeep (.chain before) ts c := by
  intro p hplace
  rcases h p 0 hplace with hts | hdeep
  · exact .inl ⟨p.chain, p.depth, c, hts, rfl⟩
  · exact .inr hdeep

theorem passesUnlessTooDeep_link {before behind : Option Connective} {op : Connective}
    {rest : Condition} (h : PassesUnlessTooDeep .operand ts c) (hk : t.kind = .connective op)
    (hrest : PassesUnlessTooDeep (.chain behind) us rest) :
    PassesUnlessTooDeep (.chain before) (ts ++ t :: us) (.binary op c rest) := by
  intro p hplace
  rcases h p 0 hplace with hts | hdeep
  · rw [foldlM_step_append hts]
    have hbehind : Reading.place { p with place := .behind (.negations 0 c) } = .behind c := rfl
    rcases step_connective hbehind hk with hstep | hdeep
    · rw [foldlM_step_cons hstep]
      exact hrest ⟨p.groups, (c, op) :: p.chain, p.depth + switchLevel p.before op, .operand 0⟩ rfl
    · exact .inr (tooDeep_cons hdeep _)
  · exact .inr (tooDeep_append hdeep _)

/-- Every phrase is passed, unless too many levels are open in it. -/
theorem passesUnlessTooDeep_of_derives {phrase : Phrase} {depth : Nat}
    (h : Derives phrase ts c depth) : PassesUnlessTooDeep phrase ts c := by
  induction h with
  | field hfield => exact fun p n hplace => .inl (foldlM_step_of_isField hfield hplace)
  | negated hk _ ih => exact passesUnlessTooDeep_negated hk ih
  | group hk _ he ih => exact passesUnlessTooDeep_group hk ih he
  | last _ ih => exact passesUnlessTooDeep_last ih
  | link _ hk _ ih ihrest => exact passesUnlessTooDeep_link ih hk ihrest

end Reading

/-- A query with any number of levels is read to its condition, unless it is nested too deeply. -/
theorem Scan.condition_of_isQuery {s : Scan} {c : Condition} {depth n : Nat}
    (h : IsQuery s.tokens c depth) (hending : s.ending = .endOfInput n) :
    s.condition = .ok c ∨ TooDeep s.condition := by
  obtain ⟨q, r, w, us, hts, hq, hr, hw, hus⟩ := h
  have hkeywords : s.tokens.foldlM Reading.step Reading.start =
      us.foldlM Reading.step ⟨[], [], 0, .operand 0⟩ := by
    have hstep {t : Token} {word : Keyword} (others : List Keyword) (ht : t.kind = .keyword word) :
        Reading.step ⟨[], [], 0, .keyword word others⟩ t =
          .ok ⟨[], [], 0, Reading.atKeywords others⟩ :=
      (Reading.step_keyword_iff rfl).mpr ⟨ht, rfl⟩
    have hq := Reading.foldlM_step_cons (hstep [.requests, .whereClause] hq) (r :: w :: us)
    have hr := Reading.foldlM_step_cons (hstep [.whereClause] hr) (w :: us)
    have hw := Reading.foldlM_step_cons (hstep [] hw) us
    rw [hts]
    exact hq.trans (hr.trans hw)
  rw [Scan.condition, hkeywords, hending]
  rcases Reading.passesUnlessTooDeep_of_derives hus ⟨[], [], 0, .operand 0⟩ rfl with
    ⟨chain, d, last, hus, hclose⟩ | hdeep
  · left
    rw [hus]
    exact congrArg Except.ok hclose
  · exact .inr (hdeep.bind _)

/-- A query has one condition. -/
theorem Scan.eq_of_isQuery {s : Scan} {c d : Condition} {depth : Nat} (h : s.condition = .ok c)
    (hd : IsQuery s.tokens d depth) : d = c := by
  obtain ⟨⟨n, hending⟩, -⟩ := Scan.condition_eq_ok_iff.mp h
  rcases condition_of_isQuery hd hending with hok | ⟨m, hdeep⟩
  · exact Except.ok.inj (hok.symm.trans h)
  · cases h.symm.trans hdeep

/-! ## Texts -/

/-- A pair of parentheses that is put into the text of a query: around its condition or that of a group,
around an operand, behind negations or in front of them, or around what is left of a chain behind one of
its connectives. -/
structure Parenthesization (source : String) where
  before : List Char
  opening : List Char
  inner : List Char
  closing : List Char
  after : List Char
  keywords : List Token
  pre : List Token
  mid : List Token
  post : List Token
  phrase : Phrase
  /-- The parts of the text at which it is cut, and the tokens in them. -/
  text_eq : source.toList = before ++ (inner ++ after)
  tokens_eq : (scan source).tokens = keywords ++ (pre ++ (mid ++ post))
  cut : CutAt before inner (keywords ++ pre) mid post
  /-- Behind the three words that each query starts with, the tokens in the middle are a phrase. -/
  length_keywords : keywords.length = 3
  occurs : Occurs phrase mid (.chain none) pre post
  written_opening : Paren.opening.IsWritten opening
  written_closing : Paren.closing.IsWritten closing

namespace Parenthesization
variable {source : String} (p : Parenthesization source)

/-- The text with the parentheses. -/
def result : String :=
  String.ofList (p.before ++ (p.opening ++ (p.inner ++ (p.closing ++ p.after))))

/-- The parentheses are tokens of their own, and the other tokens stand in their order around them. -/
theorem exists_scan_result {n : Nat} (hending : (scan source).ending = .endOfInput n) :
    ∃ o e : Token, o.kind = .paren .opening ∧ e.kind = .paren .closing ∧ ∃ ρ m, StrictMono ρ ∧
      scan p.result = ⟨(p.keywords ++ p.pre).map (Token.move ρ) ++ o ::
        (p.mid.map (Token.move ρ) ++ e :: p.post.map (Token.move ρ)), .endOfInput m⟩ := by
  have hscan : Cursor.scan ⟨0, p.before ++ (p.inner ++ p.after)⟩ =
      ⟨p.keywords ++ p.pre ++ (p.mid ++ p.post), .endOfInput n⟩ := by
    rw [List.append_assoc, ← p.tokens_eq, ← hending, ← p.text_eq]
    rfl
  rw [scan, Cursor.start, result, String.toList_ofList]
  exact exists_scan_parenthesized hscan p.cut p.written_opening p.written_closing

/-- The text with the parentheses is read to the condition of the query with other marks, which are in
the same order, unless it is nested too deeply. -/
theorem exists_parse {q : Query} (h : parse source = .ok q) : TooDeep (parse p.result) ∨
    ∃ ρ, StrictMono ρ ∧ parse p.result = .ok ⟨q.operation, q.root.remark ρ⟩ := by
  obtain ⟨c, hc, hq⟩ := bind_eq_ok_iff.mp h
  obtain rfl := Except.ok.inj hq
  obtain ⟨⟨n, hending⟩, depth, -, k, r, w, us, hts, hk, hr, hw, -⟩ := Scan.condition_eq_ok_iff.mp hc
  obtain ⟨hkeywords, rfl⟩ : p.keywords = [k, r, w] ∧ p.pre ++ (p.mid ++ p.post) = us := by
    have htokens : p.keywords ++ (p.pre ++ (p.mid ++ p.post)) = [k, r, w] ++ us :=
      p.tokens_eq.symm.trans hts
    exact List.append_inj htokens p.length_keywords
  obtain ⟨o, e, hok, hek, ρ, m, hρ, hresult⟩ := p.exists_scan_result hending
  obtain ⟨d, plain, enclosed, hplain, henclosed⟩ := p.occurs.exists_derives hok hek ρ
  obtain rfl : d = c := Scan.eq_of_isQuery hc ⟨k, r, w, _, hts, hk, hr, hw, hplain⟩
  have hquery : IsQuery (scan p.result).tokens (d.remark ρ) enclosed := by
    refine ⟨k.move ρ, r.move ρ, w.move ρ, _, ?_, hk, hr, hw, henclosed⟩
    rw [hresult, hkeywords]
    rfl
  rcases Scan.condition_of_isQuery hquery (congrArg Scan.ending hresult) with hcondition | hdeep
  · exact .inr ⟨ρ, hρ, bind_eq_ok_iff.mpr ⟨_, hcondition, rfl⟩⟩
  · exact .inl (hdeep.bind _)

end Parenthesization

/-- A query with other marks, and what it compiles to: the same statement, with other names for its
header tables and the same values. -/
structure Query.IsRemarked (ρ : Nat → Nat) (q q' : Query) : Prop where
  query : q' = ⟨q.operation, q.root.remark ρ⟩
  compile : ∀ (s : Settings) (op : Operation), ∃ st st', Query.compile s ⟨op, q.root⟩ = .ok st ∧
    Query.compile s ⟨op, q'.root⟩ = .ok st' ∧ st' = st.rename ρ ∧ st'.values = st.values ∧
    Sql.RenamedPieces ρ st.pieces st'.pieces

/-- Parentheses around a phrase change nothing of a query but its marks, unless it is nested too deeply
with them. -/
theorem parse_parenthesized {source : String} {q : Query} (h : parse source = .ok q)
    (p : Parenthesization source) : TooDeep (parse p.result) ∨
      ∃ ρ q', StrictMono ρ ∧ parse p.result = .ok q' ∧ q.IsRemarked ρ q' := by
  rcases p.exists_parse h with hdeep | ⟨ρ, hρ, hparse⟩
  · exact .inl hdeep
  · refine .inr ⟨ρ, _, hρ, hparse, rfl, fun s op => ?_⟩
    obtain ⟨e, he⟩ := Compile.exists_filter_eq_ok s (comparesIds_of_parse h)
    have hcompile : Query.compile s ⟨op, q.root⟩ = _ := Query.compile_eq_ok_iff.mpr ⟨e, he, rfl⟩
    have hpieces := Sql.Statement.renamedPieces (ρ := ρ) ⟨op, s.tables, q.root.joins, e⟩
    exact ⟨_, _, hcompile, Query.compile_remark ρ s op hcompile, rfl, hpieces.valuesOf_eq, hpieces⟩

/-- A chain with a change between its connectives. -/
def chainSource : String := "query requests where id = 1 or raw contains 'a' and id = 2"

/-- Parentheses around what is left of the chain behind `or`. -/
def chainParentheses : Parenthesization chainSource where
  before := "query requests where id = 1 or ".toList
  opening := ['(']
  inner := "raw contains 'a' and id = 2".toList
  closing := [' ', ')']
  after := []
  keywords := [⟨.keyword .query, 0, "query"⟩, ⟨.keyword .requests, 6, "requests"⟩,
    ⟨.keyword .whereClause, 15, "where"⟩]
  pre := [⟨.identifier "id", 21, "id"⟩, ⟨.order .eq, 24, "="⟩, ⟨.number 1, 26, "1"⟩,
    ⟨.connective .or, 28, "or"⟩]
  mid := [⟨.identifier "raw", 31, "raw"⟩, ⟨.contains, 35, "contains"⟩, ⟨.string "a", 44, "'a'"⟩,
    ⟨.connective .and, 48, "and"⟩, ⟨.identifier "id", 52, "id"⟩, ⟨.order .eq, 55, "="⟩,
    ⟨.number 2, 57, "2"⟩]
  post := []
  phrase := .chain (some .or)
  text_eq := by decide +kernel
  tokens_eq := by decide +kernel
  cut := ⟨by decide, by decide, by decide⟩
  length_keywords := rfl
  occurs := by
    have hid {f o v : Token} {n : Nat} (hf : f.kind = .identifier "id") (ho : o.kind = .order .eq)
        (hv : v.kind = .number n) : Derives .operand [f, o, v] (.test (.id .eq (toString n))) 0 := by
      have hname : IsName f "id" := ⟨"id", hf, by decide⟩
      exact .field ⟨.id, f.start, [f], [o, v], rfl, .request hname (by decide), .id ho (by rw [hv]; rfl)⟩
    have hraw {f o v : Token} {s : String} (hf : f.kind = .identifier "raw") (ho : o.kind = .contains)
        (hv : v.kind = .string s) : Derives .operand [f, o, v] (.test (.raw .request f.start s)) 0 := by
      have hname : IsName f "raw" := ⟨"raw", hf, by decide⟩
      exact .field ⟨.raw .request, f.start, [f], [o, v], rfl, .request hname (by decide), .raw ho hv⟩
    have hfirst : Derives .operand
        [⟨.identifier "id", 21, "id"⟩, ⟨.order .eq, 24, "="⟩, ⟨.number 1, 26, "1"⟩] _ _ :=
      hid (n := 1) rfl rfl rfl
    have hmiddle : Derives .operand [⟨.identifier "raw", 31, "raw"⟩, ⟨.contains, 35, "contains"⟩,
        ⟨.string "a", 44, "'a'"⟩] _ _ := hraw rfl rfl rfl
    have hlast : Derives .operand
        [⟨.identifier "id", 52, "id"⟩, ⟨.order .eq, 55, "="⟩, ⟨.number 2, 57, "2"⟩] _ _ :=
      hid (n := 2) rfl rfl rfl
    have hrest : Derives (.chain (some .or)) _ _ _ :=
      .link hmiddle (t := ⟨.connective .and, 48, "and"⟩) rfl (.last hlast)
    exact .right hfirst (t := ⟨.connective .or, 28, "or"⟩) rfl (.here hrest)
  written_opening := ⟨[], [], nofun, nofun, rfl⟩
  written_closing := ⟨[' '], [], by simp [IsGap]; decide, nofun, rfl⟩

theorem parse_parenthesized_chain : parse chainSource = .ok ⟨.rows, .binary .or (.test (.id .eq "1"))
      (.binary .and (.test (.raw .request 31 "a")) (.test (.id .eq "2")))⟩ ∧
    (TooDeep (parse chainParentheses.result) ∨ ∃ ρ q', StrictMono ρ ∧
      parse chainParentheses.result = .ok q' ∧
        Query.IsRemarked ρ ⟨.rows, .binary .or (.test (.id .eq "1"))
          (.binary .and (.test (.raw .request 31 "a")) (.test (.id .eq "2")))⟩ q') := by
  have h : parse chainSource = .ok ⟨.rows, .binary .or (.test (.id .eq "1"))
      (.binary .and (.test (.raw .request 31 "a")) (.test (.id .eq "2")))⟩ := by decide +kernel
  exact ⟨h, parse_parenthesized h chainParentheses⟩

end TrafficQuery
