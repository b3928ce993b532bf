import Mathlib.Data.List.Forall2
import TrafficQuery.Proofs.Query.Fields
import TrafficQuery.Proofs.Text.Case

/-!
# Queries that resemble each other

Two sequences of tokens resemble each other when their tokens are of the same kinds, one by one, with
words that a map takes for the same, at places that are related. If one of them is a query, so is the
other, of the same shape. The tests of the two, each read from its own tokens, differ in nothing but
header names, uuids and marks.
-/

namespace TrafficQuery
open Grammar

/-! ## Tokens -/

/-- Kinds that carry a word of the source. -/
def Kind.carriesWord : Kind → Bool
  | .identifier _ | .headerName _ | .uuid _ => true
  | _ => false

/-- One kind, with words that `f` takes for the same. -/
inductive Kind.Resembles (f : String → String) : Kind → Kind → Prop
  | same (k : Kind) : Resembles f k k
  | identifier {s t : String} : f s = f t → Resembles f (.identifier s) (.identifier t)
  | headerName {s t : String} : f s = f t → Resembles f (.headerName s) (.headerName t)
  | uuid {s t : String} : f s = f t → Resembles f (.uuid s) (.uuid t)

/-- Tokens of one kind, with words that `f` takes for the same, at related places. -/
structure Token.Resembles (f : String → String) (P : Nat → Nat → Prop) (t u : Token) : Prop where
  kind : t.kind.Resembles f u.kind
  lexeme : f t.lexeme = f u.lexeme
  place : P t.start u.start

variable {f : String → String} {P : Nat → Nat → Prop}

namespace Kind.Resembles
variable {k k' : Kind}

theorem eq (h : k.Resembles f k') (hk : k.carriesWord = false) : k' = k := by
  cases h with
  | same => rfl
  | _ => cases hk

theorem eq_of_injective (h : k.Resembles f k') (hf : Function.Injective f) : k' = k := by
  cases h with
  | same => rfl
  | identifier hs | headerName hs | uuid hs => rw [hf hs]

theorem exists_identifier {s : String} (h : Resembles f (.identifier s) k) :
    ∃ t, k = .identifier t ∧ f s = f t := by
  cases h with
  | same => exact ⟨s, rfl, rfl⟩
  | identifier hs => exact ⟨_, rfl, hs⟩

theorem exists_headerText? {s : String} (h : k.Resembles f k') (hk : headerText? k = some s) :
    ∃ t, headerText? k' = some t ∧ f s = f t := by
  cases h with
  | same => exact ⟨s, hk, rfl⟩
  | identifier hs | headerName hs =>
    obtain rfl := Option.some.inj hk
    exact ⟨_, rfl, hs⟩
  | uuid => cases hk

/-- The value of an id is the same, unless it is a uuid. -/
theorem exists_idText? {s : String} (h : k.Resembles f k') (hk : idText? k = some s) :
    ∃ t, idText? k' = some t ∧ (t = s ∨ k = .uuid s ∧ f s = f t) := by
  cases h with
  | same => exact ⟨s, hk, .inl rfl⟩
  | uuid hs =>
    obtain rfl := Option.some.inj hk
    exact ⟨_, rfl, .inr ⟨rfl, hs⟩⟩
  | _ => cases hk

theorem exists_methodText? {s : String} (h : k.Resembles f k') (hk : methodText? k = some s) :
    ∃ t, methodText? k' = some t ∧ f s = f t := by
  cases h with
  | same => exact ⟨s, hk, rfl⟩
  | identifier hs =>
    obtain rfl := Option.some.inj hk
    exact ⟨_, rfl, hs⟩
  | _ => cases hk

theorem textOp?_eq (h : k.Resembles f k') : textOp? k' = textOp? k := by
  cases h <;> rfl

end Kind.Resembles

theorem Token.Resembles.kind_eq {t u : Token} {k : Kind} (h : t.Resembles f P u) (ht : t.kind = k)
    (hk : k.carriesWord = false) : u.kind = k := by
  subst ht
  exact h.kind.eq hk

/-! ## Conditions -/

/-- Two tests, the first of which is read from some tokens, differ in nothing but a header name, an id
that is a uuid, and the mark. -/
inductive Test.Resembles (f : String → String) (P : Nat → Nat → Prop) (ts : List Token) :
    Test → Test → Prop
  | same {test : Test} : test.join? = none → Resembles f P ts test test
  | uuid {op : OrderOp} {v w : String} {t : Token} :
      t ∈ ts → t.kind = .uuid v → f v = f w → Resembles f P ts (.id op v) (.id op w)
  | header {side : Side} {mark mark' : Nat} {name name' : String} {wanted : HeaderMatch} :
      P mark mark' → f name = f name' →
      Resembles f P ts (.header side mark name wanted) (.header side mark' name' wanted)
  | raw {side : Side} {mark mark' : Nat} {text : String} :
      P mark mark' → Resembles f P ts (.raw side mark text) (.raw side mark' text)

theorem Test.Resembles.mono {ts us : List Token} {t u : Test} (h : t.Resembles f P ts u)
    (hts : ∀ t ∈ ts, t ∈ us) : t.Resembles f P us u := by
  cases h with
  | same hjoin => exact .same hjoin
  | uuid ht hk hword => exact .uuid (hts _ ht) hk hword
  | header hmark hword => exact .header hmark hword
  | raw hmark => exact .raw hmark

/-- Two conditions of one shape. Their tests, the first of each two read from its own tokens in a list,
differ in nothing but header names, uuids and marks. -/
inductive Condition.Resembles (f : String → String) (P : Nat → Nat → Prop) :
    List (List Token) → Condition → Condition → Prop
  | test {ts : List Token} {t u : Test} :
      t.Resembles f P ts u → Resembles f P [ts] (.test t) (.test u)
  | binary {op : Connective} {ls rs : List (List Token)} {l l' r r' : Condition} :
      Resembles f P ls l l' → Resembles f P rs r r' →
      Resembles f P (ls ++ rs) (.binary op l r) (.binary op l' r')
  | negation {ts : List (List Token)} {c c' : Condition} :
      Resembles f P ts c c' → Resembles f P ts (.negation c) (.negation c')

/-! ## Marks -/

/-- A test with another mark. -/
def Test.remark (ρ : Nat → Nat) : Test → Test
  | .header side mark name wanted => .header side (ρ mark) name wanted
  | .raw side mark text => .raw side (ρ mark) text
  | test => test

/-- A condition with other marks. -/
def Condition.remark (ρ : Nat → Nat) : Condition → Condition
  | .test t => .test (t.remark ρ)
  | .binary op l r => .binary op (l.remark ρ) (r.remark ρ)
  | .negation c => .negation (c.remark ρ)

theorem Test.remark_of_join?_eq_none {test : Test} (h : test.join? = none) (ρ : Nat → Nat) :
    test.remark ρ = test := by
  cases test with
  | header | raw => cases h
  | _ => rfl

theorem Condition.remark_id (c : Condition) : c.remark id = c := by
  induction c with
  | test t => cases t <;> rfl
  | binary op l r ihl ihr => rw [remark, ihl, ihr]
  | negation c ih => rw [remark, ih]

section
variable {ρ ρ' : Nat → Nat} (hf : Function.Injective f) (hρ : ∀ m m', P m m' → ρ' m' = ρ m)
include hf hρ

theorem Test.Resembles.remark_eq {ts : List Token} {t u : Test} (h : t.Resembles f P ts u) :
    u.remark ρ' = t.remark ρ := by
  cases h with
  | same hjoin => rw [remark_of_join?_eq_none hjoin, remark_of_join?_eq_none hjoin]
  | uuid _ _ hvalue => rw [hf hvalue]; rfl
  | header hmark hname => rw [remark, remark, hρ _ _ hmark, hf hname]
  | raw hmark => rw [remark, remark, hρ _ _ hmark]

/-- Conditions that differ in marks alone are the same with marks that two maps give in common. -/
theorem Condition.Resembles.remark_eq {groups : List (List Token)} {c c' : Condition}
    (h : c.Resembles f P groups c') : c'.remark ρ' = c.remark ρ := by
  induction h with
  | test ht => exact congrArg Condition.test (ht.remark_eq hf hρ)
  | binary _ _ ihl ihr => rw [remark, remark, ihl, ihr]
  | negation _ ih => rw [remark, remark, ih]

end

/-! ## Queries -/

theorem exists_of_forall₂_append {α β : Type} {R : α → β → Prop} {as as' : List α} {bs : List β}
    (h : List.Forall₂ R (as ++ as') bs) :
    ∃ cs ds, bs = cs ++ ds ∧ List.Forall₂ R as cs ∧ List.Forall₂ R as' ds := by
  induction as generalizing bs with
  | nil => exact ⟨[], bs, rfl, .nil, h⟩
  | cons a as ih =>
    rw [List.cons_append] at h
    obtain _ | ⟨hab, h⟩ := h
    obtain ⟨cs, ds, rfl, hcs, hds⟩ := ih h
    exact ⟨_ :: cs, ds, rfl, .cons hab hcs, hds⟩

namespace Grammar
variable {ts us : List Token} {field : Field} {mark mark' : Nat}

section
variable (hf : ∀ s t, f s = f t → Text.lower s = Text.lower t)
include hf

theorem IsName.of_resembles {t u : Token} {name : String} (h : IsName t name)
    (htu : t.Resembles f P u) : IsName u name := by
  obtain ⟨s, ht, hname⟩ := h
  have hkind := htu.kind
  rw [ht] at hkind
  obtain ⟨s', hu, hs⟩ := hkind.exists_identifier
  exact ⟨s', hu, (hf _ _ hs).symm.trans hname⟩

theorem Names.exists_resembling (h : Names field mark ts)
    (hts : List.Forall₂ (Token.Resembles f P) ts us) :
    ∃ mark', Names field mark' us ∧ P mark mark' := by
  cases h with
  | request hname hmem =>
    obtain _ | ⟨ht, ⟨⟩⟩ := hts
    exact ⟨_, .request (hname.of_resembles hf ht) hmem, ht.place⟩
  | response howner hmem hd hname hfield =>
    obtain _ | ⟨hr, _ | ⟨hd', _ | ⟨ht, ⟨⟩⟩⟩⟩ := hts
    exact ⟨_, .response (howner.of_resembles hf hr) hmem (hd'.kind_eq hd rfl)
      (hname.of_resembles hf ht) hfield, hr.place⟩

/-- Tokens that resemble those of a form make the same test of the field, but for a name and the mark. -/
theorem Form.exists_resembling {test : Test} (h : Form field mark ts test) (hmark : P mark mark')
    (hts : List.Forall₂ (Token.Resembles f P) ts us) :
    ∃ test', Form field mark' us test' ∧ test.Resembles f P ts test' := by
  cases h with
  | timestamp ho hd ha =>
    obtain _ | ⟨ho', _ | ⟨hd', _ | ⟨ha', ⟨⟩⟩⟩⟩ := hts
    exact ⟨_, .timestamp (ho'.kind_eq ho rfl) (hd'.kind_eq hd rfl) (ha'.kind_eq ha rfl), .same rfl⟩
  | id ho hv =>
    obtain _ | ⟨ho', _ | ⟨hv', ⟨⟩⟩⟩ := hts
    obtain ⟨text, htext, rfl | ⟨huuid, hword⟩⟩ := hv'.kind.exists_idText? hv
    · exact ⟨_, .id (ho'.kind_eq ho rfl) htext, .same rfl⟩
    · exact ⟨_, .id (ho'.kind_eq ho rfl) htext, .uuid (by simp) huuid hword⟩
  | method ho hv hm =>
    obtain _ | ⟨ho', _ | ⟨hv', ⟨⟩⟩⟩ := hts
    obtain ⟨text, htext, hword⟩ := hv'.kind.exists_methodText? hv
    have hupper := Text.upper_eq_of_lower_eq (hf _ _ hword)
    exact ⟨_, .method (ho'.kind_eq ho rfl) htext (hupper.symm.trans hm), .same rfl⟩
  | headerPresent hd hn ho =>
    obtain _ | ⟨hd', _ | ⟨hn', _ | ⟨ho', ⟨⟩⟩⟩⟩ := hts
    obtain ⟨name, hname, hword⟩ := hn'.kind.exists_headerText? hn
    exact ⟨_, .headerPresent (hd'.kind_eq hd rfl) hname (ho'.kind_eq ho rfl), .header hmark hword⟩
  | headerValue hd hn ho hv =>
    obtain _ | ⟨hd', _ | ⟨hn', _ | ⟨ho', _ | ⟨hv', ⟨⟩⟩⟩⟩⟩ := hts
    obtain ⟨name, hname, hword⟩ := hn'.kind.exists_headerText? hn
    exact ⟨_, .headerValue (hd'.kind_eq hd rfl) hname (ho'.kind.textOp?_eq.trans ho)
      (hv'.kind_eq hv rfl), .header hmark hword⟩
  | body ho hne hv =>
    obtain _ | ⟨ho', _ | ⟨hv', ⟨⟩⟩⟩ := hts
    exact ⟨_, .body (ho'.kind.textOp?_eq.trans ho) hne (hv'.kind_eq hv rfl), .same rfl⟩
  | path ho hv =>
    obtain _ | ⟨ho', _ | ⟨hv', ⟨⟩⟩⟩ := hts
    exact ⟨_, .path (ho'.kind.textOp?_eq.trans ho) (hv'.kind_eq hv rfl), .same rfl⟩
  | raw ho hv =>
    obtain _ | ⟨ho', _ | ⟨hv', ⟨⟩⟩⟩ := hts
    exact ⟨_, .raw (ho'.kind_eq ho rfl) (hv'.kind_eq hv rfl), .raw hmark⟩
  | status ho hv =>
    obtain _ | ⟨ho', _ | ⟨hv', ⟨⟩⟩⟩ := hts
    exact ⟨_, .status (ho'.kind_eq ho rfl) (hv'.kind_eq hv rfl), .same rfl⟩

theorem IsField.exists_resembling {test : Test} (h : IsField ts test)
    (hts : List.Forall₂ (Token.Resembles f P) ts us) :
    ∃ test', IsField us test' ∧ test.Resembles f P ts test' := by
  obtain ⟨field, mark, names, form, rfl, hnames, hform⟩ := h
  obtain ⟨names', form', rfl, hnk, hfk⟩ := exists_of_forall₂_append hts
  obtain ⟨mark', hnames', hmark⟩ := hnames.exists_resembling hf hnk
  obtain ⟨test', hform', htest⟩ := hform.exists_resembling hf hmark hfk
  exact ⟨test', ⟨field, mark', names', form', rfl, hnames', hform'⟩,
    htest.mono fun t ht => List.mem_append_right names ht⟩

/-- Tokens that resemble those of a phrase are one that stands for a condition of the same shape. -/
theorem Derives.exists_resembling {phrase : Phrase} {c : Condition} {depth : Nat}
    (h : Derives phrase ts c depth) (hts : List.Forall₂ (Token.Resembles f P) ts us) :
    ∃ c' fields, Derives phrase us c' depth ∧ Fields ts fields ∧ fields.map Prod.snd = c.tests ∧
      c.Resembles f P (fields.map Prod.fst) c' := by
  induction h generalizing us with
  | @field ts test hfield =>
    obtain ⟨test', hfield', htest⟩ := hfield.exists_resembling hf hts
    have hfields : Fields (ts ++ []) [(ts, test)] := .field hfield .nil
    rw [List.append_nil] at hfields
    exact ⟨_, _, .field hfield', hfields, rfl, .test htest⟩
  | negated hn _ ih =>
    obtain _ | ⟨hn', hts⟩ := hts
    obtain ⟨c', fields, h', hfields, htests, hc⟩ := ih hts
    exact ⟨_, fields, .negated (hn'.kind_eq hn rfl) h', .structural (by rw [hn]; rfl) hfields, htests,
      .negation hc⟩
  | group ho _ he ih =>
    obtain _ | ⟨ho', hts⟩ := hts
    obtain ⟨us, _, rfl, hus, hclosing⟩ := exists_of_forall₂_append hts
    obtain _ | ⟨he', ⟨⟩⟩ := hclosing
    obtain ⟨c', fields, h', hfields, htests, hc⟩ := ih hus
    have hend : Fields [_] [] := .structural (by rw [he]; rfl) .nil
    refine ⟨c', fields, .group (ho'.kind_eq ho rfl) h' (he'.kind_eq he rfl),
      .structural (by rw [ho]; rfl) ?_, htests, hc⟩
    rw [← List.append_nil fields]
    exact hfields.append hend
  | last _ ih =>
    obtain ⟨c', fields, h', hfields, htests, hc⟩ := ih hts
    exact ⟨c', fields, .last h', hfields, htests, hc⟩
  | link _ ht _ ih ihrest =>
    obtain ⟨us, _, rfl, hus, hrest⟩ := exists_of_forall₂_append hts
    obtain _ | ⟨ht', hrest⟩ := hrest
    obtain ⟨c', fields, h', hfields, htests, hc⟩ := ih hus
    obtain ⟨rest', more, hrest', hmore, hmoretests, hcrest⟩ := ihrest hrest
    refine ⟨_, fields ++ more, .link h' (ht'.kind_eq ht rfl) hrest',
      hfields.append (.structural (by rw [ht]; rfl) hmore), ?_, ?_⟩
    · rw [List.map_append, htests, hmoretests, Condition.tests]
    · rw [List.map_append]
      exact .binary hc hcrest

theorem IsQuery.exists_resembling {c : Condition} {depth : Nat} (h : IsQuery ts c depth)
    (hts : List.Forall₂ (Token.Resembles f P) ts us) :
    ∃ c' fields, IsQuery us c' depth ∧ Fields ts fields ∧ fields.map Prod.snd = c.tests ∧
      c.Resembles f P (fields.map Prod.fst) c' := by
  obtain ⟨q, r, w, vs, rfl, hq, hr, hw, h⟩ := h
  obtain _ | ⟨hq', _ | ⟨hr', _ | ⟨hw', hvs⟩⟩⟩ := hts
  obtain ⟨c', fields, h', hfields, htests, hc⟩ := h.exists_resembling hf hvs
  exact ⟨c', fields, ⟨_, _, _, _, rfl, hq'.kind_eq hq rfl, hr'.kind_eq hr rfl, hw'.kind_eq hw rfl, h'⟩,
    .structural (by rw [hq]; rfl) (.structural (by rw [hr]; rfl)
      (.structural (by rw [hw]; rfl) hfields)), htests, hc⟩

end
end Grammar
end TrafficQuery
