import TrafficQuery.Query.Clause
import TrafficQuery.Proofs.Query.Grammar

/-!
# Field conditions are read as they are formed

A reader takes some tokens to a value when it is done with exactly these. The reader of a field
takes the tokens behind the field's first word to a test if and only if they are, with that word, a
field condition that stands for the test.
-/

namespace TrafficQuery
open Grammar

namespace Reader
variable {α β : Type}

/-- The tokens are all that the reader takes before it is done with the value. -/
inductive Takes : Reader α → List Token → α → Prop
  | done {a : α} : Takes (.done a) [] a
  | next {expected : Expected} {take : Token → Reader α} {t : Token} {ts : List Token} {a : α} :
      Takes (take t) ts a → Takes (.next expected take) (t :: ts) a

@[simp] theorem takes_done_iff {a b : α} {ts : List Token} :
    Takes (.done a) ts b ↔ ts = [] ∧ b = a := by
  constructor
  · rintro ⟨⟩
    exact ⟨rfl, rfl⟩
  · rintro ⟨rfl, rfl⟩
    exact .done

@[simp] theorem not_takes_fail {e : ParseError} {ts : List Token} {a : α} :
    ¬Takes (.fail e) ts a := by
  rintro ⟨⟩

theorem takes_next_iff {expected : Expected} {take : Token → Reader α} {ts : List Token} {a : α} :
    Takes (.next expected take) ts a ↔ ∃ t us, ts = t :: us ∧ Takes (take t) us a := by
  constructor
  · rintro (_ | h)
    exact ⟨_, _, rfl, h⟩
  · rintro ⟨t, us, rfl, h⟩
    exact .next h

theorem takes_bind {r : Reader α} {f : α → Reader β} {us vs : List Token} {a : α} {b : β}
    (h : Takes r us a) (h' : Takes (f a) vs b) : Takes (r >>= f) (us ++ vs) b := by
  induction h with
  | done => exact h'
  | next _ ih => exact .next (ih h')

theorem exists_of_takes_bind {r : Reader α} {f : α → Reader β} {ts : List Token} {b : β}
    (h : Takes (r >>= f) ts b) :
    ∃ us vs a, ts = us ++ vs ∧ Takes r us a ∧ Takes (f a) vs b := by
  induction r generalizing ts with
  | done a => exact ⟨[], ts, a, rfl, .done, h⟩
  | fail e => exact absurd h not_takes_fail
  | next expected take ih =>
    obtain ⟨t, us, rfl, ht⟩ := takes_next_iff.mp h
    obtain ⟨us, vs, a, rfl, hr, hf⟩ := ih t ht
    exact ⟨t :: us, vs, a, rfl, .next hr, hf⟩

/-- Two readers in a row share the tokens among them. -/
theorem takes_bind_iff {r : Reader α} {f : α → Reader β} {ts : List Token} {b : β} :
    Takes (r >>= f) ts b ↔ ∃ us vs a, ts = us ++ vs ∧ Takes r us a ∧ Takes (f a) vs b := by
  constructor
  · exact exists_of_takes_bind
  · rintro ⟨us, vs, a, rfl, hr, hf⟩
    exact takes_bind hr hf

@[simp] theorem takes_pure_iff {a b : α} {ts : List Token} :
    Takes (pure a : Reader α) ts b ↔ ts = [] ∧ b = a :=
  takes_done_iff

/-! ## Single tokens -/

/-- A reader of one token in front of another reader. -/
theorem exists_singleton_append_iff {P : Token → α → Prop} {Q : List Token → α → Prop}
    {ts : List Token} :
    (∃ us vs a, ts = us ++ vs ∧ (∃ t, us = [t] ∧ P t a) ∧ Q vs a) ↔
      ∃ t vs a, ts = t :: vs ∧ P t a ∧ Q vs a := by
  constructor
  · rintro ⟨_, vs, a, rfl, ⟨t, rfl, hp⟩, hq⟩
    exact ⟨t, vs, a, rfl, hp, hq⟩
  · rintro ⟨t, vs, a, rfl, hp, hq⟩
    exact ⟨[t], vs, a, rfl, ⟨t, rfl, hp⟩, hq⟩

theorem takes_want_iff {expected : Expected} {accept : Kind → Option α} {ts : List Token} {a : α} :
    Takes (want expected accept) ts a ↔ ∃ t, ts = [t] ∧ accept t.kind = some a := by
  rw [want, takes_next_iff]
  constructor
  · rintro ⟨t, us, rfl, h⟩
    cases ha : accept t.kind with
    | none => simp [ha] at h
    | some b =>
      obtain ⟨rfl, rfl⟩ : us = [] ∧ a = b := by simpa [ha] using h
      exact ⟨t, rfl, ha⟩
  · rintro ⟨t, rfl, h⟩
    exact ⟨t, [], rfl, by simp [h]⟩

theorem takes_expect_iff {kind : Kind} {ts : List Token} {u : Unit} :
    Takes (expect kind) ts u ↔ ∃ t, ts = [t] ∧ t.kind = kind := by
  simp [expect, takes_want_iff]

theorem takes_operator_iff {field : Field} {meaning : FieldOp → Option α} {ts : List Token}
    {a : α} : Takes (operator field meaning) ts a ↔
      ∃ t, ts = [t] ∧ (FieldOp.ofKind? t.kind).bind meaning = some a := by
  rw [operator, takes_next_iff]
  constructor
  · rintro ⟨t, us, rfl, h⟩
    cases hk : FieldOp.ofKind? t.kind with
    | none => simp [hk] at h
    | some op =>
      cases ha : meaning op with
      | none => simp [hk, ha] at h
      | some b =>
        obtain ⟨rfl, rfl⟩ : us = [] ∧ a = b := by simpa [hk, ha] using h
        exact ⟨t, rfl, by simp [hk, ha]⟩
  · rintro ⟨t, rfl, h⟩
    obtain ⟨op, hk, ha⟩ := Option.bind_eq_some_iff.mp h
    exact ⟨t, [], rfl, by simp [hk, ha]⟩

theorem takes_string_iff {ts : List Token} {text : String} :
    Takes string ts text ↔ ∃ t, ts = [t] ∧ t.kind = .string text := by
  rw [string, takes_want_iff]
  refine exists_congr fun t => and_congr_right fun _ => ?_
  cases t.kind <;> simp

theorem takes_number_iff {ts : List Token} {value : Int} :
    Takes number ts value ↔ ∃ t, ts = [t] ∧ t.kind = .number value := by
  rw [number, takes_want_iff]
  refine exists_congr fun t => and_congr_right fun _ => ?_
  cases t.kind <;> simp

theorem takes_duration_iff {ts : List Token} {seconds : Nat} :
    Takes duration ts seconds ↔ ∃ t, ts = [t] ∧ t.kind = .duration seconds := by
  rw [duration, takes_want_iff]
  refine exists_congr fun t => and_congr_right fun _ => ?_
  cases t.kind <;> simp

theorem takes_headerName_iff {ts : List Token} {name : String} :
    Takes headerName ts name ↔ ∃ t, ts = [t] ∧ headerText? t.kind = some name := by
  rw [headerName, takes_want_iff]
  refine exists_congr fun t => and_congr_right fun _ => ?_
  cases t.kind <;> simp [headerText?]

theorem takes_idValue_iff {ts : List Token} {text : String} :
    Takes idValue ts text ↔ ∃ t, ts = [t] ∧ idText? t.kind = some text := by
  rw [idValue, takes_next_iff]
  constructor
  · rintro ⟨t, us, rfl, h⟩
    refine ⟨t, ?_⟩
    cases hk : t.kind <;> simp_all [idText?]
  · rintro ⟨t, rfl, h⟩
    refine ⟨t, [], rfl, ?_⟩
    cases hk : t.kind <;> simp_all [idText?]

theorem ofText?_eq_some_iff {text : String} {m : Method} :
    Method.ofText? text = some m ↔ Text.upper text = m.word := by
  constructor
  · intro h
    have hw := List.find?_some h
    exact (eq_of_beq hw).symm
  · intro h
    rw [Method.ofText?, h]
    cases m <;> decide

theorem takes_methodValue_iff {ts : List Token} {m : Method} :
    Takes methodValue ts m ↔
      ∃ t text, ts = [t] ∧ methodText? t.kind = some text ∧ Text.upper text = m.word := by
  simp only [← ofText?_eq_some_iff]
  rw [methodValue, takes_next_iff]
  constructor
  · rintro ⟨t, us, rfl, h⟩
    cases hk : t.kind with
    | identifier s | string s =>
      cases hm : Method.ofText? s with
      | none => simp [hk, hm] at h
      | some m' =>
        obtain ⟨rfl, rfl⟩ : us = [] ∧ m = m' := by simpa [hk, hm] using h
        exact ⟨t, s, rfl, by simp [hk, methodText?], hm⟩
    | _ => simp [hk] at h
  · rintro ⟨t, text, rfl, ht, hm⟩
    refine ⟨t, [], rfl, ?_⟩
    cases hk : t.kind <;> simp_all [methodText?]

/-! ## Operators -/

theorem bind_order?_eq_some_iff {k : Kind} {op : OrderOp} :
    (FieldOp.ofKind? k).bind FieldOp.order? = some op ↔ k = .order op := by
  cases k <;> simp [FieldOp.ofKind?, FieldOp.order?]

theorem bind_equality?_eq_some_iff {k : Kind} {u : Unit} :
    (FieldOp.ofKind? k).bind FieldOp.equality? = some u ↔ k = .order .eq := by
  cases k with
  | order op => cases op <;> simp [FieldOp.ofKind?, FieldOp.equality?]
  | _ => simp [FieldOp.ofKind?, FieldOp.equality?]

theorem bind_containment?_eq_some_iff {k : Kind} {u : Unit} :
    (FieldOp.ofKind? k).bind FieldOp.containment? = some u ↔ k = .contains := by
  cases k <;> simp [FieldOp.ofKind?, FieldOp.containment?]

theorem bind_textOp? (k : Kind) : (FieldOp.ofKind? k).bind FieldOp.textOp? = textOp? k := by
  cases k with
  | order op => cases op <;> rfl
  | _ => rfl

theorem bind_bodyOp?_eq_some_iff {k : Kind} {op : TextOp} :
    (FieldOp.ofKind? k).bind FieldOp.bodyOp? = some op ↔ textOp? k = some op ∧ op ≠ .equals := by
  cases k with
  | order o => cases o <;> cases op <;> simp [FieldOp.ofKind?, FieldOp.bodyOp?, textOp?]
  | _ => cases op <;> simp [FieldOp.ofKind?, FieldOp.bodyOp?, textOp?]

theorem bind_headerOp?_eq_some_iff {k : Kind} {wanted : Option TextOp} :
    (FieldOp.ofKind? k).bind FieldOp.headerOp? = some wanted ↔
      (k = .present ∧ wanted = none) ∨ ∃ op, textOp? k = some op ∧ wanted = some op := by
  cases k with
  | order o => cases o <;>
      simp [FieldOp.ofKind?, FieldOp.headerOp?, FieldOp.textOp?, textOp?, eq_comm]
  | _ => simp [FieldOp.ofKind?, FieldOp.headerOp?, FieldOp.textOp?, textOp?, eq_comm]

/-! ## Forms -/

variable {mark : Nat} {side : Side} {ts : List Token} {test : Test}

theorem takes_timestamp_iff : Takes timestamp ts test ↔ Form .timestamp mark ts test := by
  simp only [timestamp, takes_bind_iff, takes_operator_iff, takes_duration_iff, takes_expect_iff,
    takes_pure_iff, bind_order?_eq_some_iff, exists_singleton_append_iff]
  constructor
  · rintro ⟨o, _, op, rfl, ho, d, _, n, rfl, hd, a, _, _, rfl, ha, rfl, rfl⟩
    exact .timestamp ho hd ha
  · intro h
    cases h with
    | timestamp ho hd ha =>
      exact ⟨_, _, _, rfl, ho, _, _, _, rfl, hd, _, _, (), rfl, ha, rfl, rfl⟩

theorem takes_id_iff : Takes id ts test ↔ Form .id mark ts test := by
  simp only [id, takes_bind_iff, takes_operator_iff, takes_idValue_iff, takes_pure_iff,
    bind_equality?_eq_some_iff, exists_singleton_append_iff]
  constructor
  · rintro ⟨o, _, _, rfl, ho, v, _, text, rfl, hv, rfl, rfl⟩
    exact .id ho hv
  · intro h
    cases h with
    | id ho hv => exact ⟨_, _, (), rfl, ho, _, _, _, rfl, hv, rfl, rfl⟩

theorem takes_method_iff : Takes method ts test ↔ Form .method mark ts test := by
  simp only [method, takes_bind_iff, takes_operator_iff, takes_methodValue_iff, takes_pure_iff,
    bind_equality?_eq_some_iff, exists_singleton_append_iff]
  constructor
  · rintro ⟨o, _, _, rfl, ho, _, _, m, rfl, ⟨v, text, rfl, hv, hm⟩, rfl, rfl⟩
    exact .method ho hv hm
  · intro h
    cases h with
    | method ho hv hm =>
      exact ⟨_, _, (), rfl, ho, _, _, _, rfl, ⟨_, _, rfl, hv, hm⟩, rfl, rfl⟩

theorem takes_body_iff : Takes (body side) ts test ↔ Form (.body side) mark ts test := by
  simp only [body, takes_bind_iff, takes_operator_iff, takes_string_iff, takes_pure_iff,
    bind_bodyOp?_eq_some_iff, exists_singleton_append_iff]
  constructor
  · rintro ⟨o, _, op, rfl, ⟨ho, hne⟩, v, _, text, rfl, hv, rfl, rfl⟩
    exact .body ho hne hv
  · intro h
    cases h with
    | body ho hne hv => exact ⟨_, _, _, rfl, ⟨ho, hne⟩, _, _, _, rfl, hv, rfl, rfl⟩

theorem takes_path_iff : Takes path ts test ↔ Form .path mark ts test := by
  simp only [path, takes_bind_iff, takes_operator_iff, takes_string_iff, takes_pure_iff,
    bind_textOp?, exists_singleton_append_iff]
  constructor
  · rintro ⟨o, _, op, rfl, ho, v, _, text, rfl, hv, rfl, rfl⟩
    exact .path ho hv
  · intro h
    cases h with
    | path ho hv => exact ⟨_, _, _, rfl, ho, _, _, _, rfl, hv, rfl, rfl⟩

theorem takes_raw_iff : Takes (raw side mark) ts test ↔ Form (.raw side) mark ts test := by
  simp only [raw, takes_bind_iff, takes_operator_iff, takes_string_iff, takes_pure_iff,
    bind_containment?_eq_some_iff, exists_singleton_append_iff]
  constructor
  · rintro ⟨o, _, _, rfl, ho, v, _, text, rfl, hv, rfl, rfl⟩
    exact .raw ho hv
  · intro h
    cases h with
    | raw ho hv => exact ⟨_, _, (), rfl, ho, _, _, _, rfl, hv, rfl, rfl⟩

theorem takes_status_iff : Takes status ts test ↔ Form .status mark ts test := by
  simp only [status, takes_bind_iff, takes_operator_iff, takes_number_iff, takes_pure_iff,
    bind_order?_eq_some_iff, exists_singleton_append_iff]
  constructor
  · rintro ⟨o, _, op, rfl, ho, v, _, n, rfl, hv, rfl, rfl⟩
    exact .status ho hv
  · intro h
    cases h with
    | status ho hv => exact ⟨_, _, _, rfl, ho, _, _, _, rfl, hv, rfl, rfl⟩

theorem takes_headerMatch_iff {wanted : HeaderMatch} :
    Takes (headerMatch side) ts wanted ↔
      (∃ o, ts = [o] ∧ o.kind = .present ∧ wanted = .present) ∨
      ∃ o v op text, ts = [o, v] ∧ textOp? o.kind = some op ∧ v.kind = .string text ∧
        wanted = .value op text := by
  simp only [headerMatch, takes_bind_iff, takes_operator_iff, bind_headerOp?_eq_some_iff,
    exists_singleton_append_iff]
  constructor
  · rintro ⟨o, us, _, rfl, ⟨ho, rfl⟩ | ⟨op, ho, rfl⟩, h⟩
    · obtain ⟨rfl, rfl⟩ := takes_pure_iff.mp h
      exact .inl ⟨o, rfl, ho, rfl⟩
    · simp only [takes_bind_iff, takes_string_iff, takes_pure_iff,
        exists_singleton_append_iff] at h
      obtain ⟨v, _, text, rfl, hv, rfl, rfl⟩ := h
      exact .inr ⟨o, v, op, text, rfl, ho, hv, rfl⟩
  · rintro (⟨o, rfl, ho, rfl⟩ | ⟨o, v, op, text, rfl, ho, hv, rfl⟩)
    · exact ⟨o, [], none, rfl, .inl ⟨ho, rfl⟩, takes_pure_iff.mpr ⟨rfl, rfl⟩⟩
    · refine ⟨o, [v], some op, rfl, .inr ⟨op, ho, rfl⟩, ?_⟩
      simp only [takes_bind_iff, takes_string_iff, takes_pure_iff, exists_singleton_append_iff]
      exact ⟨v, [], text, rfl, hv, rfl, rfl⟩

theorem takes_header_iff : Takes (header side mark) ts test ↔ Form (.header side) mark ts test := by
  simp only [header, takes_bind_iff, takes_expect_iff, takes_headerName_iff,
    takes_headerMatch_iff, takes_pure_iff, exists_singleton_append_iff]
  constructor
  · rintro ⟨d, _, _, rfl, hd, n, _, name, rfl, hn, us, _, wanted, rfl, hm, rfl, rfl⟩
    rcases hm with ⟨o, rfl, ho, rfl⟩ | ⟨o, v, op, text, rfl, ho, hv, rfl⟩
    · exact .headerPresent hd hn ho
    · exact .headerValue hd hn ho hv
  · intro h
    cases h with
    | headerPresent hd hn ho =>
      exact ⟨_, _, (), rfl, hd, _, _, _, rfl, hn, _, _, _, rfl, .inl ⟨_, rfl, ho, rfl⟩, rfl, rfl⟩
    | headerValue hd hn ho hv =>
      exact ⟨_, _, (), rfl, hd, _, _, _, rfl, hn, _, _, _, rfl,
        .inr ⟨_, _, _, _, rfl, ho, hv, rfl⟩, rfl, rfl⟩

/-! ## Fields -/

/-- What a response field's reader takes is the name of the field with one of its forms. -/
theorem takes_responseField_iff :
    Takes (responseField mark) ts test ↔
      ∃ f name field us, ts = f :: us ∧ IsName f name ∧ (name, field) ∈ responseFields ∧
        Form field mark us test := by
  rw [responseField, takes_next_iff]
  constructor
  · rintro ⟨f, us, rfl, h⟩
    cases hk : f.kind with
    | identifier text =>
      simp only [hk] at h
      split at h
      case h_1 hn => exact ⟨f, _, _, us, rfl, ⟨text, hk, hn⟩, by decide, takes_status_iff.mp h⟩
      case h_2 hn => exact ⟨f, _, _, us, rfl, ⟨text, hk, hn⟩, by decide, takes_header_iff.mp h⟩
      case h_3 hn => exact ⟨f, _, _, us, rfl, ⟨text, hk, hn⟩, by decide, takes_body_iff.mp h⟩
      case h_4 hn => exact ⟨f, _, _, us, rfl, ⟨text, hk, hn⟩, by decide, takes_raw_iff.mp h⟩
      case h_5 => exact absurd h not_takes_fail
    | _ => simp [hk] at h
  · rintro ⟨f, name, field, us, rfl, ⟨text, hk, hn⟩, hf, hform⟩
    refine ⟨f, us, rfl, ?_⟩
    simp only [hk, hn]
    simp only [responseFields, List.mem_cons, Prod.mk.injEq, List.not_mem_nil, or_false] at hf
    rcases hf with ⟨rfl, rfl⟩ | ⟨rfl, rfl⟩ | ⟨rfl, rfl⟩ | ⟨rfl, rfl⟩
    · exact takes_status_iff.mpr hform
    · exact takes_header_iff.mpr hform
    · exact takes_body_iff.mpr hform
    · exact takes_raw_iff.mpr hform

theorem takes_response_iff :
    Takes (response mark) ts test ↔
      ∃ d f name field us, ts = d :: f :: us ∧ d.kind = .dot ∧ IsName f name ∧
        (name, field) ∈ responseFields ∧ Form field mark us test := by
  simp only [response, takes_bind_iff, takes_expect_iff, takes_responseField_iff,
    exists_singleton_append_iff]
  constructor
  · rintro ⟨d, _, _, rfl, hd, f, name, field, us, rfl, hn, hf, hform⟩
    exact ⟨d, f, name, field, us, rfl, hd, hn, hf, hform⟩
  · rintro ⟨d, f, name, field, us, rfl, hd, hn, hf, hform⟩
    exact ⟨d, _, (), rfl, hd, f, name, field, us, rfl, hn, hf, hform⟩

theorem takes_field_of_request {f : Token} {text name : String} {field : Field}
    (hn : Text.lower text = name) (hf : (name, field) ∈ requestFields)
    (h : Form field f.start ts test) : Takes (Reader.field text f.start) ts test := by
  simp only [requestFields, List.mem_cons, Prod.mk.injEq, List.not_mem_nil, or_false] at hf
  simp only [Reader.field, hn]
  rcases hf with ⟨rfl, rfl⟩ | ⟨rfl, rfl⟩ | ⟨rfl, rfl⟩ | ⟨rfl, rfl⟩ | ⟨rfl, rfl⟩ | ⟨rfl, rfl⟩ |
    ⟨rfl, rfl⟩
  · exact takes_timestamp_iff.mpr h
  · exact takes_id_iff.mpr h
  · exact takes_method_iff.mpr h
  · exact takes_header_iff.mpr h
  · exact takes_body_iff.mpr h
  · exact takes_path_iff.mpr h
  · exact takes_raw_iff.mpr h

theorem takes_field_of_response {f : Token} {text owner : String}
    (hn : Text.lower text = owner) (ho : owner ∈ ["resp", "response"])
    (h : Takes (response f.start) ts test) : Takes (Reader.field text f.start) ts test := by
  simp only [List.mem_cons, List.not_mem_nil, or_false] at ho
  simp only [Reader.field, hn]
  rcases ho with rfl | rfl <;> exact h

/-- The reader of a field takes the tokens that form a field condition with the field's first word. -/
theorem takes_field_iff {f : Token} {text : String} (hk : f.kind = .identifier text) :
    Takes (Reader.field text f.start) ts test ↔ IsField (f :: ts) test := by
  have request {name : String} {field : Field} (hn : Text.lower text = name)
      (hf : (name, field) ∈ requestFields) (h : Form field f.start ts test) :
      IsField (f :: ts) test :=
    ⟨field, f.start, [f], ts, rfl, .request ⟨text, hk, hn⟩ hf, h⟩
  have response {owner : String} (hn : Text.lower text = owner) (ho : owner ∈ ["resp", "response"])
      (h : Takes (response f.start) ts test) : IsField (f :: ts) test := by
    obtain ⟨d, g, name, field, us, rfl, hd, hg, hf, hform⟩ := takes_response_iff.mp h
    exact ⟨field, f.start, [f, d, g], us, rfl, .response ⟨text, hk, hn⟩ ho hd hg hf, hform⟩
  constructor
  · intro h
    unfold Reader.field at h
    split at h
    case h_1 hn => exact request hn (by decide) (takes_timestamp_iff.mp h)
    case h_2 hn => exact request hn (by decide) (takes_id_iff.mp h)
    case h_3 hn => exact request hn (by decide) (takes_method_iff.mp h)
    case h_4 hn => exact request hn (by decide) (takes_header_iff.mp h)
    case h_5 hn => exact request hn (by decide) (takes_body_iff.mp h)
    case h_6 hn => exact request hn (by decide) (takes_path_iff.mp h)
    case h_7 hn => exact request hn (by decide) (takes_raw_iff.mp h)
    case h_8 hn => exact response hn (by decide) h
    case h_9 hn => exact response hn (by decide) h
    case h_10 => exact absurd h not_takes_fail
  · rintro ⟨field, mark, us, vs, hts, hnames, hform⟩
    cases hnames with
    | request hname hf =>
      obtain ⟨rfl, rfl⟩ := List.cons.inj hts
      obtain ⟨text', hk', hn⟩ := hname
      obtain rfl : text = text' := Kind.identifier.inj (hk.symm.trans hk')
      exact takes_field_of_request hn hf hform
    | response howner ho hd hname hf =>
      obtain ⟨rfl, rfl⟩ := List.cons.inj hts
      obtain ⟨text', hk', hn⟩ := howner
      obtain rfl : text = text' := Kind.identifier.inj (hk.symm.trans hk')
      exact takes_field_of_response hn ho
        (takes_response_iff.mpr ⟨_, _, _, _, _, rfl, hd, hname, hf, hform⟩)

end Reader
end TrafficQuery
