import TrafficQuery.Proofs.Token.Places

/-!
# Calls on a source

Calls on a source see the tokens of its one scan, in whatever order they are made. The cursor stands at
the start, at the end, or behind a token; a call gives the first item from there on, and takes it or
leaves everything as it was.
-/

namespace TrafficQuery
open Text

/-! ## What a call does -/

/-- Calls that take an item or fail. -/
def Call.takes : Call → Bool
  | .next | .expect _ | .expectOneOf _ | .take _ | .takeMatching .. => true
  | _ => false

theorem Call.cases (c : Call) : c.takes = true ∨ c = .peek ∨ c = .walk ∨
    (∃ name, c = .save name) ∨ ∃ name, c = .restore name := by
  cases c <;> simp [takes]

/-- The answer of a call that takes an item, if it takes such an item. -/
def Call.answer? : Call → Item → Option Answer
  | .next, item => some (.item item)
  | .expect kind, item => if item.kind? = kind then some (.item item) else none
  | .expectOneOf kinds, item => if item.kind? ∈ kinds then some (.item item) else none
  | .take literal, item => item.kind?.bind literal.value?
  | .takeMatching _ accept, item =>
    if accept item.kind? then some (.text (describe item.kind?)) else none
  | _, _ => none

/-- What a walk gives for an item: a token, or nothing any more. -/
def Item.walked : Item → Answer
  | .token t => .item (.token t)
  | .endOfInput _ => .finished

namespace Session
variable {s s' : Session} {item : Item}

theorem next_eq_ok_iff : s.next = (.ok item, s') ↔
    ∃ d, s.cursor.read = .ok (item, d) ∧ s' = { s with cursor := d } := by
  unfold next
  rcases s.cursor.read with e | ⟨item', d⟩
  · simp
  · constructor
    · rintro ⟨⟩
      exact ⟨d, rfl, rfl⟩
    · rintro ⟨_, ⟨⟩, rfl⟩
      rfl

/-- Where no item can be read, nothing moves. -/
theorem next_cases (s : Session) :
    (∃ item s', s.next = (.ok item, s')) ∨ ∃ e, s.next = (.error e, s) := by
  unfold next
  rcases s.cursor.read with e | ⟨item, d⟩
  · exact .inr ⟨_, rfl⟩
  · exact .inl ⟨_, _, rfl⟩

theorem fst_next (s : Session) :
    s.next.1 = (s.cursor.read.mapError LexError.toParseError).map Prod.fst := by
  unfold next
  cases s.cursor.read <;> rfl

/-- To go back undoes the reading of an item. -/
theorem restored_of_next (h : s.next = (.ok item, s')) : { s' with cursor := s.cursor } = s := by
  obtain ⟨d, -, rfl⟩ := next_eq_ok_iff.mp h
  rfl

/-- Of a session the next item is taken if it is accepted. Otherwise there is an error, and the session is
as it was. -/
def TakesNext {α : Type} (s : Session) (accept : Item → Option α)
    (x : Except ParseError α × Session) : Prop :=
  (∃ item s' a, s.next = (.ok item, s') ∧ accept item = some a ∧ x = (.ok a, s')) ∨
  (∃ e, x = (.error e, s)) ∧ ∀ item s', s.next = (.ok item, s') → accept item = none

section
variable {α : Type} {accept : Item → Option α}

theorem takesNext_next (s : Session) : s.TakesNext some s.next := by
  rcases s.next_cases with ⟨item, s', h⟩ | ⟨e, h⟩
  · exact .inl ⟨item, s', item, h, rfl, h⟩
  · refine .inr ⟨⟨e, h⟩, fun item s' hnext => ?_⟩
    cases h.symm.trans hnext

theorem takesNext_takeItem (expected : Expected) (accept : Item → Option α) (s : Session) :
    s.TakesNext accept (takeItem expected accept s) := by
  unfold takeItem
  rcases s.next_cases with ⟨item, s', hnext⟩ | ⟨e, hnext⟩
  · rw [hnext]
    cases haccept : accept item with
    | some a => exact .inl ⟨item, s', a, hnext, haccept, by simp only [haccept]⟩
    | none =>
      refine .inr ⟨⟨unexpected expected item, ?_⟩, fun item' s'' hnext' => ?_⟩
      · simp only [haccept, restored_of_next hnext]
      · cases hnext.symm.trans hnext'
        exact haccept
  · rw [hnext]
    refine .inr ⟨⟨e, rfl⟩, fun item s' hnext' => ?_⟩
    cases hnext.symm.trans hnext'

/-- A kind that does not fit leaves the session to the next one as it found it. -/
theorem takesNext_expectOneOf (kinds : List (Option Kind)) (s : Session) :
    s.TakesNext (fun item => if item.kind? ∈ kinds then some item else none)
      (expectOneOf kinds s) := by
  induction kinds with
  | nil => exact .inr ⟨⟨_, rfl⟩, fun _ _ _ => if_neg List.not_mem_nil⟩
  | cons kind kinds ih =>
    have hkind : s.TakesNext _ (s.expect kind) := takesNext_takeItem _ _ s
    cases kinds with
    | nil => simpa [expectOneOf] using hkind
    | cons kind' kinds =>
      rw [expectOneOf]
      · rcases hkind with ⟨item, s', a, hnext, haccept, hexpect⟩ | ⟨⟨e, hexpect⟩, hnone⟩
        · obtain ⟨rfl, heq⟩ := Option.ite_none_right_eq_some.mp haccept
          obtain rfl := Option.some.inj heq
          exact .inl ⟨item, s', item, hnext, if_pos List.mem_cons_self, by rw [hexpect]⟩
        · rw [hexpect]
          rcases ih with ⟨item, s', a, hnext, haccept, hothers⟩ | ⟨hothers, hnone'⟩
          · obtain ⟨hmem, heq⟩ := Option.ite_none_right_eq_some.mp haccept
            have hlater : item.kind? ∈ kind :: kind' :: kinds := List.mem_cons_of_mem _ hmem
            exact .inl ⟨item, s', a, hnext, (if_pos hlater).trans heq, hothers⟩
          · refine .inr ⟨hothers, fun item s' hnext => if_neg ?_⟩
            have hne : item.kind? ≠ kind := by simpa using hnone item s' hnext
            have hnot : item.kind? ∉ kind' :: kinds := by simpa using hnone' item s' hnext
            exact fun hmem => (List.mem_cons.mp hmem).elim hne hnot
      · exact List.cons_ne_nil _ _

theorem TakesNext.of_accept_eq {accept' : Item → Option α} {x : Except ParseError α × Session}
    (h : s.TakesNext accept x) (heq : ∀ item, accept item = accept' item) : s.TakesNext accept' x :=
  (funext heq : accept = accept') ▸ h

theorem TakesNext.answering {x : Except ParseError α × Session} (h : s.TakesNext accept x)
    (answer : α → Answer) :
    s.TakesNext (fun item => (accept item).map answer) (answering answer x) := by
  rcases h with ⟨item, s', a, hnext, haccept, rfl⟩ | ⟨⟨e, rfl⟩, hnone⟩
  · exact .inl ⟨item, s', answer a, hnext, congrArg (Option.map answer) haccept, rfl⟩
  · refine .inr ⟨⟨e, rfl⟩, fun item s' hnext => ?_⟩
    exact congrArg (Option.map answer) (hnone item s' hnext)

end

/-- A taking call takes the item at the cursor if it fits, and otherwise leaves the session as it was. -/
theorem takesNext_call {c : Call} (hc : c.takes = true) : s.TakesNext c.answer? (s.call c) := by
  cases c with
  | peek | walk | save | restore => cases hc
  | next => exact s.takesNext_next.answering .item
  | expect kind =>
    refine ((takesNext_takeItem _ _ s).answering .item).of_accept_eq fun item => ?_
    simp only [Call.answer?]
    split <;> rfl
  | expectOneOf kinds =>
    refine ((takesNext_expectOneOf kinds s).answering .item).of_accept_eq fun item => ?_
    simp only [Call.answer?]
    split <;> rfl
  | take literal =>
    refine ((takesNext_takeItem _ _ s).answering id).of_accept_eq fun item => ?_
    simp only [Call.answer?]
    cases item.kind?.bind literal.value? <;> rfl
  | takeMatching expected accept =>
    refine ((takesNext_takeItem _ _ s).answering .text).of_accept_eq fun item => ?_
    simp only [Call.answer?]
    split <;> rfl

/-- A walk gives a token and goes behind it, or it is finished, at the end of the input or at an error. -/
theorem walk_cases (s : Session) :
    (s.finished = true ∧ s.call .walk = (.ok .finished, s)) ∨
    (∃ t s', s.finished = false ∧ s.next = (.ok (.token t), s') ∧
      s.call .walk = (.ok (.item (.token t)), s')) ∨
    (∃ n s', s.finished = false ∧ s.next = (.ok (.endOfInput n), s') ∧
      s.call .walk = (.ok .finished, { s' with finished := true })) ∨
    ∃ e, s.finished = false ∧ s.next = (.error e, s) ∧
      s.call .walk = (.error e, { s with finished := true }) := by
  rw [call, walk]
  cases s.finished with
  | true => exact .inl ⟨rfl, rfl⟩
  | false =>
    rcases s.next_cases with ⟨_ | _, s', h⟩ | ⟨e, h⟩ <;> rw [h]
    · exact .inr (.inl ⟨_, s', rfl, rfl, rfl⟩)
    · exact .inr (.inr (.inl ⟨_, s', rfl, rfl, rfl⟩))
    · exact .inr (.inr (.inr ⟨e, rfl, rfl, rfl⟩))

/-! ## Sequences of calls -/

/-- The session after a sequence of calls. -/
def after (s : Session) (calls : List Call) : Session :=
  ((s.run calls).getLast?.map Prod.snd).getD s

theorem after_cons (s : Session) (c : Call) (cs : List Call) :
    s.after (c :: cs) = (s.call c).2.after cs := by
  rw [after, run, List.getLast?_cons]
  cases h : (run (s.call c).2 cs).getLast? <;> simp only [after, h] <;> rfl

theorem after_append (s : Session) (cs ds : List Call) :
    s.after (cs ++ ds) = (s.after cs).after ds := by
  induction cs generalizing s with
  | nil => rfl
  | cons c cs ih => rw [List.cons_append, after_cons, after_cons, ih]

/-- The answers to a sequence of calls. -/
def answers (s : Session) (calls : List Call) : List (Except ParseError Answer) :=
  (s.run calls).map Prod.fst

/-- What every call keeps, every sequence of calls keeps. -/
theorem after_preserves {P : Session → Prop} (hP : ∀ s c, P s → P (s.call c).2) (h : P s)
    (calls : List Call) : P (s.after calls) := by
  induction calls generalizing s with
  | nil => exact h
  | cons c cs ih =>
    rw [after_cons]
    exact ih (hP s c h)

/-! ### Where the cursors stand -/

/-- The cursor of a session and the saved ones stand on the scan. -/
structure OnScan (source : String) (s : Session) : Prop where
  cursor : TrafficQuery.OnScan source s.cursor
  saved : ∀ p ∈ s.saved, TrafficQuery.OnScan source p.2

section
variable {source : String}

theorem OnScan.start (source : String) : OnScan source (.start source) :=
  ⟨.start source, fun _ hp => absurd hp List.not_mem_nil⟩

theorem OnScan.itemFrom_eq (h : OnScan source s) :
    (scan source).itemFrom s.cursor.offset = s.next.1 :=
  h.cursor.itemFrom_eq.trans s.fst_next.symm

theorem OnScan.of_next (h : OnScan source s) (hnext : s.next = (.ok item, s')) :
    OnScan source s' ∧ s'.cursor.offset = item.stop ∧ s'.finished = s.finished := by
  obtain ⟨d, hread, rfl⟩ := next_eq_ok_iff.mp hnext
  obtain ⟨hd, hoffset⟩ := h.cursor.of_read hread
  exact ⟨⟨hd, h.saved⟩, hoffset, rfl⟩

theorem OnScan.call (h : OnScan source s) (c : Call) : OnScan source (s.call c).2 := by
  rcases c.cases with hc | rfl | rfl | ⟨name, rfl⟩ | ⟨name, rfl⟩
  · rcases takesNext_call hc with ⟨item, s', a, hnext, -, hcall⟩ | ⟨⟨e, hcall⟩, -⟩ <;> rw [hcall]
    · exact (h.of_next hnext).1
    · exact h
  · exact h
  · rcases s.walk_cases with ⟨-, hwalk⟩ | ⟨t, s', -, hnext, hwalk⟩ | ⟨n, s', -, hnext, hwalk⟩ |
      ⟨e, -, -, hwalk⟩ <;> rw [hwalk]
    · exact h
    · exact (h.of_next hnext).1
    · exact ⟨(h.of_next hnext).1.cursor, (h.of_next hnext).1.saved⟩
    · exact ⟨h.cursor, h.saved⟩
  · exact ⟨h.cursor, List.forall_mem_cons.mpr ⟨h.cursor, h.saved⟩⟩
  · refine ⟨?_, h.saved⟩
    change TrafficQuery.OnScan source ((s.saved.lookup name).getD s.cursor)
    cases hlookup : s.saved.lookup name with
    | none => exact h.cursor
    | some c =>
      obtain ⟨l, r, hsaved, -⟩ := List.lookup_eq_some_iff.mp hlookup
      exact h.saved (name, c) (hsaved ▸ List.mem_append_right _ List.mem_cons_self)

end

/-! ### What calls keep -/

/-- The same place in a session with another past. -/
def withPast (s : Session) (finished : Bool) (saved : List (String × Cursor)) : Session :=
  { s with finished := finished, saved := saved }

section
variable {finished : Bool} {saved : List (String × Cursor)}

theorem next_withPast (s : Session) :
    (s.withPast finished saved).next = Prod.map id (withPast · finished saved) s.next := by
  unfold next withPast
  cases s.cursor.read <;> rfl

theorem takeItem_withPast {α : Type} (expected : Expected) (accept : Item → Option α) (s : Session) :
    takeItem expected accept (s.withPast finished saved) =
      Prod.map id (withPast · finished saved) (takeItem expected accept s) := by
  rw [takeItem, takeItem, next_withPast]
  rcases s.next with ⟨e | item, s'⟩
  · rfl
  · simp only [Prod.map, id]
    cases accept item <;> rfl

theorem expectOneOf_withPast (kinds : List (Option Kind)) (s : Session) :
    expectOneOf kinds (s.withPast finished saved) =
      Prod.map id (withPast · finished saved) (expectOneOf kinds s) := by
  fun_induction expectOneOf kinds s with
  | case1 s => rfl
  | case2 kind s => exact takeItem_withPast _ _ s
  | case3 kind kinds s hkinds item s' hitem =>
    rw [expectOneOf, expect, takeItem_withPast, ← expect, hitem]
    · rfl
    · exact hkinds
  | case4 kind kinds s hkinds e s' he ih =>
    rw [expectOneOf, expect, takeItem_withPast, ← expect, he]
    · exact ih
    · exact hkinds

theorem answering_withPast {α : Type} (answer : α → Answer) (x : Except ParseError α × Session) :
    answering answer (Prod.map id (withPast · finished saved) x) =
      Prod.map id (withPast · finished saved) (answering answer x) := rfl

/-- A taking call knows the place only. -/
theorem call_withPast {c : Call} (hc : c.takes = true) (s : Session) :
    (s.withPast finished saved).call c = Prod.map id (withPast · finished saved) (s.call c) := by
  cases c with
  | peek | walk | save | restore => cases hc
  | next => rw [call, next_withPast, answering_withPast, call]
  | expect kind => rw [call, expect, takeItem_withPast, answering_withPast, call, expect]
  | expectOneOf kinds => rw [call, expectOneOf_withPast, answering_withPast, call]
  | take literal => rw [call, takeItem_withPast, answering_withPast, call]
  | takeMatching expected accept => rw [call, takeItem_withPast, answering_withPast, call]

end

/-- A taking call keeps the past. -/
theorem past_of_takes {c : Call} (hc : c.takes = true) (s : Session) :
    (s.call c).2 = (s.call c).2.withPast s.finished s.saved := by
  have hcall : (s.withPast s.finished s.saved).call c = _ := call_withPast hc s
  exact congrArg Prod.snd hcall

/-- What is read next has the same past. -/
theorem past_of_next (h : s.next = (.ok item, s')) : s' = s'.withPast s.finished s.saved := by
  obtain ⟨d, -, rfl⟩ := next_eq_ok_iff.mp h
  rfl

/-- A call that fails stays where it is. -/
theorem cursor_of_error {c : Call} {e : ParseError} (h : (s.call c).1 = .error e) :
    (s.call c).2.cursor = s.cursor := by
  rcases c.cases with hc | rfl | rfl | ⟨name, rfl⟩ | ⟨name, rfl⟩
  · rcases takesNext_call hc with ⟨item, s', a, -, -, hcall⟩ | ⟨⟨e, hcall⟩, -⟩ <;> rw [hcall] at h ⊢
    cases h
  · rfl
  · rcases s.walk_cases with ⟨-, hwalk⟩ | ⟨t, s', -, -, hwalk⟩ | ⟨n, s', -, -, hwalk⟩ |
      ⟨e, -, -, hwalk⟩ <;> rw [hwalk] at h ⊢ <;> cases h
  · cases h
  · cases h

/-- A walk is finished when it gives no token. -/
theorem finished_walk_iff : (s.call .walk).2.finished = true ↔
    ∀ t, (s.call .walk).1 ≠ .ok (.item (.token t)) := by
  rcases s.walk_cases with ⟨hfinished, hwalk⟩ | ⟨t, s', hfinished, hnext, hwalk⟩ |
    ⟨n, s', -, -, hwalk⟩ | ⟨e, -, -, hwalk⟩ <;> rw [hwalk]
  · exact ⟨fun _ _ => nofun, fun _ => hfinished⟩
  · have hkept : s'.finished = false := by
      rw [past_of_next hnext]
      exact hfinished
    exact ⟨fun h => absurd (hkept.symm.trans h) Bool.false_ne_true, fun h => absurd rfl (h t)⟩
  · exact ⟨fun _ _ => nofun, fun _ => rfl⟩
  · exact ⟨fun _ _ => nofun, fun _ => rfl⟩

theorem call_walk_of_finished (h : s.finished = true) : s.call .walk = (.ok .finished, s) := by
  rw [call, walk, if_pos h]

/-- Only a walk finishes. -/
theorem finished_call_of_ne {c : Call} (h : c ≠ .walk) : (s.call c).2.finished = s.finished := by
  rcases c.cases with hc | rfl | rfl | ⟨name, rfl⟩ | ⟨name, rfl⟩
  · rw [past_of_takes hc s]
    rfl
  · rfl
  · exact absurd rfl h
  · rfl
  · rfl

/-- What is finished stays finished. -/
theorem finished_call (s : Session) (c : Call) (h : s.finished = true) : (s.call c).2.finished = true := by
  by_cases hc : c = .walk
  · rw [hc, call_walk_of_finished h]
    exact h
  · exact (finished_call_of_ne hc).trans h

/-- As long as each walk gives a token, none is finished. -/
theorem finished_after_eq_false {calls : List Call} (h : s.finished = false)
    (hwalks : ∀ before later, calls = before ++ .walk :: later →
      ∃ t, ((s.after before).call .walk).1 = .ok (.item (.token t))) :
    (s.after calls).finished = false := by
  induction calls generalizing s with
  | nil => exact h
  | cons c cs ih =>
    have hcall : (s.call c).2.finished = false := by
      by_cases hc : c = .walk
      · obtain ⟨t, ht⟩ := hwalks [] cs (by rw [hc]; rfl)
        rw [hc]
        exact Bool.eq_false_iff.mpr fun hfinished => finished_walk_iff.mp hfinished t ht
      · exact (finished_call_of_ne hc).trans h
    rw [after_cons]
    refine ih hcall fun before later hcs => ?_
    rw [← after_cons]
    exact hwalks (c :: before) later (congrArg (c :: ·) hcs)

theorem saved_walk (s : Session) : (s.call .walk).2.saved = s.saved := by
  rcases s.walk_cases with ⟨-, hwalk⟩ | ⟨_, s', -, hnext, hwalk⟩ | ⟨_, s', -, hnext, hwalk⟩ |
    ⟨_, -, -, hwalk⟩ <;> rw [hwalk]
  · rw [past_of_next hnext]
    rfl
  · rw [past_of_next hnext]
    rfl

/-- What is saved under a name stays until the name is saved again. -/
theorem lookup_call {c : Call} {name : String} (h : c ≠ .save name) :
    (s.call c).2.saved.lookup name = s.saved.lookup name := by
  rcases c.cases with hc | rfl | rfl | ⟨name', rfl⟩ | ⟨name', rfl⟩
  · rw [past_of_takes hc s]
    rfl
  · rfl
  · rw [saved_walk]
  · have hne : (name == name') = false := beq_false_of_ne fun heq => h (heq ▸ rfl)
    rw [call, List.lookup_cons, hne]
  · rfl

theorem lookup_after {calls : List Call} {name : String} (h : .save name ∉ calls) :
    (s.after calls).saved.lookup name = s.saved.lookup name := by
  induction calls generalizing s with
  | nil => rfl
  | cons c cs ih =>
    obtain ⟨hc, hcs⟩ := List.ne_and_not_mem_of_not_mem_cons h
    rw [after_cons, ih hcs, lookup_call (Ne.symm hc)]

/-! ### Calls that are made again -/

end Session

/-- The names that calls restore without having saved them. -/
def Call.openNames : List Call → List String
  | [] => []
  | .restore name :: cs => name :: openNames cs
  | .save name :: cs => (openNames cs).filter (· ≠ name)
  | _ :: cs => openNames cs

theorem Call.openNames_cons_of_takes {c : Call} (hc : c.takes = true) (cs : List Call) :
    openNames (c :: cs) = openNames cs := by
  cases c with
  | peek | walk | save | restore => cases hc
  | _ => rfl

namespace Session
variable {s s' : Session} {c : Call} {cs : List Call}

/-- Two sessions at one place, with the same places under some names. -/
structure SameView (names : List String) (s s' : Session) : Prop where
  cursor : s.cursor = s'.cursor
  saved : ∀ name ∈ names, s.saved.lookup name = s'.saved.lookup name

theorem SameView.eq_withPast {names : List String} (h : SameView names s s') :
    s' = s.withPast s'.finished s'.saved := by
  obtain ⟨cursor, finished, saved⟩ := s'
  obtain rfl := h.cursor
  rfl

theorem SameView.call (h : SameView (Call.openNames (c :: cs)) s s') (hc : c ≠ .walk) :
    (s.call c).1 = (s'.call c).1 ∧ SameView (Call.openNames cs) (s.call c).2 (s'.call c).2 := by
  rcases c.cases with htakes | rfl | rfl | ⟨name, rfl⟩ | ⟨name, rfl⟩
  · rw [Call.openNames_cons_of_takes htakes] at h
    have hcall : s'.call c = Prod.map id (withPast · s'.finished s'.saved) (s.call c) := by
      rw [← call_withPast htakes, ← h.eq_withPast]
    rw [hcall, past_of_takes htakes]
    exact ⟨rfl, rfl, h.saved⟩
  · refine ⟨?_, h.cursor, h.saved⟩
    rw [h.eq_withPast, Session.call, Session.call, next_withPast]
    cases s.next <;> rfl
  · exact absurd rfl hc
  · refine ⟨rfl, h.cursor, fun name' hname' => ?_⟩
    simp only [Session.call, List.lookup_cons, h.cursor]
    split
    · rfl
    · rename_i hne
      exact h.saved name' (List.mem_filter.mpr ⟨hname', by simpa using hne⟩)
  · refine ⟨rfl, ?_, fun name' hname' => h.saved name' (List.mem_cons_of_mem _ hname')⟩
    simp only [Session.call, h.cursor, h.saved name List.mem_cons_self]

/-- The same calls, without a walk, give the same answers. -/
theorem SameView.answers (h : SameView (Call.openNames cs) s s') (hwalk : .walk ∉ cs) :
    s.answers cs = s'.answers cs := by
  induction cs generalizing s s' with
  | nil => rfl
  | cons c cs ih =>
    obtain ⟨hc, hcs⟩ := List.ne_and_not_mem_of_not_mem_cons hwalk
    obtain ⟨hanswer, hview⟩ := h.call (Ne.symm hc)
    exact List.cons_eq_cons.mpr ⟨hanswer, ih hview hcs⟩

/-- Back at a saved place, the same calls give the same answers as they gave there. -/
theorem answers_restored {name : String} {between : List Call} (hwalk : .walk ∉ cs)
    (hbetween : ∀ n ∈ Call.openNames (.restore name :: cs), .save n ∉ between) :
    ((s.call (.save name)).2.after (between ++ [.restore name])).answers cs =
      (s.call (.save name)).2.answers cs := by
  obtain ⟨hname, hnames⟩ := List.forall_mem_cons.mp hbetween
  rw [after_append]
  refine SameView.answers ⟨?_, fun n hn => lookup_after (hnames n hn)⟩ hwalk
  change (List.lookup name _).getD _ = s.cursor
  rw [lookup_after hname, Session.call, List.lookup_cons_self]
  rfl

end Session

/-! ## The one scan -/

/-- What calls see of a scan, and where they leave the cursor. -/
structure SeesScan (source : String) (s : Session) : Prop where
  /-- The cursor stands at the start, at the end or behind a token. -/
  isStop : IsStop source s.cursor.offset
  /-- The text before the cursor is what its offset counts. -/
  isIn : s.cursor.IsIn source
  /-- To peek gives the first item from the cursor on, and changes nothing. -/
  peek : s.call .peek = (((scan source).itemFrom s.cursor.offset).map .item, s)
  /-- What is taken is the first item from the cursor on, which the cursor goes behind; if it does not
  fit or there is none, nothing changes. -/
  takes : ∀ c : Call, c.takes = true →
    (∃ item a s', (scan source).itemFrom s.cursor.offset = .ok item ∧ c.answer? item = some a ∧
      s.call c = (.ok a, s') ∧ s'.cursor.offset = item.stop) ∨
    (∃ e, s.call c = (.error e, s)) ∧
      ∀ item, (scan source).itemFrom s.cursor.offset = .ok item → c.answer? item = none
  /-- A walk gives the first token from the cursor on, which the cursor goes behind. -/
  walk : s.finished = false →
    (s.call .walk).1 = ((scan source).itemFrom s.cursor.offset).map Item.walked ∧
    ∀ item, (scan source).itemFrom s.cursor.offset = .ok item →
      (s.call .walk).2.cursor.offset = item.stop
  /-- A call that fails leaves the cursor where it was. -/
  errors : ∀ c e, (s.call c).1 = .error e → (s.call c).2.cursor = s.cursor

/-- All calls on a source, in whatever order, see its one scan. -/
structure SeesOneScan (source : String) : Prop where
  always : ∀ calls, SeesScan source ((Session.start source).after calls)
  /-- Calls without a walk that are made again at a saved place give the same answers. -/
  again : ∀ before name between cs, Call.walk ∉ cs →
    (∀ n ∈ Call.openNames (.restore name :: cs), Call.save n ∉ between) →
    ((Session.start source).after (before ++ [.save name] ++ between ++ [.restore name])).answers cs =
      ((Session.start source).after (before ++ [.save name])).answers cs
  /-- Walks go on as long as each of them has given a token. -/
  unfinished : ∀ calls, (∀ before later, calls = before ++ .walk :: later →
      ∃ t, (((Session.start source).after before).call .walk).1 = .ok (.item (.token t))) →
    ((Session.start source).after calls).finished = false
  /-- A walk that has given no token gives none any more, whatever is called. -/
  finished : ∀ before between,
    (∀ t, (((Session.start source).after before).call .walk).1 ≠ .ok (.item (.token t))) →
    ((Session.start source).after (before ++ .walk :: between)).call .walk =
      (.ok .finished, (Session.start source).after (before ++ .walk :: between))

theorem Session.OnScan.seesScan {source : String} {s : Session} (h : s.OnScan source) :
    SeesScan source s where
  isStop := h.cursor.isStop
  isIn := h.cursor.isIn
  peek := by rw [h.itemFrom_eq, Session.call]
  takes c hc := by
    rcases takesNext_call hc with ⟨item, s', a, hnext, hanswer, hcall⟩ | ⟨hcall, hnone⟩
    · obtain ⟨-, hoffset, -⟩ := h.of_next hnext
      exact .inl ⟨item, a, s', by rw [h.itemFrom_eq, hnext], hanswer, hcall, hoffset⟩
    · refine .inr ⟨hcall, fun item hitem => ?_⟩
      rw [h.itemFrom_eq] at hitem
      exact hnone item s.next.2 (Prod.ext hitem rfl)
  walk hfinished := by
    rw [h.itemFrom_eq]
    rcases s.walk_cases with ⟨hyes, -⟩ | ⟨t, s', -, hnext, hwalk⟩ | ⟨n, s', -, hnext, hwalk⟩ |
      ⟨e, -, hnext, hwalk⟩
    · exact absurd (hfinished.symm.trans hyes) Bool.false_ne_true
    · rw [hwalk, hnext]
      refine ⟨rfl, ?_⟩
      rintro item ⟨⟩
      exact (h.of_next hnext).2.1
    · rw [hwalk, hnext]
      refine ⟨rfl, ?_⟩
      rintro item ⟨⟩
      exact (h.of_next hnext).2.1
    · rw [hwalk, hnext]
      exact ⟨rfl, nofun⟩
  errors _ _ := cursor_of_error

/-- Calls on a source see its one scan: the cursor is at the start, at the end or behind a token, a call
gives the first item from there on and takes it or stays, and what is saved can be read again. -/
theorem calls_see_one_scan (source : String) : SeesOneScan source where
  always calls := by
    have hcall (s : Session) (c : Call) (h : s.OnScan source) : (s.call c).2.OnScan source := h.call c
    exact (Session.after_preserves hcall (.start source) calls).seesScan
  again before name between cs hwalk hbetween := by
    rw [List.append_assoc, Session.after_append, Session.after_append (.start source) before]
    exact Session.answers_restored hwalk hbetween
  unfinished _ := Session.finished_after_eq_false rfl
  finished before between hnone := by
    have hcall (s : Session) (c : Call) (h : s.finished = true) : (s.call c).2.finished = true :=
      s.finished_call c h
    apply Session.call_walk_of_finished
    rw [Session.after_append, Session.after_cons]
    exact Session.after_preserves hcall (Session.finished_walk_iff.mpr hnone) between

/-- Behind the end of a walk a restored cursor is read again, but not by the walk. -/
example : (Session.start "a").answers [.save "x", .walk, .walk, .restore "x", .walk, .next] =
    [.ok .nothing, .ok (.item (.token ⟨.identifier "a", 0, "a"⟩)), .ok .finished, .ok .nothing,
      .ok .finished, .ok (.item (.token ⟨.identifier "a", 0, "a"⟩))] := rfl

end TrafficQuery
