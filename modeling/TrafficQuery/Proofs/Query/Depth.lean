import TrafficQuery.Proofs.Query.Descent
import TrafficQuery.Proofs.Query.Viability

/-!
# The counter of levels

The counter of a reading is the number of the parentheses and changes of connective that are open. So a
group that ends gives back the counter in front of it, and the counter never passes the limit: a token
that asks for one level more is refused there, and no other token is refused for the nesting. When a
query is read by calls, each call for a condition inside another one has a level of its own.
-/

namespace TrafficQuery
open Grammar

/-- How often the connective changes in a chain. -/
def Chain.switches : Chain → Nat
  | [] => 0
  | (_, op) :: chain => Chain.switches chain + switchLevel (chain.head?.map Prod.snd) op

namespace Reading
variable {p q : Reading} {t : Token} {ts : List Token} {e : ParseError} {n : Nat}

/-! ## What is counted -/

/-- The counter of a chain inside some groups, each of which keeps the counter in front of it. -/
def Counted (depth : Nat) (chain : Chain) : List Group → Prop
  | [] => depth = chain.switches
  | g :: gs => depth = g.depth + 1 + chain.switches ∧ Counted g.depth g.chain gs

/-- The counter counts what is open, and within the limit. -/
structure Balanced (p : Reading) : Prop where
  counted : Counted p.depth p.chain p.groups
  within : p.depth ≤ maxNesting

theorem length_le_of_counted {depth : Nat} {chain : Chain} {groups : List Group}
    (h : Counted depth chain groups) : groups.length ≤ depth := by
  induction groups generalizing depth chain with
  | nil => exact Nat.zero_le _
  | cons g gs ih =>
    obtain ⟨hdepth, hgroups⟩ := h
    have hle := ih hgroups
    rw [List.length_cons]
    omega

theorem counted_cons {depth : Nat} {chain : Chain} {groups : List Group} (x : Condition)
    (op : Connective) (h : Counted depth chain groups) :
    Counted (depth + switchLevel (chain.head?.map Prod.snd) op) ((x, op) :: chain) groups := by
  cases groups with
  | nil =>
    rw [show depth = chain.switches from h]
    rfl
  | cons g gs =>
    obtain ⟨hdepth, hgroups⟩ := h
    refine ⟨?_, hgroups⟩
    rw [Chain.switches]
    omega

theorem balanced_of_advance {r : Reader Test} (hp : p.Balanced) (h : p.advance n r = .ok q) :
    q.Balanced := by
  cases r with
  | fail e => cases h
  | _ =>
    cases h
    exact ⟨hp.counted, hp.within⟩

theorem balanced_of_openGroup (hp : p.Balanced) (h : p.openGroup n t = .ok q) : q.Balanced := by
  obtain ⟨hdepth, rfl⟩ := openGroup_eq_ok_iff.mp h
  exact ⟨⟨rfl, hp.counted⟩, hdepth⟩

theorem balanced_of_extend {x : Condition} {op : Connective} (hp : p.Balanced)
    (h : p.extend x op t = .ok q) : q.Balanced := by
  obtain ⟨hlevel, rfl⟩ := extend_eq_ok_iff.mp h
  refine ⟨counted_cons x op hp.counted, ?_⟩
  have hwithin := hp.within
  have hone : switchLevel p.before op ≤ 1 := by unfold switchLevel; split <;> omega
  simp only
  omega

/-- The group that ends gives back the counter in front of its parenthesis. -/
theorem balanced_of_closeGroup {x : Condition} (hp : p.Balanced) (h : p.closeGroup x t = .ok q) :
    q.Balanced := by
  obtain ⟨g, gs, hgroups, rfl⟩ := closeGroup_eq_ok_iff.mp h
  have hcounted := hp.counted
  rw [hgroups] at hcounted
  obtain ⟨hdepth, hinner⟩ := hcounted
  have hwithin := hp.within
  exact ⟨hinner, by simp only; omega⟩

theorem balanced_of_step (hp : p.Balanced) (hstep : p.step t = .ok q) : q.Balanced := by
  cases hplace : p.place with
  | keyword word others =>
    obtain ⟨-, rfl⟩ := (step_keyword_iff hplace).mp hstep
    exact ⟨hp.counted, hp.within⟩
  | operand n =>
    rcases (step_operand_iff hplace).mp hstep with ⟨-, rfl⟩ | ⟨-, hq⟩ | ⟨text, -, hq⟩
    · exact ⟨hp.counted, hp.within⟩
    · exact balanced_of_openGroup hp hq
    · exact balanced_of_advance hp hq
  | field n expected take =>
    rw [step_field_eq hplace] at hstep
    exact balanced_of_advance hp hstep
  | behind x =>
    rcases (step_behind_iff hplace).mp hstep with ⟨op, -, hq⟩ | ⟨-, hq⟩
    · exact balanced_of_extend hp hq
    · exact balanced_of_closeGroup hp hq

theorem balanced_start : start.Balanced := ⟨rfl, Nat.zero_le _⟩

theorem balanced_of_foldlM (h : ts.foldlM step start = .ok p) : p.Balanced :=
  foldlM_preserves (P := Balanced) (fun _ _ _ => balanced_of_step) balanced_start h

/-! ## Tokens that are too deep -/

/-- The token opens a group, or it is a connective that differs from the one before it. -/
def Deepens (p : Reading) (t : Token) : Prop :=
  (∃ n, p.place = .operand n ∧ t.kind = .paren .opening) ∨
    ∃ x op, p.place = .behind x ∧ t.kind = .connective op ∧ p.switches op = true

theorem descend_eq_error_iff :
    p.descend t = .error e ↔ maxNesting ≤ p.depth ∧ e = ⟨.nestingTooDeep, t.start⟩ := by
  unfold descend
  split
  case isTrue h => simp [Nat.not_le.mpr h]
  case isFalse h => simp [Nat.not_lt.mp h, eq_comm]

theorem openGroup_eq_error_iff :
    p.openGroup n t = .error e ↔ maxNesting ≤ p.depth ∧ e = ⟨.nestingTooDeep, t.start⟩ := by
  rw [openGroup, bind_eq_error_iff, descend_eq_error_iff]
  simp [pure, Except.pure]

theorem extend_eq_error_iff {x : Condition} {op : Connective} : p.extend x op t = .error e ↔
    p.switches op = true ∧ maxNesting ≤ p.depth ∧ e = ⟨.nestingTooDeep, t.start⟩ := by
  unfold extend
  cases p.switches op with
  | false => simp [bind, Except.bind, pure, Except.pure]
  | true =>
    simp only [if_true, bind_eq_error_iff, descend_eq_error_iff]
    simp [pure, Except.pure]

/-- A field is never refused for the nesting. -/
theorem fault_of_advance {r : Reader Test} {start : Nat} (hr : r.Guided start)
    (h : p.advance n r = .error e) : e.fault ≠ .nestingTooDeep := by
  cases r with
  | fail e' =>
    obtain rfl := Except.error.inj h
    exact hr.2
  | _ => cases h

theorem step_eq_nestingTooDeep_iff (hp : p.place.Guided) :
    p.step t = .error ⟨.nestingTooDeep, n⟩ ↔ p.Deepens t ∧ maxNesting ≤ p.depth ∧ t.start = n := by
  constructor
  · intro h
    unfold step at h
    split at h
    case h_1 =>
      split at h
      case isTrue => split at h <;> cases h
      case isFalse => cases h
    case h_2 => cases h
    case h_3 k hplace hkind =>
      obtain ⟨hdepth, he⟩ := openGroup_eq_error_iff.mp h
      exact ⟨.inl ⟨k, hplace, hkind⟩, hdepth, (congrArg ParseError.position he).symm⟩
    case h_4 name _ _ => exact absurd rfl (fault_of_advance (Reader.guided_field name t.start) h)
    case h_5 => cases h
    case h_6 hplace =>
      rw [hplace] at hp
      exact absurd rfl (fault_of_advance ((hp.2 0).2 t) h)
    case h_7 x op hplace hkind =>
      obtain ⟨hswitches, hdepth, he⟩ := extend_eq_error_iff.mp h
      exact ⟨.inr ⟨x, op, hplace, hkind, hswitches⟩, hdepth, (congrArg ParseError.position he).symm⟩
    case h_8 =>
      unfold closeGroup at h
      split at h <;> cases h
    case h_9 => cases h
  · rintro ⟨⟨k, hplace, hkind⟩ | ⟨x, op, hplace, hkind, hswitches⟩, hdepth, rfl⟩
    · unfold step
      rw [hplace, hkind]
      exact openGroup_eq_error_iff.mpr ⟨hdepth, rfl⟩
    · unfold step
      rw [hplace, hkind]
      exact extend_eq_error_iff.mpr ⟨hswitches, hdepth, rfl⟩

end Reading

theorem parse_eq_nestingTooDeep_iff {source : String} {n : Nat} :
    parse source = .error ⟨.nestingTooDeep, n⟩ ↔
      ∃ us t vs p, (scan source).tokens = us ++ t :: vs ∧ us.foldlM Reading.step .start = .ok p ∧
        p.Deepens t ∧ p.depth = maxNesting ∧ t.start = n := by
  constructor
  · intro h
    cases refusal_of_parse h with
    | token hts hus ht =>
      obtain ⟨hdeepens, hdepth, hstart⟩ :=
        (Reading.step_eq_nestingTooDeep_iff (Reading.guided_of_foldlM hus)).mp ht
      have hwithin := (Reading.balanced_of_foldlM hus).within
      exact ⟨_, _, _, _, hts, hus, hdeepens, Nat.le_antisymm hwithin hdepth, hstart⟩
    | broken _ _ he => cases he
    | ended _ _ _ he => cases he
  · rintro ⟨us, t, vs, p, hts, hus, hdeepens, hdepth, hstart⟩
    have ht := (Reading.step_eq_nestingTooDeep_iff (Reading.guided_of_foldlM hus)).mpr
      ⟨hdeepens, Nat.le_of_eq hdepth.symm, hstart⟩
    unfold parse Scan.condition
    rw [hts, List.foldlM_append, hus]
    simp only [bind, Except.bind, List.foldlM_cons, ht]

/-! ## Calls -/

namespace Descent
variable {ending : Ending} {calls negations depth m n : Nat} {before : Chain} {ts : List Token}

/-- Every call that is open has a level of its own, but for the outermost one, and within the limit. -/
def Point.Within (point : Point) : Prop :=
  point.depth ≤ maxNesting ∧ point.calls ≤ point.depth + 1

def Outcome.Within (x : Outcome n) : Prop := ∀ point ∈ x.points, point.Within

theorem Outcome.within_nil {result : Except Stop (Read Condition n)} :
    Outcome.Within ⟨result, depth, []⟩ := nofun

theorem Outcome.within_through {point : Point} {x : Outcome n} (hpoint : point.Within)
    (hx : x.Within) : (x.through point).Within :=
  List.forall_mem_cons.mpr ⟨hpoint, hx⟩

theorem Outcome.within_andThen {x : Outcome m} {f : Read Condition m → Nat → Outcome n} (hx : x.Within)
    (hf : ∀ r, x.result = .ok r → (f r x.depth).Within) : (x.andThen f).Within := by
  unfold Outcome.andThen
  cases hr : x.result with
  | error e => exact hx
  | ok r => exact fun point hpoint => (List.mem_append.mp hpoint).elim (hx point) (hf r hr point)

theorem within_closeGroup (r : Read Condition n) (hdepth : depth ≤ maxNesting)
    (hcalls : calls ≤ depth + 1) : (closeGroup ending calls negations r (depth + 1)).Within := by
  refine Outcome.within_through ⟨hdepth, hcalls⟩ ?_
  obtain ⟨c, _ | ⟨t, ts⟩, shorter⟩ := r
  · exact Outcome.within_nil
  · by_cases h : t.kind = .paren .closing <;> simp only [h, if_true, if_false] <;>
      exact Outcome.within_nil

/-- A call for a condition needs a level that no other call has. -/
theorem within_condition (hdepth : depth ≤ maxNesting) (hcalls : calls ≤ depth)
    (hchain : (chain ending (calls + 1) [] ts depth).Within) :
    (condition ending calls ts depth).Within := by
  rw [condition]
  have hinner : Point.Within ⟨depth, calls + 1⟩ := ⟨hdepth, Nat.succ_le_succ hcalls⟩
  have houter : Point.Within ⟨depth, calls⟩ := ⟨hdepth, Nat.le_succ_of_le hcalls⟩
  intro point hpoint
  simp only [List.cons_append, List.mem_cons, List.mem_append, List.not_mem_nil, or_false] at hpoint
  rcases hpoint with rfl | hpoint | rfl | rfl
  · exact hinner
  · exact hchain point hpoint
  · exact hinner
  · exact houter

/-- The calls for an operand and for a chain of some tokens, inside calls that have their levels. -/
def CallsWithin (ending : Ending) (ts : List Token) : Prop :=
  ∀ calls depth, depth ≤ maxNesting → calls ≤ depth + 1 →
    (∀ negations, (operand ending calls negations ts depth).Within) ∧
      ∀ before, (chain ending calls before ts depth).Within

theorem within_operand (h : ∀ us, us.length < ts.length → CallsWithin ending us)
    (hdepth : depth ≤ maxNesting) (hcalls : calls ≤ depth + 1) :
    (operand ending calls negations ts depth).Within := by
  cases ts with
  | nil =>
    rw [operand]
    exact Outcome.within_nil
  | cons t us =>
    have hus := h us (Nat.lt_succ_self _)
    rw [operand]
    split
    case h_1 => exact (hus calls depth hdepth hcalls).1 (negations + 1)
    case h_2 =>
      split
      case h_1 => exact Outcome.within_nil
      case h_2 inner hraise =>
        obtain ⟨hlt, rfl⟩ := raise_eq_ok_iff.mp hraise
        refine Outcome.within_through ⟨hlt, Nat.le_succ_of_le hcalls⟩ ?_
        have hchain := (hus (calls + 1) (depth + 1) hlt (Nat.succ_le_succ hcalls)).2 []
        refine Outcome.within_andThen (within_condition hlt hcalls hchain) fun r hr => ?_
        rw [depth_condition]
        exact within_closeGroup r hdepth hcalls
    case h_3 => split <;> exact Outcome.within_nil
    case h_4 => exact Outcome.within_nil

theorem raiseAt_eq_ok {op : Connective} {t : Token} {inner : Nat}
    (h : raiseAt before op t depth = .ok inner) (hdepth : depth ≤ maxNesting) :
    depth ≤ inner ∧ inner ≤ maxNesting := by
  unfold raiseAt at h
  split at h
  case isTrue =>
    cases h
    exact ⟨Nat.le_refl _, hdepth⟩
  case isFalse =>
    obtain ⟨hlt, rfl⟩ := raise_eq_ok_iff.mp h
    exact ⟨Nat.le_succ _, hlt⟩

theorem within_chain (h : ∀ us, us.length < ts.length → CallsWithin ending us)
    (hdepth : depth ≤ maxNesting) (hcalls : calls ≤ depth + 1) :
    (chain ending calls before ts depth).Within := by
  rw [chain]
  refine Outcome.within_andThen (within_operand h hdepth hcalls) fun r hr => ?_
  rw [depth_operand hr]
  obtain ⟨c, _ | ⟨t, us⟩, shorter⟩ := r
  · cases ending <;> exact Outcome.within_nil
  · dsimp only
    split
    case h_1 op hk =>
      split
      case h_1 => exact Outcome.within_nil
      case h_2 inner hraise =>
        obtain ⟨hle, hinner⟩ := raiseAt_eq_ok hraise hdepth
        have hus := h us (Nat.lt_of_succ_lt shorter)
        have hlater : calls ≤ inner + 1 := Nat.le_trans hcalls (Nat.succ_le_succ hle)
        exact Outcome.within_through ⟨hinner, hlater⟩ ((hus calls inner hinner hlater).2 _)
    case h_2 => exact Outcome.within_nil

theorem callsWithin (ending : Ending) (ts : List Token) : CallsWithin ending ts := by
  induction h : ts.length using Nat.strongRecOn generalizing ts with
  | ind n ih =>
    subst h
    have hshorter : ∀ us, us.length < ts.length → CallsWithin ending us := fun us hus => ih _ hus us rfl
    intro calls depth hdepth hcalls
    exact ⟨fun _ => within_operand hshorter hdepth hcalls,
      fun _ => within_chain hshorter hdepth hcalls⟩

theorem within_query (s : Scan) : ∀ point ∈ (query s).2, point.Within := by
  have hstart : Point.Within ⟨0, 0⟩ := ⟨Nat.zero_le _, Nat.zero_le _⟩
  unfold query
  split
  case h_1 => exact List.forall_mem_cons.mpr ⟨hstart, nofun⟩
  case h_2 r _ =>
    have hchain := (callsWithin s.ending r.rest 1 0 (Nat.zero_le _) (Nat.le_refl _)).2 []
    exact List.forall_mem_cons.mpr ⟨hstart, within_condition (Nat.zero_le _) (Nat.le_refl _) hchain⟩

end Descent

/-- What holds of the counter of levels while a text is read as a query. -/
structure NestingIsBalanced (source : String) : Prop where
  /-- Behind every token that is taken, the counter is what is open, and no more than the limit. So no
  more groups are open at once. -/
  counted : ∀ us p, us <+: (scan source).tokens → us.foldlM Reading.step .start = .ok p →
    Reading.Counted p.depth p.chain p.groups ∧ p.groups.length ≤ p.depth ∧ p.depth ≤ 128
  /-- Reading by calls gives the same condition or the same error. -/
  sameResult : (Descent.query (scan source)).1 = (scan source).condition.mapError .error
  /-- The counter is never lowered at zero. -/
  noUnderflow : (Descent.query (scan source)).1 ≠ .error .underflow
  /-- At every point of the calls the counter is within the limit, and no more than one call for a
  condition is open for each level and one for the whole query. -/
  bounded : ∀ point ∈ (Descent.query (scan source)).2, point.depth ≤ 128 ∧ point.calls ≤ 129
  /-- A call for a condition leaves the counter as it finds it, whether it succeeds or fails. -/
  condition : ∀ ending calls ts depth, (Descent.condition ending calls ts depth).depth = depth
  /-- A call for an operand leaves the counter as it finds it if it succeeds. -/
  operand : ∀ ending calls negations ts depth r,
    (Descent.operand ending calls negations ts depth).result = .ok r →
      (Descent.operand ending calls negations ts depth).depth = depth
  /-- The text is refused for its nesting if a parenthesis or a change of connective comes at the limit,
  and only then. -/
  refused : ∀ n, parse source = .error ⟨.nestingTooDeep, n⟩ ↔
    ∃ us t vs p, (scan source).tokens = us ++ t :: vs ∧ us.foldlM Reading.step .start = .ok p ∧
      p.Deepens t ∧ p.depth = 128 ∧ t.start = n

theorem nesting_is_balanced (source : String) : NestingIsBalanced source where
  counted us p _ h := by
    have hp := Reading.balanced_of_foldlM h
    exact ⟨hp.counted, Reading.length_le_of_counted hp.counted, hp.within⟩
  sameResult := Descent.result_query (scan source)
  noUnderflow := by
    rw [Descent.result_query]
    cases (scan source).condition <;> nofun
  bounded point hpoint := by
    obtain ⟨hdepth, hcalls⟩ := Descent.within_query (scan source) point hpoint
    exact ⟨hdepth, Nat.le_trans hcalls (Nat.succ_le_succ hdepth)⟩
  condition _ _ _ _ := Descent.depth_condition
  operand _ _ _ _ _ _ := Descent.depth_operand
  refused _ := parse_eq_nestingTooDeep_iff

/-- A change of connective inside a group is no longer counted behind it. -/
example : (Descent.query (scan "query requests where (id = 1 and id = 2 or id = 3) or id = 4")).2 =
    [⟨0, 0⟩, ⟨0, 1⟩, ⟨1, 1⟩, ⟨1, 2⟩, ⟨1, 2⟩, ⟨2, 2⟩, ⟨1, 2⟩, ⟨1, 1⟩, ⟨0, 1⟩, ⟨0, 1⟩, ⟨0, 1⟩,
      ⟨0, 0⟩] := by
  decide +kernel

end TrafficQuery
