import TrafficQuery.Proofs.Query.Reading

/-!
# Reading by recursive calls

A condition can also be read by calls: one for each condition in parentheses, with a counter of the
levels that are open. A call for a condition keeps the counter and sets it back in the end, a parenthesis
raises it and lowers it again, and a change of connective raises it until its condition ends. Reading by
calls gives the same condition or the same error as reading token by token.
-/

namespace TrafficQuery
open Grammar

/-- The error of an input that ends where something is missing. -/
def Ending.missing (expected : Expected) : Ending → ParseError
  | .broken e => e.toParseError
  | .endOfInput n => unexpected expected (.endOfInput n)

namespace Descent

/-- What has been read from fewer than so many tokens ahead, and the tokens that are left. -/
structure Read (α : Type) (bound : Nat) where
  value : α
  rest : List Token
  shorter : rest.length < bound

def Read.widen {α : Type} {m n : Nat} (r : Read α m) (h : m ≤ n) : Read α n :=
  ⟨r.value, r.rest, Nat.lt_of_lt_of_le r.shorter h⟩

/-- Why a call fails. -/
inductive Stop
  | error (e : ParseError)
  /-- The counter is to be lowered at zero. -/
  | underflow
  deriving DecidableEq, Repr

/-- The counter of levels at a point of a reading, and the calls for a condition that are open. -/
structure Point where
  depth : Nat
  calls : Nat
  deriving DecidableEq, Repr

/-- What a call gives, the counter that it leaves, and the points that it has been through. -/
structure Outcome (bound : Nat) where
  result : Except Stop (Read Condition bound)
  depth : Nat
  points : List Point

namespace Outcome
variable {m n : Nat}

def fail (e : ParseError) (depth : Nat) : Outcome n := ⟨.error (.error e), depth, []⟩

def done (r : Read Condition n) (depth : Nat) : Outcome n := ⟨.ok r, depth, []⟩

def widen (x : Outcome m) (h : m ≤ n) : Outcome n := ⟨x.result.map (·.widen h), x.depth, x.points⟩

/-- Goes through a point first. -/
def through (point : Point) (x : Outcome n) : Outcome n := ⟨x.result, x.depth, point :: x.points⟩

/-- Goes on behind a call that does not fail. -/
def andThen (x : Outcome m) (f : Read Condition m → Nat → Outcome n) : Outcome n :=
  match x.result with
  | .error e => ⟨.error e, x.depth, x.points⟩
  | .ok r =>
    let y := f r x.depth
    ⟨y.result, y.depth, x.points ++ y.points⟩

end Outcome

/-- The counter raised by one, which a token asks for. -/
def raise (t : Token) (depth : Nat) : Except ParseError Nat :=
  if depth < maxNesting then .ok (depth + 1) else .error ⟨.nestingTooDeep, t.start⟩

/-- The counter behind a connective. -/
def raiseAt (chain : Chain) (op : Connective) (t : Token) (depth : Nat) : Except ParseError Nat :=
  if switchLevel (chain.head?.map Prod.snd) op = 0 then .ok depth else raise t depth

/-- Gives a reader its tokens. -/
def take {α : Type} (ending : Ending) :
    Reader α → (ts : List Token) → Except ParseError (Read α (ts.length + 1))
  | .done a, ts => .ok ⟨a, ts, Nat.lt_succ_self _⟩
  | .fail e, _ => .error e
  | .next expected _, [] => .error (ending.missing expected)
  | .next _ next, t :: ts => (take ending (next t) ts).map (·.widen (Nat.le_succ _))

/-- Ends a group behind its condition, at its parenthesis. -/
def closeGroup {n : Nat} (ending : Ending) (calls negations : Nat) (r : Read Condition n) :
    Nat → Outcome (n + 1)
  | 0 => ⟨.error .underflow, 0, []⟩
  | depth + 1 => .through ⟨depth, calls⟩ <|
    match r with
    | ⟨_, [], _⟩ => .fail (ending.missing (.token (.paren .closing))) depth
    | ⟨c, t :: ts, shorter⟩ =>
      if t.kind = .paren .closing then
        .done ⟨.negations negations c, ts, Nat.lt_succ_of_lt (Nat.lt_of_succ_lt shorter)⟩ depth
      else .fail (unexpected (.token (.paren .closing)) (.token t)) depth

-- A condition starts with a chain of the same tokens, and a chain with an operand of the same tokens,
-- so the measure puts the three in this order and the tokens first.
mutual

/-- Reads a condition. Whatever comes, the counter is set back to what it was. -/
def condition (ending : Ending) (calls : Nat) (ts : List Token) (depth : Nat) : Outcome ts.length :=
  let inner := chain ending (calls + 1) [] ts depth
  ⟨inner.result, depth, ⟨depth, calls + 1⟩ :: inner.points ++ [⟨depth, calls + 1⟩, ⟨depth, calls⟩]⟩
termination_by 3 * ts.length + 2

/-- Reads what is left of a chain of operands. -/
def chain (ending : Ending) (calls : Nat) (before : Chain) (ts : List Token) (depth : Nat) :
    Outcome ts.length :=
  (operand ending calls 0 ts depth).andThen fun r depth =>
    match r with
    | ⟨c, [], shorter⟩ =>
      match ending with
      | .broken e => .fail e.toParseError depth
      | .endOfInput _ => .done ⟨before.close c, [], shorter⟩ depth
    | ⟨c, t :: us, shorter⟩ =>
      match t.kind with
      | .connective op =>
        match raiseAt before op t depth with
        | .error e => .fail e depth
        | .ok inner =>
          ((chain ending calls ((c, op) :: before) us inner).through ⟨inner, calls⟩).widen
            (Nat.le_of_lt (Nat.lt_of_succ_lt shorter))
      | _ => .done ⟨before.close c, t :: us, shorter⟩ depth
termination_by 3 * ts.length + 1
decreasing_by
  · omega
  · have := Nat.lt_of_succ_lt shorter
    omega

/-- Reads an operand behind some negations. -/
def operand (ending : Ending) (calls : Nat) (negations : Nat) (ts : List Token) (depth : Nat) :
    Outcome ts.length :=
  match ts with
  | [] => .fail (ending.missing .condition) depth
  | t :: us =>
    match t.kind with
    | .not => (operand ending calls (negations + 1) us depth).widen (Nat.le_succ _)
    | .paren .opening =>
      match raise t depth with
      | .error e => .fail e depth
      | .ok inner =>
        ((condition ending calls us inner).andThen (closeGroup ending calls negations)).through
          ⟨inner, calls⟩
    | .identifier name =>
      match take ending (.field name t.start) us with
      | .error e => .fail e depth
      | .ok r => .done ⟨.negations negations (.test r.value), r.rest, r.shorter⟩ depth
    | _ => .fail (unexpected .condition (.token t)) depth
termination_by 3 * ts.length

end

/-- Some words in a row. -/
def words : List Keyword → Reader Unit
  | [] => .done ()
  | word :: others => do
    Reader.expect (.keyword word)
    words others

/-- Behind the condition of a query there is only the end of the input. -/
def atEnd {n : Nat} (ending : Ending) : Read Condition n → Except Stop Condition
  | ⟨c, [], _⟩ =>
    match ending with
    | .broken e => .error (.error e.toParseError)
    | .endOfInput _ => .ok c
  | ⟨_, t :: _, _⟩ => .error (.error (unexpected .endOfInput (.token t)))

/-- Reads a query: the words in front of its condition, the condition, and the end of the input. -/
def query (s : Scan) : Except Stop Condition × List Point :=
  match take s.ending (words [.query, .requests, .whereClause]) s.tokens with
  | .error e => (.error (.error e), [⟨0, 0⟩])
  | .ok r =>
    let x := condition s.ending 0 r.rest 0
    (x.result >>= atEnd s.ending, ⟨0, 0⟩ :: x.points)

/-! ## The counter behind a call -/

section Counter
variable {ending : Ending} {calls negations depth bound n : Nat} {before : Chain} {ts : List Token}

theorem depth_condition : (condition ending calls ts depth).depth = depth := by
  rw [condition]

theorem result_condition :
    (condition ending calls ts depth).result = (chain ending (calls + 1) [] ts depth).result := by
  rw [condition]

theorem Outcome.exists_of_widen {x : Outcome n} {h : n ≤ bound} {r : Read Condition bound}
    (hr : (x.widen h).result = .ok r) : ∃ r', x.result = .ok r' ∧ r = r'.widen h := by
  unfold Outcome.widen at hr
  cases hx : x.result with
  | error e =>
    rw [hx] at hr
    cases hr
  | ok r' =>
    rw [hx] at hr
    exact ⟨r', rfl, (Except.ok.inj hr).symm⟩

theorem Outcome.andThen_of_ok {x : Outcome n} {f : Read Condition n → Nat → Outcome bound}
    {r : Read Condition n} (h : x.result = .ok r) :
    (x.andThen f).result = (f r x.depth).result ∧ (x.andThen f).depth = (f r x.depth).depth := by
  unfold Outcome.andThen
  rw [h]
  exact ⟨rfl, rfl⟩

theorem raise_eq_ok_iff {t : Token} {inner : Nat} :
    raise t depth = .ok inner ↔ depth < maxNesting ∧ inner = depth + 1 := by
  unfold raise
  split
  case isTrue h => simp [h, eq_comm]
  case isFalse h => simp [h]

theorem depth_closeGroup (r : Read Condition n) :
    (closeGroup ending calls negations r (depth + 1)).depth = depth := by
  obtain ⟨c, _ | ⟨t, ts⟩, shorter⟩ := r
  · rfl
  · by_cases h : t.kind = .paren .closing <;> simp only [closeGroup, h, if_true, if_false] <;> rfl

/-- An operand that is read leaves the counter as it was, because a condition in parentheses does. -/
theorem depth_operand {r : Read Condition ts.length}
    (h : (operand ending calls negations ts depth).result = .ok r) :
    (operand ending calls negations ts depth).depth = depth := by
  induction ts generalizing negations with
  | nil =>
    rw [operand] at h
    cases h
  | cons t us ih =>
    rw [operand] at h ⊢
    split at h
    case h_1 =>
      obtain ⟨r', hr', -⟩ := Outcome.exists_of_widen h
      exact ih hr'
    case h_2 =>
      split at h
      case h_1 => cases h
      case h_2 inner hraise =>
        obtain ⟨-, rfl⟩ := raise_eq_ok_iff.mp hraise
        cases hinner : (condition ending calls us (depth + 1)).result with
        | error e =>
          simp only [Outcome.through, Outcome.andThen, hinner] at h
          cases h
        | ok r' =>
          exact (Outcome.andThen_of_ok hinner).2.trans (depth_condition ▸ depth_closeGroup r')
    case h_3 =>
      split at h
      case h_1 => cases h
      case h_2 => rfl
    case h_4 => cases h

end Counter
end Descent

/-! ## Reading on -/

namespace Reading
variable {p q : Reading} {ending : Ending} {t : Token} {ts : List Token} {e : ParseError}

/-- Takes the tokens ahead and ends. -/
def run (p : Reading) (ending : Ending) (ts : List Token) : Except ParseError Condition := do
  let q ← ts.foldlM step p
  q.conclude ending

theorem run_nil (p : Reading) (ending : Ending) : p.run ending [] = p.conclude ending := rfl

theorem run_cons (p : Reading) (ending : Ending) (t : Token) (ts : List Token) :
    p.run ending (t :: ts) = p.step t >>= fun q => q.run ending ts := by
  rw [run, List.foldlM_cons, bind_assoc]
  rfl

theorem run_of_step_ok (h : p.step t = .ok q) : p.run ending (t :: ts) = q.run ending ts := by
  rw [run_cons, h]
  rfl

theorem run_of_step_error (h : p.step t = .error e) : p.run ending (t :: ts) = .error e := by
  rw [run_cons, h]
  rfl

theorem conclude_of_finish_error {expected : Expected} (h : p.finish = .error expected) :
    p.conclude ending = .error (ending.missing expected) := by
  cases ending with
  | broken e => rfl
  | endOfInput n => rw [conclude, h, Ending.missing]

/-- Behind an operand, a token that is no connective ends the group or is refused. -/
theorem step_behind_eq {x : Condition} (hplace : p.place = .behind x)
    (hnot : ∀ op, t.kind ≠ .connective op) :
    p.step t = if t.kind = .paren .closing then p.closeGroup x t else reject p.closer t := by
  unfold step
  rw [hplace]
  cases hk : t.kind with
  | connective op => exact absurd hk (hnot op)
  | paren side => cases side <;> rfl
  | _ => rfl

/-- What a reading gives from behind an operand on, if no connective follows, depends on the condition
that the chain makes, and not on the parts of the chain or on the counter, which the end of the group
sets back. -/
theorem run_behind_congr {x y : Condition} (hp : p.place = .behind x) (hq : q.place = .behind y)
    (hgroups : p.groups = q.groups) (hclose : p.chain.close x = q.chain.close y)
    (hts : ∀ t ∈ ts.head?, ∀ op, t.kind ≠ .connective op) : p.run ending ts = q.run ending ts := by
  cases ts with
  | nil =>
    have hfinish : p.finish = q.finish := by simp only [finish, closer, hp, hq, hgroups, hclose]
    cases ending <;> simp only [run_nil, conclude, hfinish]
  | cons t ts =>
    rw [run_cons, run_cons, step_behind_eq hp (hts t rfl), step_behind_eq hq (hts t rfl)]
    simp only [closeGroup, closer, hgroups, hclose]

end Reading

namespace Descent
open Reading
variable {ending : Ending} {calls negations depth bound n : Nat} {before : Chain} {ts : List Token}
  {p : Reading}

/-- A reading fails as a call does, or it goes on behind what the call has read. -/
def Follows {α : Type} (x : Except Stop (Read α bound)) (ending : Ending) (next : Read α bound → Reading)
    (y : Except ParseError Condition) : Prop :=
  match x with
  | .error (.error e) => y = .error e
  | .error .underflow => False
  | .ok r => y = (next r).run ending r.rest

theorem follows_widen {x : Outcome n} {h : n ≤ bound} {next : Read Condition bound → Reading}
    {y : Except ParseError Condition} (hx : Follows x.result ending (fun r => next (r.widen h)) y) :
    Follows (x.widen h).result ending next y := by
  unfold Outcome.widen
  cases hr : x.result with
  | error e =>
    rw [hr] at hx
    cases e <;> exact hx
  | ok r =>
    rw [hr] at hx
    exact hx

theorem follows_andThen {x : Outcome n} {f : Read Condition n → Nat → Outcome bound}
    {mid : Read Condition n → Reading} {next : Read Condition bound → Reading}
    {y : Except ParseError Condition} (hx : Follows x.result ending mid y)
    (hf : ∀ r, x.result = .ok r →
      Follows (f r x.depth).result ending next ((mid r).run ending r.rest)) :
    Follows (x.andThen f).result ending next y := by
  unfold Outcome.andThen
  cases hr : x.result with
  | error e =>
    rw [hr] at hx
    cases e <;> exact hx
  | ok r =>
    rw [hr] at hx
    obtain rfl : y = (mid r).run ending r.rest := hx
    exact hf r hr

/-- A field is read as its reader says. -/
theorem follows_take (ending : Ending) (n : Nat) (r : Reader Test) (p : Reading) (ts : List Token) :
    Follows ((take ending r ts).mapError .error) ending
      (fun r => { p with place := .behind (.negations n (.test r.value)) })
      (p.advance n r >>= fun q => q.run ending ts) := by
  induction r generalizing p ts with
  | done test => exact rfl
  | fail e => exact rfl
  | next expected reader ih =>
    cases ts with
    | nil =>
      have hfinish : Reading.finish { p with place := .field n expected reader } = .error expected := rfl
      exact conclude_of_finish_error hfinish
    | cons t ts =>
      have hstep : Reading.step { p with place := .field n expected reader } t =
          Reading.advance { p with place := .field n expected reader } n (reader t) := step_field_eq rfl
      have h := ih t { p with place := .field n expected reader } ts
      rw [← hstep, ← run_cons] at h
      rw [take]
      cases htake : take ending (reader t) ts <;> rw [htake] at h <;> exact h

/-- Behind a chain there is no connective. -/
theorem rest_chain {depth : Nat} {before : Chain} {ts : List Token} {r : Read Condition ts.length}
    (h : (chain ending calls before ts depth).result = .ok r) :
    ∀ t ∈ r.rest.head?, ∀ op, t.kind ≠ .connective op := by
  rw [chain] at h
  cases hoperand : (operand ending calls 0 ts depth).result with
  | error e =>
    simp only [Outcome.andThen, hoperand] at h
    cases h
  | ok first =>
    rw [(Outcome.andThen_of_ok hoperand).1] at h
    obtain ⟨c, _ | ⟨t, us⟩, shorter⟩ := first
    · cases ending with
      | broken e => cases h
      | endOfInput n =>
        cases h
        nofun
    · cases hk : t.kind with
      | connective op =>
        simp only [hk] at h
        split at h
        case h_1 => cases h
        case h_2 inner hraise =>
          obtain ⟨r', hr', rfl⟩ := Outcome.exists_of_widen h
          have hlater : (chain ending calls ((c, op) :: before) us inner).result = .ok r' := hr'
          have hrest := rest_chain hlater
          exact hrest
      | _ =>
        simp only [hk] at h
        cases h
        simp [hk]
termination_by ts.length
decreasing_by exact Nat.lt_trans (Nat.lt_succ_self _) shorter

/-- Calls for an operand do what the tokens do in front of one. -/
def OperandFollows (ending : Ending) (ts : List Token) : Prop :=
  ∀ (calls negations : Nat) (p : Reading), p.place = .operand negations →
    Follows (operand ending calls negations ts p.depth).result ending
      (fun r => { p with place := .behind r.value }) (p.run ending ts)

/-- Calls for a chain do what the tokens do in it, and leave the condition that it makes. -/
def ChainFollows (ending : Ending) (ts : List Token) : Prop :=
  ∀ (calls : Nat) (p : Reading), p.place = .operand 0 →
    Follows (chain ending calls p.chain ts p.depth).result ending
      (fun r => ⟨p.groups, [], 0, .behind r.value⟩) (p.run ending ts)

/-- A reading goes one level down as the counter of the calls does. -/
theorem descend_eq_map_raise (p : Reading) (t : Token) :
    p.descend t = (raise t p.depth).map fun depth => { p with depth } := by
  unfold descend raise
  split <;> rfl

theorem follows_closeGroup {r : Read Condition n} {g : Group} {gs : List Group}
    (hrest : ∀ t ∈ r.rest.head?, ∀ op, t.kind ≠ .connective op) :
    Follows (closeGroup ending calls g.negations r (depth + 1)).result ending
      (fun r => ⟨gs, g.chain, g.depth, .behind r.value⟩)
      (Reading.run ⟨g :: gs, [], 0, .behind r.value⟩ ending r.rest) := by
  obtain ⟨c, _ | ⟨t, ts⟩, shorter⟩ := r
  · have hfinish : Reading.finish ⟨g :: gs, [], 0, .behind c⟩ =
        .error (.token (.paren .closing)) := rfl
    exact conclude_of_finish_error hfinish
  · by_cases hk : t.kind = .paren .closing
    · have hstep : Reading.step ⟨g :: gs, [], 0, .behind c⟩ t =
          .ok ⟨gs, g.chain, g.depth, .behind (.negations g.negations c)⟩ :=
        (step_behind_iff rfl).mpr (.inr ⟨hk, rfl⟩)
      rw [run_of_step_ok hstep]
      simp only [closeGroup, hk, if_true]
      exact rfl
    · have hstep : Reading.step ⟨g :: gs, [], 0, .behind c⟩ t =
          reject (.token (.paren .closing)) t := by
        rw [step_behind_eq rfl (hrest t rfl), if_neg hk]
        rfl
      rw [run_of_step_error hstep]
      simp only [closeGroup, hk, if_false]
      exact rfl

theorem follows_group {t : Token} {us : List Token} (hchain : ChainFollows ending us) :
    Follows
      (match raise t p.depth with
        | .error e => Outcome.fail e p.depth
        | .ok inner =>
          ((condition ending calls us inner).andThen (closeGroup ending calls negations)).through
            ⟨inner, calls⟩).result
      ending (fun r => { p with place := .behind r.value })
      (p.openGroup negations t >>= fun q => q.run ending us) := by
  unfold openGroup
  rw [descend_eq_map_raise]
  cases hraise : raise t p.depth with
  | error e => exact rfl
  | ok inner =>
    obtain ⟨-, rfl⟩ := raise_eq_ok_iff.mp hraise
    have hinner := hchain (calls + 1) ⟨⟨p.chain, negations, p.depth⟩ :: p.groups, [], p.depth + 1,
      .operand 0⟩ rfl
    rw [← result_condition] at hinner
    refine follows_andThen hinner fun r hr => ?_
    rw [depth_condition]
    let g : Group := ⟨p.chain, negations, p.depth⟩
    exact follows_closeGroup (g := g) (rest_chain (result_condition ▸ hr))

theorem operandFollows_of_shorter (hoperand : ∀ us, us.length < ts.length → OperandFollows ending us)
    (hchain : ∀ us, us.length < ts.length → ChainFollows ending us) : OperandFollows ending ts := by
  intro calls negations p hplace
  cases ts with
  | nil =>
    have hfinish : p.finish = .error .condition := by rw [finish, hplace]
    rw [operand]
    exact conclude_of_finish_error hfinish
  | cons t us =>
    rw [operand, run_cons]
    unfold step
    rw [hplace]
    split
    case h_1 hk =>
      rw [hk]
      refine follows_widen ?_
      exact hoperand us (Nat.lt_succ_self _) calls (negations + 1)
        { p with place := .operand (negations + 1) } rfl
    case h_2 hk =>
      rw [hk]
      exact follows_group (hchain us (Nat.lt_succ_self _))
    case h_3 name hk =>
      rw [hk]
      have htake := follows_take ending negations (.field name t.start) p us
      cases h : take ending (.field name t.start) us <;> rw [h] at htake <;> exact htake
    case h_4 hnot hopen hname =>
      cases hk : t.kind with
      | not => exact absurd hk hnot
      | identifier name => exact absurd hk (hname name)
      | paren side =>
        cases side
        · exact absurd hk hopen
        · exact rfl
      | _ => exact rfl

theorem follows_connective {c : Condition} {op : Connective} {t : Token} {us : List Token}
    (hchain : ChainFollows ending us) (h : us.length ≤ bound) :
    Follows
      (match raiseAt p.chain op t p.depth with
        | .error e => Outcome.fail e p.depth
        | .ok inner =>
          ((chain ending calls ((c, op) :: p.chain) us inner).through ⟨inner, calls⟩).widen h).result
      ending (fun r => ⟨p.groups, [], 0, .behind r.value⟩)
      (p.extend c op t >>= fun q => q.run ending us) := by
  have hlevel : switchLevel (p.chain.head?.map Prod.snd) op = if p.switches op then 1 else 0 :=
    switchLevel_before p op
  unfold extend raiseAt
  rw [hlevel]
  cases hswitches : p.switches op with
  | false =>
    refine follows_widen ?_
    exact hchain calls ⟨p.groups, (c, op) :: p.chain, p.depth, .operand 0⟩ rfl
  | true =>
    rw [descend_eq_map_raise]
    cases raise t p.depth with
    | error e => exact rfl
    | ok inner =>
      refine follows_widen ?_
      exact hchain calls ⟨p.groups, (c, op) :: p.chain, inner, .operand 0⟩ rfl

theorem chainFollows_of_shorter (hoperand : OperandFollows ending ts)
    (hchain : ∀ us, us.length < ts.length → ChainFollows ending us) : ChainFollows ending ts := by
  intro calls p hplace
  rw [chain]
  refine follows_andThen (hoperand calls 0 p hplace) fun r hr => ?_
  rw [depth_operand hr]
  obtain ⟨c, _ | ⟨t, us⟩, shorter⟩ := r
  · cases ending with
    | broken e => exact rfl
    | endOfInput n => exact run_behind_congr rfl rfl rfl rfl nofun
  · by_cases hconnective : ∃ op, t.kind = .connective op
    · obtain ⟨op, hk⟩ := hconnective
      have hstep : Reading.step { p with place := .behind c } t =
          Reading.extend { p with place := .behind c } c op t := by
        unfold step
        rw [hk]
      rw [run_cons, hstep]
      simp only [hk]
      exact follows_connective (p := { p with place := .behind c })
        (hchain us (Nat.lt_of_succ_lt shorter)) _
    · have hnot : ∀ op, t.kind ≠ .connective op := not_exists.mp hconnective
      have hrest : ∀ u ∈ (t :: us).head?, ∀ op, u.kind ≠ .connective op := by simpa using hnot
      have hcongr : Reading.run { p with place := .behind c } ending (t :: us) =
          Reading.run ⟨p.groups, [], 0, .behind (p.chain.close c)⟩ ending (t :: us) :=
        run_behind_congr rfl rfl rfl rfl hrest
      cases hk : t.kind with
      | connective op => exact absurd hk (hnot op)
      | _ =>
        simp only [hk]
        exact hcongr

theorem follows (ending : Ending) (ts : List Token) :
    OperandFollows ending ts ∧ ChainFollows ending ts := by
  -- A chain starts with an operand of the same tokens, so the operand is shown for a length first.
  induction h : ts.length using Nat.strongRecOn generalizing ts with
  | ind n ih =>
    subst h
    have hoperand : OperandFollows ending ts :=
      operandFollows_of_shorter (fun us h => (ih _ h us rfl).1) (fun us h => (ih _ h us rfl).2)
    exact ⟨hoperand, chainFollows_of_shorter hoperand (fun us h => (ih _ h us rfl).2)⟩

/-- The words in front of a condition are read as the tokens are taken there. -/
theorem follows_words (ws : List Keyword) (p : Reading) (hplace : p.place = atKeywords ws)
    (ts : List Token) :
    Follows ((take ending (words ws) ts).mapError .error) ending
      (fun _ => { p with place := .operand 0 }) (p.run ending ts) := by
  induction ws generalizing p ts with
  | nil =>
    obtain ⟨groups, chain, depth, place⟩ := p
    obtain rfl : place = .operand 0 := hplace
    exact rfl
  | cons w ws ih =>
    cases ts with
    | nil =>
      have hfinish : p.finish = .error (.token (.keyword w)) := by
        rw [finish, hplace]
        rfl
      exact conclude_of_finish_error hfinish
    | cons t ts =>
      by_cases hk : t.kind = .keyword w
      · have hwords : take ending (words (w :: ws)) (t :: ts) =
            (take ending (words ws) ts).map (·.widen (Nat.le_succ _)) := by
          simp only [words, Reader.expect, Reader.want, bind, Reader.bind, take, hk, if_true]
        have h := ih { p with place := atKeywords ws } rfl ts
        rw [run_of_step_ok ((step_keyword_iff hplace).mpr ⟨hk, rfl⟩), hwords]
        cases htake : take ending (words ws) ts <;> rw [htake] at h <;> exact h
      · have hstep : p.step t = .error (unexpected (.token (.keyword w)) (.token t)) := by
          unfold step
          rw [hplace]
          exact if_neg hk
        rw [run_of_step_error hstep]
        simp only [words, Reader.expect, Reader.want, bind, Reader.bind, take, hk, if_false]
        exact rfl

theorem atEnd_eq {r : Read Condition n} (hrest : ∀ t ∈ r.rest.head?, ∀ op, t.kind ≠ .connective op) :
    atEnd ending r = (Reading.run ⟨[], [], 0, .behind r.value⟩ ending r.rest).mapError .error := by
  obtain ⟨c, _ | ⟨t, ts⟩, shorter⟩ := r
  · cases ending <;> rfl
  · have hstep : Reading.step ⟨[], [], 0, .behind c⟩ t = reject .endOfInput t := by
      rw [step_behind_eq rfl (hrest t rfl)]
      exact ite_self _
    rw [run_of_step_error hstep]
    rfl

/-- Reading by calls gives what reading token by token gives. -/
theorem result_query (s : Scan) : (query s).1 = s.condition.mapError .error := by
  have hwords : Follows ((take s.ending (words [.query, .requests, .whereClause]) s.tokens).mapError
      .error) s.ending (fun _ => ⟨[], [], 0, .operand 0⟩) s.condition :=
    follows_words [.query, .requests, .whereClause] start rfl s.tokens
  unfold query
  cases htake : take s.ending (words [.query, .requests, .whereClause]) s.tokens with
  | error e =>
    rw [htake] at hwords
    rw [show s.condition = .error e from hwords]
    rfl
  | ok r =>
    rw [htake] at hwords
    rw [show s.condition = run ⟨[], [], 0, .operand 0⟩ s.ending r.rest from hwords]
    have hcondition : Follows (condition s.ending 0 r.rest 0).result s.ending
        (fun x => ⟨[], [], 0, .behind x.value⟩) (run ⟨[], [], 0, .operand 0⟩ s.ending r.rest) := by
      rw [result_condition]
      exact (follows s.ending r.rest).2 1 ⟨[], [], 0, .operand 0⟩ rfl
    cases hx : (condition s.ending 0 r.rest 0).result with
    | error stop =>
      rw [hx] at hcondition
      cases stop with
      | error e =>
        rw [show run ⟨[], [], 0, .operand 0⟩ s.ending r.rest = .error e from hcondition]
        simp only [hx]
        rfl
      | underflow => exact hcondition.elim
    | ok x =>
      rw [hx] at hcondition
      rw [show run ⟨[], [], 0, .operand 0⟩ s.ending r.rest =
        run ⟨[], [], 0, .behind x.value⟩ s.ending x.rest from hcondition]
      simp only [hx]
      exact atEnd_eq (rest_chain (result_condition ▸ hx))

end Descent
end TrafficQuery
