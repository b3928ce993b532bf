import TrafficQuery.Proofs.Query.Acceptance
import TrafficQuery.Proofs.Query.Resemblance

/-!
# Readings that agree

Tokens that resemble each other are read in the same way: step by step both readings go on, or both fail
with errors that resemble each other. So two texts with such tokens are both read, to conditions of the
same shape, or both refused.
-/

namespace TrafficQuery
open Grammar

/-! ## Two computations -/

section
universe u
variable {ε α β α' β' γ δ : Type u} {E : ε → ε → Prop} {V : α → α' → Prop} {W : β → β' → Prop}

/-- Both computations fail, with related errors, or both give values, which are related. -/
inductive Agree (E : ε → ε → Prop) (V : α → α' → Prop) : Except ε α → Except ε α' → Prop
  | ok {a : α} {a' : α'} : V a a' → Agree E V (.ok a) (.ok a')
  | error {e e' : ε} : E e e' → Agree E V (.error e) (.error e')

theorem Agree.bind {x : Except ε α} {x' : Except ε α'} {g : α → Except ε β} {g' : α' → Except ε β'}
    (h : Agree E V x x') (hg : ∀ a a', V a a' → Agree E W (g a) (g' a')) :
    Agree E W (x >>= g) (x' >>= g') := by
  cases h with
  | ok ha => exact hg _ _ ha
  | error he => exact .error he

theorem Agree.map {x : Except ε α} {x' : Except ε α'} {g : α → β} {g' : α' → β'} (h : Agree E V x x')
    (hg : ∀ a a', V a a' → W (g a) (g' a')) : Agree E W (x.map g) (x'.map g') := by
  cases h with
  | ok ha => exact .ok (hg _ _ ha)
  | error he => exact .error he

theorem Agree.foldlM {R : γ → δ → Prop} {g : α → γ → Except ε α} {g' : α' → δ → Except ε α'}
    (hg : ∀ a a' c d, V a a' → R c d → Agree E V (g a c) (g' a' d)) {cs : List γ} {ds : List δ}
    (hcs : List.Forall₂ R cs ds) {a : α} {a' : α'} (ha : V a a') :
    Agree E V (cs.foldlM g a) (ds.foldlM g' a') := by
  induction hcs generalizing a a' with
  | nil => exact .ok ha
  | cons hc _ ih =>
    rw [List.foldlM_cons, List.foldlM_cons]
    exact (hg _ _ _ _ ha hc).bind fun _ _ hv => ih hv

end

/-! ## Errors -/

variable {f : String → String} {P : Nat → Nat → Prop}

/-- One fault of the scan, with texts that `f` takes for the same. -/
inductive LexFault.Resembles (f : String → String) : LexFault → LexFault → Prop
  | invalidToken {s t : String} : f s = f t → Resembles f (.invalidToken s) (.invalidToken t)
  | unterminatedString : Resembles f .unterminatedString .unterminatedString
  | invalidDuration {s t : String} : f s = f t → Resembles f (.invalidDuration s) (.invalidDuration t)
  | invalidNumber {s t : String} : f s = f t → Resembles f (.invalidNumber s) (.invalidNumber t)

/-- One fault, with words of the source that `f` takes for the same. -/
inductive Fault.Resembles (f : String → String) : Fault → Fault → Prop
  | lex {fault fault' : LexFault} : fault.Resembles f fault' → Resembles f (.lex fault) (.lex fault')
  | unexpectedToken {expected : Expected} {k k' : Kind} : k.Resembles f k' →
      Resembles f (.unexpectedToken expected k) (.unexpectedToken expected k')
  | unexpectedEnd (expected : Expected) :
      Resembles f (.unexpectedEnd expected) (.unexpectedEnd expected)
  | unknownOperator {field : Field} {s t : String} : f s = f t →
      Resembles f (.unknownOperator field s) (.unknownOperator field t)
  | invalidValue {field : Field} {k k' : Kind} : k.Resembles f k' →
      Resembles f (.invalidValue field k) (.invalidValue field k')
  | unknownMethod {s t : String} : f s = f t → Resembles f (.unknownMethod s) (.unknownMethod t)
  | unknownField {side : Side} {s t : String} : f s = f t →
      Resembles f (.unknownField (side.qualified s)) (.unknownField (side.qualified t))
  | nestingTooDeep : Resembles f .nestingTooDeep .nestingTooDeep

/-- Errors with faults that resemble each other, at related places. -/
structure ParseError.Resembles (f : String → String) (P : Nat → Nat → Prop) (e e' : ParseError) :
    Prop where
  fault : e.fault.Resembles f e'.fault
  place : P e.position e'.position

theorem LexFault.Resembles.eq (hf : Function.Injective f) {fault fault' : LexFault}
    (h : fault.Resembles f fault') : fault' = fault := by
  cases h with
  | invalidToken hs | invalidDuration hs | invalidNumber hs => rw [hf hs]
  | unterminatedString => rfl

theorem Fault.Resembles.eq (hf : Function.Injective f) {fault fault' : Fault}
    (h : fault.Resembles f fault') : fault' = fault := by
  cases h with
  | lex h => rw [h.eq hf]
  | unexpectedToken hk | invalidValue hk => rw [hk.eq_of_injective hf]
  | unknownOperator hs | unknownMethod hs | unknownField hs => rw [hf hs]
  | unexpectedEnd | nestingTooDeep => rfl

/-- Scans that end at related places, both at the end or both with one fault. -/
inductive Ending.Resembles (f : String → String) (P : Nat → Nat → Prop) : Ending → Ending → Prop
  | endOfInput {n m : Nat} : P n m → Resembles f P (.endOfInput n) (.endOfInput m)
  | broken {e e' : LexError} : e.fault.Resembles f e'.fault → P e.position e'.position →
      Resembles f P (.broken e) (.broken e')

theorem Token.Resembles.unexpected {t u : Token} (h : t.Resembles f P u) (expected : Expected) :
    (unexpected expected (.token t)).Resembles f P (unexpected expected (.token u)) :=
  ⟨.unexpectedToken h.kind, h.place⟩

theorem Kind.Resembles.fieldOp_eq {k k' : Kind} (h : k.Resembles f k') :
    FieldOp.ofKind? k = FieldOp.ofKind? k' := by
  cases h <;> rfl

/-! ## Readers -/

namespace Reader
variable {α α' β β' : Type} {V : α → α' → Prop} {W : β → β' → Prop}

/-- Two readers that need the same tokens, and from tokens that resemble each other come to values that
are related or to errors that resemble each other. -/
inductive Resembles (f : String → String) (P : Nat → Nat → Prop) {α α' : Type} (V : α → α' → Prop) :
    Reader α → Reader α' → Prop
  | done {a : α} {a' : α'} : V a a' → Resembles f P V (.done a) (.done a')
  | fail {e e' : ParseError} : e.Resembles f P e' → Resembles f P V (.fail e) (.fail e')
  | next {expected : Expected} {take : Token → Reader α} {take' : Token → Reader α'} :
      (∀ t u, t.Resembles f P u → Resembles f P V (take t) (take' u)) →
      Resembles f P V (.next expected take) (.next expected take')

theorem Resembles.bind {r : Reader α} {r' : Reader α'} {g : α → Reader β} {g' : α' → Reader β'}
    (h : r.Resembles f P V r') (hg : ∀ a a', V a a' → (g a).Resembles f P W (g' a')) :
    (r >>= g).Resembles f P W (r' >>= g') := by
  induction h with
  | done ha => exact hg _ _ ha
  | fail he => exact .fail he
  | next _ ih => exact .next ih

/-- Two readers of which only the errors matter. -/
abbrev Agrees (f : String → String) (P : Nat → Nat → Prop) (r : Reader α) (r' : Reader α') : Prop :=
  r.Resembles f P (fun _ _ => True) r'

theorem agrees_pure (a : α) (a' : α') : (pure a : Reader α).Agrees f P (pure a' : Reader α') :=
  .done trivial

theorem agrees_want (expected : Expected) {accept : Kind → Option α}
    (h : ∀ k k', k.Resembles f k' → (accept k).isSome = (accept k').isSome) :
    (want expected accept).Agrees f P (want expected accept) := by
  refine .next fun t u htu => ?_
  have hsome := h _ _ htu.kind
  cases ht : accept t.kind <;> cases hu : accept u.kind <;> rw [ht, hu] at hsome
  · exact .fail (htu.unexpected expected)
  · cases hsome
  · cases hsome
  · exact .done trivial

theorem agrees_expect (kind : Kind) (hkind : kind.carriesWord = false) :
    (expect kind).Agrees f P (expect kind) := by
  refine agrees_want _ fun k k' h => ?_
  have hiff : k = kind ↔ k' = kind := by
    cases h with
    | same => rfl
    | _ =>
      constructor <;> rintro rfl <;> cases hkind
  simp only [hiff]

theorem agrees_string : string.Agrees f P string :=
  agrees_want _ fun _ _ h => by cases h <;> rfl

theorem agrees_number : number.Agrees f P number :=
  agrees_want _ fun _ _ h => by cases h <;> rfl

theorem agrees_duration : duration.Agrees f P duration :=
  agrees_want _ fun _ _ h => by cases h <;> rfl

theorem agrees_headerName : headerName.Agrees f P headerName :=
  agrees_want _ fun _ _ h => by cases h <;> rfl

theorem resembles_operator (field : Field) (meaning : FieldOp → Option α) :
    (operator field meaning).Resembles f P Eq (operator field meaning) := by
  refine .next fun t u htu => ?_
  rw [htu.kind.fieldOp_eq]
  split
  · exact .fail (htu.unexpected _)
  · split
    · exact .done rfl
    · exact .fail ⟨.unknownOperator htu.lexeme, htu.place⟩

theorem agrees_idValue : idValue.Agrees f P idValue := by
  refine .next fun t u htu => ?_
  have hkind := htu.kind
  have hplace := htu.place
  rcases t with ⟨k, start, lexeme⟩
  rcases u with ⟨k', start', lexeme'⟩
  cases hkind with
  | same =>
    cases k with
    | uuid | number | string => exact .done trivial
    | _ => exact .fail ⟨.invalidValue (.same _), hplace⟩
  | uuid => exact .done trivial
  | identifier hs => exact .fail ⟨.invalidValue (.identifier hs), hplace⟩
  | headerName hs => exact .fail ⟨.invalidValue (.headerName hs), hplace⟩

variable (hf : ∀ s t, f s = f t → Text.lower s = Text.lower t)

section
include hf

theorem agrees_ofText {s s' : String} {n n' : Nat} (hs : f s = f s') (hplace : P n n') :
    Agrees f P
      (match Method.ofText? s with
        | some m => .done m
        | none => .fail ⟨.unknownMethod s, n⟩)
      (match Method.ofText? s' with
        | some m => .done m
        | none => .fail ⟨.unknownMethod s', n'⟩) := by
  rw [Method.ofText?, Method.ofText?, Text.upper_eq_of_lower_eq (hf _ _ hs)]
  split
  · exact .done trivial
  · exact .fail ⟨.unknownMethod hs, hplace⟩

theorem agrees_methodValue : methodValue.Agrees f P methodValue := by
  refine .next fun t u htu => ?_
  have hkind := htu.kind
  have hplace := htu.place
  rcases t with ⟨k, start, lexeme⟩
  rcases u with ⟨k', start', lexeme'⟩
  cases hkind with
  | same =>
    cases k with
    | identifier s | string s => exact agrees_ofText hf rfl hplace
    | _ => exact .fail ⟨.invalidValue (.same _), hplace⟩
  | identifier hs => exact agrees_ofText hf hs hplace
  | headerName hs => exact .fail ⟨.invalidValue (.headerName hs), hplace⟩
  | uuid hs => exact .fail ⟨.invalidValue (.uuid hs), hplace⟩

end

theorem agrees_timestamp : timestamp.Agrees f P timestamp :=
  (resembles_operator _ _).bind fun _ _ _ => agrees_duration.bind fun _ _ _ =>
    (agrees_expect _ rfl).bind fun _ _ _ => agrees_pure _ _

theorem agrees_id : Reader.id.Agrees f P Reader.id :=
  (resembles_operator _ _).bind fun _ _ _ => agrees_idValue.bind fun _ _ _ => agrees_pure _ _

theorem agrees_method (hf : ∀ s t, f s = f t → Text.lower s = Text.lower t) :
    method.Agrees f P method :=
  (resembles_operator _ _).bind fun _ _ _ => (agrees_methodValue hf).bind fun _ _ _ => agrees_pure _ _

theorem agrees_headerMatch (side : Side) : (headerMatch side).Agrees f P (headerMatch side) := by
  refine (resembles_operator _ _).bind fun op _ heq => ?_
  subst heq
  cases op with
  | none => exact agrees_pure _ _
  | some op => exact agrees_string.bind fun _ _ _ => agrees_pure _ _

theorem agrees_header (side : Side) (mark mark' : Nat) :
    (header side mark).Agrees f P (header side mark') :=
  (agrees_expect _ rfl).bind fun _ _ _ => agrees_headerName.bind fun _ _ _ =>
    (agrees_headerMatch side).bind fun _ _ _ => agrees_pure _ _

theorem agrees_body (side : Side) : (body side).Agrees f P (body side) :=
  (resembles_operator _ _).bind fun _ _ _ => agrees_string.bind fun _ _ _ => agrees_pure _ _

theorem agrees_path : path.Agrees f P path :=
  (resembles_operator _ _).bind fun _ _ _ => agrees_string.bind fun _ _ _ => agrees_pure _ _

theorem agrees_raw (side : Side) (mark mark' : Nat) : (raw side mark).Agrees f P (raw side mark') :=
  (resembles_operator _ _).bind fun _ _ _ => agrees_string.bind fun _ _ _ => agrees_pure _ _

theorem agrees_status : status.Agrees f P status :=
  (resembles_operator _ _).bind fun _ _ _ => agrees_number.bind fun _ _ _ => agrees_pure _ _

include hf

theorem agrees_fieldOfResponse {s s' : String} {n n' mark mark' : Nat} (hs : f s = f s')
    (hplace : P n n') : Agrees f P
      (match Text.lower s with
        | "status" => status
        | "header" => header .response mark
        | "body" => body .response
        | "raw" => raw .response mark
        | _ => .fail ⟨.unknownField (Side.response.qualified s), n⟩)
      (match Text.lower s' with
        | "status" => status
        | "header" => header .response mark'
        | "body" => body .response
        | "raw" => raw .response mark'
        | _ => .fail ⟨.unknownField (Side.response.qualified s'), n'⟩) := by
  rw [hf _ _ hs]
  split
  · exact agrees_status
  · exact agrees_header _ _ _
  · exact agrees_body _
  · exact agrees_raw _ _ _
  · exact .fail ⟨.unknownField hs, hplace⟩

theorem agrees_responseField (mark mark' : Nat) :
    (responseField mark).Agrees f P (responseField mark') := by
  refine .next fun t u htu => ?_
  have hkind := htu.kind
  have hplace := htu.place
  have hunexpected := htu.unexpected .responseField
  rcases t with ⟨k, start, lexeme⟩
  rcases u with ⟨k', start', lexeme'⟩
  cases hkind with
  | same =>
    cases k with
    | identifier s => exact agrees_fieldOfResponse hf rfl hplace
    | _ => exact .fail hunexpected
  | identifier hs => exact agrees_fieldOfResponse hf hs hplace
  | headerName | uuid => exact .fail hunexpected

theorem agrees_response (mark mark' : Nat) : (response mark).Agrees f P (response mark') :=
  (agrees_expect _ rfl).bind fun _ _ _ => agrees_responseField hf mark mark'

/-- What follows a field name does not depend on the spelling or the place of the name, but in errors. -/
theorem agrees_field {s s' : String} {n n' : Nat} (hs : f s = f s') (hn : P n n') :
    (field s n).Agrees f P (field s' n') := by
  have hunknown : Fault.Resembles f (.unknownField s) (.unknownField s') :=
    @Fault.Resembles.unknownField f .request s s' hs
  unfold field
  rw [hf _ _ hs]
  split
  · exact agrees_timestamp
  · exact agrees_id
  · exact agrees_method hf
  · exact agrees_header _ _ _
  · exact agrees_body _
  · exact agrees_path
  · exact agrees_raw _ _ _
  · exact agrees_response hf _ _
  · exact agrees_response hf _ _
  · exact .fail ⟨hunknown, hn⟩

end Reader

/-! ## Readings -/

/-- The connectives of the chain around a group, and the levels that are open there. -/
def Group.levels (g : Group) : List Connective × Nat := (g.chain.map Prod.snd, g.depth)

/-- Two places at which the same tokens can go on. -/
inductive Place.Resembles (f : String → String) (P : Nat → Nat → Prop) : Place → Place → Prop
  | keyword {word : Keyword} {others : List Keyword} :
      Resembles f P (.keyword word others) (.keyword word others)
  | operand {n m : Nat} : Resembles f P (.operand n) (.operand m)
  | field {n m : Nat} {expected : Expected} {take take' : Token → Reader Test} :
      (∀ t u, t.Resembles f P u → (take t).Agrees f P (take' u)) →
      Resembles f P (.field n expected take) (.field m expected take')
  | behind {x y : Condition} : Resembles f P (.behind x) (.behind y)

namespace Reading

/-- Two readings that go on with the same tokens, with the same levels open. -/
structure Resembles (f : String → String) (P : Nat → Nat → Prop) (p p' : Reading) : Prop where
  groups : p.groups.map Group.levels = p'.groups.map Group.levels
  chain : p.chain.map Prod.snd = p'.chain.map Prod.snd
  depth : p.depth = p'.depth
  place : p.place.Resembles f P p'.place

/-- Both readings go on, or both fail. -/
abbrev Agrees (f : String → String) (P : Nat → Nat → Prop) :
    Except ParseError Reading → Except ParseError Reading → Prop :=
  Agree (ParseError.Resembles f P) (Reading.Resembles f P)

variable {p p' : Reading} {t u : Token}

theorem agrees_reject (htu : t.Resembles f P u) (expected : Expected) :
    Agrees f P (reject expected t) (reject expected u) :=
  .error (htu.unexpected expected)

theorem agrees_descend (h : p.Resembles f P p') (htu : t.Resembles f P u) :
    Agrees f P (p.descend t) (p'.descend u) := by
  unfold descend
  rw [h.depth]
  split
  · exact .ok ⟨h.groups, h.chain, rfl, h.place⟩
  · exact .error ⟨.nestingTooDeep, htu.place⟩

theorem agrees_advance (h : p.Resembles f P p') {r r' : Reader Test} (hr : r.Agrees f P r') (n m : Nat) :
    Agrees f P (p.advance n r) (p'.advance m r') := by
  cases hr with
  | done => exact .ok ⟨h.groups, h.chain, h.depth, .behind⟩
  | fail he => exact .error he
  | next htake => exact .ok ⟨h.groups, h.chain, h.depth, .field htake⟩

theorem agrees_openGroup (h : p.Resembles f P p') (htu : t.Resembles f P u) (n m : Nat) :
    Agrees f P (p.openGroup n t) (p'.openGroup m u) := by
  refine (agrees_descend h htu).bind fun q q' hq => .ok ⟨?_, rfl, hq.depth, .operand⟩
  have hlevels : Group.levels ⟨p.chain, n, p.depth⟩ = Group.levels ⟨p'.chain, m, p'.depth⟩ := by
    rw [Group.levels, Group.levels, h.chain, h.depth]
  rw [List.map_cons, List.map_cons, hlevels, h.groups]

theorem switches_eq (h : p.chain.map Prod.snd = p'.chain.map Prod.snd) (op : Connective) :
    p.switches op = p'.switches op := by
  rcases p with ⟨_, _ | ⟨⟨x, last⟩, chain⟩, _, _⟩ <;>
    rcases p' with ⟨_, _ | ⟨⟨x', last'⟩, chain'⟩, _, _⟩
  · rfl
  · cases h
  · cases h
  · have hlast : last = last' := (List.cons.inj h).1
    subst hlast
    rfl

theorem agrees_extend (h : p.Resembles f P p') (htu : t.Resembles f P u) (x y : Condition)
    (op : Connective) : Agrees f P (p.extend x op t) (p'.extend y op u) := by
  have hlonger {q q' : Reading} (hq : q.Resembles f P q') : Agrees f P
      (.ok { q with chain := (x, op) :: q.chain, place := .operand 0 })
      (.ok { q' with chain := (y, op) :: q'.chain, place := .operand 0 }) :=
    .ok ⟨hq.groups, congrArg (op :: ·) hq.chain, hq.depth, .operand⟩
  unfold extend
  rw [switches_eq h.chain]
  split
  · exact (agrees_descend h htu).bind fun _ _ => hlonger
  · exact hlonger h

theorem closer_eq (h : p.Resembles f P p') : p.closer = p'.closer := by
  have hempty : p.groups.isEmpty = p'.groups.isEmpty := by
    rw [← List.isEmpty_map (f := Group.levels), h.groups, List.isEmpty_map]
  rw [closer, closer, hempty]

theorem agrees_closeGroup (h : p.Resembles f P p') (htu : t.Resembles f P u) (x y : Condition) :
    Agrees f P (p.closeGroup x t) (p'.closeGroup y u) := by
  have hcloser := closer_eq h
  have hgroups := h.groups
  unfold closeGroup
  cases hp : p.groups <;> cases hp' : p'.groups <;> rw [hp, hp'] at hgroups
  · rw [hcloser]
    exact agrees_reject htu _
  · cases hgroups
  · cases hgroups
  · obtain ⟨hlevels, hgroups⟩ := List.cons.inj hgroups
    obtain ⟨hchain, hdepth⟩ := Prod.mk.inj hlevels
    exact .ok ⟨hgroups, hchain, hdepth, .behind⟩

/-- One step of two readings that resemble each other, with tokens that do. -/
theorem agrees_step (hf : ∀ s t, f s = f t → Text.lower s = Text.lower t) (h : p.Resembles f P p')
    (htu : t.Resembles f P u) : Agrees f P (p.step t) (p'.step u) := by
  have hreject := agrees_reject htu
  have hadvance {n m : Nat} {r r' : Reader Test} (hr : r.Agrees f P r') := agrees_advance h hr n m
  have hname {s s' : String} (hs : f s = f s') := Reader.agrees_field hf hs htu.place
  have hopen := agrees_openGroup h htu
  have hextend := agrees_extend h htu
  have hclose := agrees_closeGroup h htu
  have hcloser := closer_eq h
  have hkind := htu.kind
  obtain ⟨hgroups, hchain, hdepth, hplace⟩ := h
  unfold step
  generalize p.place = place at hplace
  generalize p'.place = place' at hplace
  generalize t.kind = k at hkind
  generalize u.kind = k' at hkind
  cases hplace with
  | @keyword word others =>
    have hiff : k = .keyword word ↔ k' = .keyword word := by
      cases hkind with
      | same => rfl
      | _ => constructor <;> rintro ⟨⟩
    simp only [hiff]
    split
    · cases others <;> exact .ok ⟨hgroups, hchain, hdepth, by constructor⟩
    · exact hreject _
  | operand =>
    cases hkind with
    | same k =>
      cases k with
      | not => exact .ok ⟨hgroups, hchain, hdepth, .operand⟩
      | paren side =>
        cases side with
        | opening => exact hopen _ _
        | closing => exact hreject _
      | identifier s => exact hadvance (hname rfl)
      | _ => exact hreject _
    | identifier hs => exact hadvance (hname hs)
    | headerName | uuid => exact hreject _
  | field htake => exact hadvance (htake t u htu)
  | behind =>
    rw [hcloser]
    cases hkind with
    | same k =>
      cases k with
      | connective op => exact hextend _ _ op
      | paren side =>
        cases side with
        | opening => exact hreject _
        | closing => exact hclose _ _
      | _ => exact hreject _
    | _ => exact hreject _

/-- At the end both readings have a condition, or both lack the same. -/
theorem agrees_conclude (h : p.Resembles f P p') {ending ending' : Ending}
    (hending : ending.Resembles f P ending') :
    Agree (ParseError.Resembles f P) (fun _ _ => True) (p.conclude ending) (p'.conclude ending') := by
  have hcloser := closer_eq h
  have hempty : p.groups.isEmpty = p'.groups.isEmpty := by
    rw [← List.isEmpty_map (f := Group.levels), h.groups, List.isEmpty_map]
  cases hending with
  | broken hfault hplace => exact .error ⟨.lex hfault, hplace⟩
  | endOfInput hn =>
    have hplace := h.place
    unfold conclude finish
    generalize p.place = place at hplace
    generalize p'.place = place' at hplace
    cases hplace with
    | behind =>
      rw [hcloser, hempty]
      cases p'.groups.isEmpty with
      | true => exact .ok trivial
      | false => exact .error ⟨.unexpectedEnd _, hn⟩
    | _ => exact .error ⟨.unexpectedEnd _, hn⟩

end Reading

/-! ## Texts -/

section
variable (hf : ∀ s t, f s = f t → Text.lower s = Text.lower t)
include hf

theorem Scan.agrees_condition {s s' : Scan}
    (htokens : List.Forall₂ (Token.Resembles f P) s.tokens s'.tokens)
    (hending : s.ending.Resembles f P s'.ending) :
    Agree (ParseError.Resembles f P) (fun _ _ => True) s.condition s'.condition := by
  have hstart : Reading.start.Resembles f P Reading.start := ⟨rfl, rfl, rfl, .keyword⟩
  have hstep (p p' : Reading) (t u : Token) (h : p.Resembles f P p') (htu : t.Resembles f P u) :=
    Reading.agrees_step hf h htu
  exact (Agree.foldlM hstep htokens hstart).bind fun p p' hp => Reading.agrees_conclude hp hending

/-- The condition of a query and that of another, whose tokens resemble its own. -/
def Query.Resembles (f : String → String) (P : Nat → Nat → Prop) (source : String) (q q' : Query) :
    Prop :=
  q'.operation = q.operation ∧ ∃ fields, Fields (scan source).tokens fields ∧
    fields.map Prod.snd = q.root.tests ∧ q.root.Resembles f P (fields.map Prod.fst) q'.root

/-- Texts whose tokens resemble each other are both read, or both refused. -/
theorem agree_parse {source source' : String}
    (htokens : List.Forall₂ (Token.Resembles f P) (scan source).tokens (scan source').tokens)
    (hending : (scan source).ending.Resembles f P (scan source').ending) :
    Agree (ParseError.Resembles f P) (Query.Resembles f P source) (parse source) (parse source') := by
  have hagree := Scan.agrees_condition hf htokens hending
  unfold parse
  generalize hx : (scan source).condition = x at hagree
  generalize hx' : (scan source').condition = x' at hagree
  cases hagree with
  | error he => exact .error he
  | @ok c c' =>
    obtain ⟨-, depth, hle, h⟩ := Scan.condition_eq_ok_iff.mp hx
    obtain ⟨c'', fields, h', hfields, htests, hc⟩ := h.exists_resembling hf htokens
    obtain ⟨hend, -⟩ := Scan.condition_eq_ok_iff.mp hx'
    have hsame := Scan.condition_eq_ok_iff.mpr ⟨hend, depth, hle, h'⟩
    obtain rfl := Except.ok.inj (hx'.symm.trans hsame)
    exact .ok ⟨rfl, fields, hfields, htests, hc⟩

end
end TrafficQuery
