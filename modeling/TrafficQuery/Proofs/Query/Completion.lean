import TrafficQuery.Proofs.Query.Reading
import TrafficQuery.Proofs.Token.Words

/-!
# What has been read can be completed

A reading that has come to a place without an error can go on from there to a good end, whatever the
nesting: a field is completed, and open parentheses are closed. A token that is refused is the one that
the error names.
-/

namespace TrafficQuery
open Grammar

/-- A fault that a token has, and neither the scan nor the end of the input. -/
def Fault.isOfToken : Fault → Bool
  | .lex _ | .unexpectedEnd _ => false
  | _ => true

/-- The error is a fault of the token that starts at a byte. -/
def ParseError.BlamesTokenAt (e : ParseError) (start : Nat) : Prop :=
  e.position = start ∧ e.fault.isOfToken = true

/-! ## Readers -/

namespace Reader
variable {α β : Type}

/-- Some tokens that can be written lead the reader to a value. -/
def Completable (r : Reader α) : Prop :=
  ∃ ts a, (∀ t ∈ ts, t.kind.Spelled) ∧ r.Takes ts a

/-- Behind a token that starts at a byte, the reader has failed because of this token, but not because of
the nesting, or it can be completed, and so on behind every token that it takes. -/
def Guided : Reader α → Nat → Prop
  | .done _, _ => True
  | .fail e, start => e.BlamesTokenAt start ∧ e.fault ≠ .nestingTooDeep
  | .next expected take, _ => Completable (.next expected take) ∧ ∀ t, (take t).Guided t.start

/-- A reader that no token has failed yet. -/
def Sound (r : Reader α) : Prop := r.Completable ∧ ∀ start, r.Guided start

theorem Completable.bind {r : Reader α} {f : α → Reader β} (h : r.Completable)
    (hf : ∀ a, (f a).Completable) : (r >>= f).Completable := by
  obtain ⟨us, a, hus, htakes⟩ := h
  obtain ⟨vs, b, hvs, htakes'⟩ := hf a
  refine ⟨us ++ vs, b, fun t ht => ?_, takes_bind htakes htakes'⟩
  exact (List.mem_append.mp ht).elim (hus t) (hvs t)

theorem Guided.bind {r : Reader α} {f : α → Reader β} {start : Nat} (h : r.Guided start)
    (hf : ∀ a, (f a).Sound) : (r >>= f).Guided start := by
  induction r generalizing start with
  | done a => exact (hf a).2 start
  | fail e => exact h
  | next expected take ih => exact ⟨h.1.bind fun a => (hf a).1, fun t => ih t (h.2 t)⟩

theorem Sound.bind {r : Reader α} {f : α → Reader β} (h : r.Sound) (hf : ∀ a, (f a).Sound) :
    (r >>= f).Sound :=
  ⟨h.1.bind fun a => (hf a).1, fun start => (h.2 start).bind hf⟩

theorem sound_pure (a : α) : (pure a : Reader α).Sound :=
  ⟨⟨[], a, by simp, .done⟩, fun _ => trivial⟩

/-- A reader of one token, which fails only because of that token. -/
theorem sound_next {expected : Expected} {take : Token → Reader α} {k : Kind} (hk : k.Spelled)
    (hdone : (take k.token).Completable) (htake : ∀ t, (take t).Guided t.start) :
    (Reader.next expected take).Sound := by
  obtain ⟨ts, a, hts, htakes⟩ := hdone
  have hcompletable : (Reader.next expected take).Completable :=
    ⟨_ :: ts, a, List.forall_mem_cons.mpr ⟨hk, hts⟩, .next htakes⟩
  exact ⟨hcompletable, fun _ => ⟨hcompletable, htake⟩⟩

theorem completable_done (a : α) : (Reader.done a).Completable := (sound_pure a).1

theorem sound_want {expected : Expected} {accept : Kind → Option α} {k : Kind} {a : α}
    (hk : k.Spelled) (ha : accept k = some a) : (want expected accept).Sound := by
  refine sound_next hk ?_ fun t => ?_
  · simp only [Kind.token, ha]
    exact completable_done a
  · cases accept t.kind with
    | none => exact ⟨⟨rfl, rfl⟩, nofun⟩
    | some b => trivial

theorem sound_expect {k : Kind} (hk : k.Spelled) : (expect k).Sound :=
  sound_want hk (if_pos rfl)

theorem sound_operator (field : Field) (meaning : FieldOp → Option α) {k : Kind} {op : FieldOp}
    {a : α} (hk : k.Spelled) (hop : FieldOp.ofKind? k = some op) (ha : meaning op = some a) :
    (operator field meaning).Sound := by
  refine sound_next hk ?_ fun t => ?_
  · simp only [Kind.token, hop, ha]
    exact completable_done a
  · cases FieldOp.ofKind? t.kind with
    | none => exact ⟨⟨rfl, rfl⟩, nofun⟩
    | some op =>
      dsimp only
      cases meaning op with
      | none => exact ⟨⟨rfl, rfl⟩, nofun⟩
      | some b => trivial

/-! ### Fields -/

theorem spelled_empty : (Kind.string "").Spelled :=
  spelled_string_iff.mpr (.inl List.not_mem_nil)

theorem spelled_status : (Kind.identifier "status").Spelled :=
  spelled_of_classify (s := "status") (by decide) (by decide) rfl

theorem spelled_get : (Kind.identifier "get").Spelled :=
  spelled_of_classify (s := "get") (by decide) (by decide) rfl

theorem sound_string : string.Sound := sound_want spelled_empty rfl

theorem sound_number : number.Sound :=
  sound_want (spelled_number_iff.mpr ⟨Int.le_refl 0, by decide⟩) rfl

theorem sound_duration : duration.Sound :=
  sound_want (spelled_duration_iff.mpr ⟨Nat.one_pos, by decide⟩) rfl

theorem sound_headerName : headerName.Sound := sound_want spelled_get rfl

theorem sound_dot : (expect .dot).Sound := sound_expect (spelled_of_fixedWord? rfl)

theorem sound_idValue : idValue.Sound := by
  refine sound_next spelled_empty (completable_done "") fun t => ?_
  split
  case h_4 => exact ⟨⟨rfl, rfl⟩, nofun⟩
  all_goals trivial

theorem guided_ofText (s : String) (start : Nat) :
    (match Method.ofText? s with
      | some m => Reader.done m
      | none => .fail ⟨.unknownMethod s, start⟩).Guided start := by
  cases Method.ofText? s with
  | none => exact ⟨⟨rfl, rfl⟩, nofun⟩
  | some m => trivial

theorem sound_methodValue : methodValue.Sound := by
  refine sound_next spelled_get (completable_done Method.get) fun t => ?_
  split
  case h_1 s _ => exact guided_ofText s t.start
  case h_2 s _ => exact guided_ofText s t.start
  case h_3 => exact ⟨⟨rfl, rfl⟩, nofun⟩

variable {side : Side} {mark : Nat}

theorem spelled_eq : (Kind.order .eq).Spelled := spelled_of_fixedWord? rfl

theorem spelled_contains : Kind.contains.Spelled := spelled_of_fixedWord? rfl

theorem sound_timestamp : timestamp.Sound := by
  refine (sound_operator .timestamp FieldOp.order? spelled_eq rfl rfl).bind fun op => ?_
  refine sound_duration.bind fun ago => ?_
  exact (sound_expect (spelled_of_fixedWord? rfl)).bind fun _ => sound_pure _

theorem sound_id : id.Sound := by
  refine (sound_operator .id FieldOp.equality? spelled_eq rfl rfl).bind fun _ => ?_
  exact sound_idValue.bind fun value => sound_pure _

theorem sound_method : method.Sound := by
  refine (sound_operator .method FieldOp.equality? spelled_eq rfl rfl).bind fun _ => ?_
  exact sound_methodValue.bind fun m => sound_pure _

theorem sound_headerMatch : (headerMatch side).Sound := by
  refine (sound_operator (.header side) FieldOp.headerOp? spelled_eq rfl rfl).bind fun wanted => ?_
  cases wanted with
  | none => exact sound_pure _
  | some op => exact sound_string.bind fun text => sound_pure _

theorem sound_header : (header side mark).Sound := by
  refine sound_dot.bind fun _ => ?_
  refine sound_headerName.bind fun name => ?_
  exact sound_headerMatch.bind fun wanted => sound_pure _

theorem sound_body : (body side).Sound := by
  refine (sound_operator (.body side) FieldOp.bodyOp? spelled_contains rfl rfl).bind fun op => ?_
  exact sound_string.bind fun text => sound_pure _

theorem sound_path : path.Sound := by
  refine (sound_operator .path FieldOp.textOp? spelled_eq rfl rfl).bind fun op => ?_
  exact sound_string.bind fun text => sound_pure _

theorem sound_raw : (raw side mark).Sound := by
  refine (sound_operator (.raw side) FieldOp.containment? spelled_contains rfl rfl).bind fun _ => ?_
  exact sound_string.bind fun text => sound_pure _

theorem sound_status : status.Sound := by
  refine (sound_operator .status FieldOp.order? spelled_eq rfl rfl).bind fun op => ?_
  exact sound_number.bind fun value => sound_pure _

theorem sound_responseField : (responseField mark).Sound := by
  refine sound_next spelled_status sound_status.1 fun t => ?_
  split
  case h_1 name _ =>
    split
    case h_1 => exact sound_status.2 _
    case h_2 => exact sound_header.2 _
    case h_3 => exact sound_body.2 _
    case h_4 => exact sound_raw.2 _
    case h_5 => exact ⟨⟨rfl, rfl⟩, nofun⟩
  case h_2 => exact ⟨⟨rfl, rfl⟩, nofun⟩

theorem sound_response : (response mark).Sound :=
  sound_dot.bind fun _ => sound_responseField

/-- The reader of a field fails at once if the field is unknown, because of its name. -/
theorem guided_field (name : String) (start : Nat) : (field name start).Guided start := by
  unfold field
  split
  case h_1 => exact sound_timestamp.2 _
  case h_2 => exact sound_id.2 _
  case h_3 => exact sound_method.2 _
  case h_4 => exact sound_header.2 _
  case h_5 => exact sound_body.2 _
  case h_6 => exact sound_path.2 _
  case h_7 => exact sound_raw.2 _
  case h_8 => exact sound_response.2 _
  case h_9 => exact sound_response.2 _
  case h_10 => exact ⟨⟨rfl, rfl⟩, nofun⟩

end Reader

/-! ## Readings -/

/-- The field that is being read, if any, can be completed, and so on behind every token. -/
def Place.Guided : Place → Prop
  | .field _ expected take => (Reader.next expected take).Sound
  | _ => True

namespace Reading
variable {p q : Reading} {t : Token} {e : ParseError}

theorem guided_of_advance {n start : Nat} {r : Reader Test} (hr : r.Guided start)
    (h : p.advance n r = .ok q) : q.place.Guided := by
  cases r with
  | done test => cases h; trivial
  | fail e => cases h
  | next expected take =>
    cases h
    exact ⟨hr.1, fun _ => hr⟩

theorem blames_of_advance {n start : Nat} {r : Reader Test} (hr : r.Guided start)
    (h : p.advance n r = .error e) : e.BlamesTokenAt start := by
  cases r with
  | fail e' =>
    obtain rfl := Except.error.inj h
    exact hr.1
  | _ => cases h

theorem blames_of_descend (h : p.descend t = .error e) : e.BlamesTokenAt t.start := by
  unfold descend at h
  split at h <;> cases h
  exact ⟨rfl, rfl⟩

theorem blames_of_reject {α : Type} {expected : Expected}
    (h : (reject expected t : Except ParseError α) = .error e) : e.BlamesTokenAt t.start := by
  cases h
  exact ⟨rfl, rfl⟩

theorem blames_of_openGroup {n : Nat} (h : p.openGroup n t = .error e) :
    e.BlamesTokenAt t.start := by
  rcases bind_eq_error_iff.mp h with hd | ⟨inner, -, hrest⟩
  · exact blames_of_descend hd
  · cases hrest

theorem blames_of_extend {x : Condition} {op : Connective} (h : p.extend x op t = .error e) :
    e.BlamesTokenAt t.start := by
  unfold extend at h
  split at h
  case isTrue =>
    rcases bind_eq_error_iff.mp h with hd | ⟨inner, -, hrest⟩
    · exact blames_of_descend hd
    · cases hrest
  case isFalse => cases h

theorem blames_of_closeGroup {x : Condition} (h : p.closeGroup x t = .error e) :
    e.BlamesTokenAt t.start := by
  unfold closeGroup at h
  split at h
  case h_1 => exact blames_of_reject h
  case h_2 => cases h

/-- A token that is refused is the one that the error names. -/
theorem blames_of_step (h : p.place.Guided) (hstep : p.step t = .error e) :
    e.BlamesTokenAt t.start := by
  unfold step at hstep
  split at hstep
  case h_1 word others _ _ =>
    split at hstep
    case isTrue => split at hstep <;> cases hstep
    case isFalse => exact blames_of_reject hstep
  case h_2 => cases hstep
  case h_3 => exact blames_of_openGroup hstep
  case h_4 n name _ _ => exact blames_of_advance (Reader.guided_field name t.start) hstep
  case h_5 => exact blames_of_reject hstep
  case h_6 n expected take hplace =>
    rw [hplace] at h
    exact blames_of_advance ((h.2 0).2 t) hstep
  case h_7 => exact blames_of_extend hstep
  case h_8 => exact blames_of_closeGroup hstep
  case h_9 => exact blames_of_reject hstep

theorem guided_of_step (h : p.place.Guided) (hstep : p.step t = .ok q) : q.place.Guided := by
  cases hplace : p.place with
  | keyword word others =>
    obtain ⟨-, rfl⟩ := (step_keyword_iff hplace).mp hstep
    cases others <;> trivial
  | operand n =>
    rcases (step_operand_iff hplace).mp hstep with ⟨-, rfl⟩ | ⟨-, hopen⟩ | ⟨text, -, hq⟩
    · trivial
    · obtain ⟨-, rfl⟩ := openGroup_eq_ok_iff.mp hopen
      trivial
    · exact guided_of_advance (Reader.guided_field text t.start) hq
  | field n expected take =>
    rw [hplace] at h
    rw [step_field_eq hplace] at hstep
    exact guided_of_advance ((h.2 0).2 t) hstep
  | behind x =>
    rcases (step_behind_iff hplace).mp hstep with ⟨op, -, hq⟩ | ⟨-, hq⟩
    · obtain ⟨-, rfl⟩ := extend_eq_ok_iff.mp hq
      trivial
    · obtain ⟨_, _, -, rfl⟩ := closeGroup_eq_ok_iff.mp hq
      trivial

theorem guided_of_foldlM {ts : List Token} (h : ts.foldlM step start = .ok p) : p.place.Guided :=
  foldlM_preserves (P := fun p => p.place.Guided) (fun _ _ _ => guided_of_step) trivial h

/-! ## Completion -/

/-- Some tokens that can be written are a good end of the reading. -/
def Completable (p : Reading) : Prop :=
  ∃ ts c, (∀ t ∈ ts, t.kind.Spelled) ∧ p.Ends ts c

/-- A reading can be completed if tokens that can be written lead to one that can. -/
theorem Completable.of_foldlM {ts : List Token} (hts : ∀ t ∈ ts, t.kind.Spelled)
    (h : ts.foldlM step p = .ok q) (hq : q.Completable) : p.Completable := by
  obtain ⟨us, c, hus, r, hr, hc⟩ := hq
  refine ⟨ts ++ us, c, fun t ht => ?_, r, foldlM_append_eq_ok_iff.mpr ⟨q, h, hr⟩, hc⟩
  exact (List.mem_append.mp ht).elim (hts t) (hus t)

/-- Behind an operand the groups are closed from the inside. -/
theorem completable_behind {groups : List Group} {chain : Chain} {depth : Nat} {x : Condition} :
    Completable ⟨groups, chain, depth, .behind x⟩ := by
  induction groups generalizing chain depth x with
  | nil => exact ⟨[], _, by simp, ends_nil_iff.mpr (finish_eq_ok_iff.mpr ⟨x, rfl, rfl, rfl⟩)⟩
  | cons g gs ih =>
    have hclose : (Kind.paren .closing).Spelled := spelled_of_fixedWord? rfl
    have hspelled := spelled_tokens (List.forall_mem_singleton.mpr hclose)
    have hstep : step ⟨g :: gs, chain, depth, .behind x⟩ (Kind.paren .closing).token = .ok _ :=
      (step_behind_iff rfl).mpr (.inr ⟨rfl, closeGroup_eq_ok_iff.mpr ⟨g, gs, rfl, rfl⟩⟩)
    exact ih.of_foldlM hspelled (foldlM_cons_eq_ok_iff.mpr ⟨_, hstep, rfl⟩)

/-- The tokens of a field condition. -/
def someField : List Token := [Kind.identifier "path", .order .eq, .string ""].map Kind.token

theorem isField_someField : IsField someField (.path .equals "") := by
  have hname : IsName (Kind.identifier "path").token "path" := ⟨"path", rfl, rfl⟩
  have hform : Form .path 0 [(Kind.order .eq).token, (Kind.string "").token] (.path .equals "") :=
    .path rfl rfl
  exact ⟨.path, 0, _, _, rfl, .request hname (by decide), hform⟩

theorem spelled_someField : ∀ t ∈ someField, t.kind.Spelled := by
  have hname : (Kind.identifier "path").Spelled :=
    spelled_of_classify (s := "path") (by decide) (by decide) rfl
  exact spelled_tokens (by simp [hname, Reader.spelled_eq, Reader.spelled_empty])

theorem completable_operand {groups : List Group} {chain : Chain} {depth n : Nat} :
    Completable ⟨groups, chain, depth, .operand n⟩ :=
  completable_behind.of_foldlM spelled_someField (foldlM_step_of_isField isField_someField rfl)

theorem completable_keywords {groups : List Group} {chain : Chain} {depth : Nat}
    (words : List Keyword) : Completable ⟨groups, chain, depth, atKeywords words⟩ := by
  induction words with
  | nil => exact completable_operand
  | cons word others ih =>
    have hword : (Kind.keyword word).Spelled := spelled_of_fixedWord? rfl
    have hspelled := spelled_tokens (List.forall_mem_singleton.mpr hword)
    have hstep : step ⟨groups, chain, depth, atKeywords (word :: others)⟩
        (Kind.keyword word).token = .ok _ := (step_keyword_iff rfl).mpr ⟨rfl, rfl⟩
    exact ih.of_foldlM hspelled (foldlM_cons_eq_ok_iff.mpr ⟨_, hstep, rfl⟩)

theorem completable_field {groups : List Group} {chain : Chain} {depth n : Nat}
    {expected : Expected} {take : Token → Reader Test}
    (h : (Reader.next expected take).Completable) :
    Completable ⟨groups, chain, depth, .field n expected take⟩ := by
  obtain ⟨ts, test, hts, htakes⟩ := h
  obtain ⟨q, hq, hrun⟩ :=
    foldlM_step_of_takes htakes n ⟨groups, chain, depth, .field n expected take⟩
  obtain rfl := Except.ok.inj hq
  exact completable_behind.of_foldlM hts hrun

/-- Whatever has been read without an error can be completed. -/
theorem completable (h : p.place.Guided) : p.Completable := by
  rcases p with ⟨groups, chain, depth, place⟩
  cases place with
  | keyword word others => exact completable_keywords (word :: others)
  | operand n => exact completable_operand
  | field n expected take => exact completable_field h.1
  | behind x => exact completable_behind

end Reading

end TrafficQuery
