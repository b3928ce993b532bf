import Mathlib.Data.List.Nodup
import TrafficQuery.Proofs.Query.Completion
import TrafficQuery.Proofs.Query.Kinds

/-!
# Where a query becomes hopeless

The tokens in front of a parse error start some query that is accepted. If the error is at a token, no
accepted query goes on with it. Only a text whose tokens all belong to a query that is not complete yet
is refused for its end.
-/

namespace TrafficQuery
open Text Grammar

/-- A source that is accepted has tokens of these kinds. -/
def Accepted (ks : List Kind) : Prop :=
  ∃ source q, parse source = .ok q ∧ (scan source).tokens.map Token.kind = ks

/-- A source that is accepted starts with tokens of these kinds. -/
def Viable (ks : List Kind) : Prop := ∃ later, Accepted (ks ++ later)

theorem accepted_iff {ts : List Token} : Accepted (ts.map Token.kind) ↔
    (∀ t ∈ ts, t.kind.Spelled) ∧ ∃ c, Reading.start.Ends ts c := by
  constructor
  · rintro ⟨source, q, hq, hk⟩
    obtain ⟨hspelled, depth, hle, c, h, -⟩ := exists_parse_iff.mp ⟨source, q, hq, hk, rfl⟩
    exact ⟨hspelled, c, Reading.ends_start_iff.mpr ⟨depth, hle, h⟩⟩
  · rintro ⟨hspelled, c, h⟩
    obtain ⟨depth, hle, h⟩ := Reading.ends_start_iff.mp h
    obtain ⟨source, q, hq, hk, -⟩ := exists_parse_iff.mpr ⟨hspelled, depth, hle, c, h, rfl⟩
    exact ⟨source, q, hq, hk⟩

/-- Every sequence of kinds is that of some tokens. -/
theorem exists_tokens (ks : List Kind) : ∃ ts : List Token, ts.map Token.kind = ks :=
  ⟨ks.map Kind.token, by simp [Function.comp_def, Kind.token]⟩

/-- What has been read without an error is viable. -/
theorem viable_of_foldlM {ts : List Token} {p : Reading} (hts : ∀ t ∈ ts, t.kind.Spelled)
    (h : ts.foldlM Reading.step .start = .ok p) : Viable (ts.map Token.kind) := by
  obtain ⟨us, c, hus, q, hq, hc⟩ := Reading.completable (Reading.guided_of_foldlM h)
  refine ⟨us.map Token.kind, ?_⟩
  rw [← List.map_append]
  refine accepted_iff.mpr ⟨fun t ht => ?_, c, q, foldlM_append_eq_ok_iff.mpr ⟨p, h, hq⟩, hc⟩
  exact (List.mem_append.mp ht).elim (hts t) (hus t)

/-- What has been read is not viable with a token that is refused. -/
theorem not_viable_of_step {ts : List Token} {t : Token} {p : Reading} {e : ParseError}
    (h : ts.foldlM Reading.step .start = .ok p) (he : p.step t = .error e) :
    ¬Viable ((ts ++ [t]).map Token.kind) := by
  rintro ⟨later, haccepted⟩
  obtain ⟨us, rfl⟩ := exists_tokens later
  rw [← List.map_append, List.append_assoc] at haccepted
  obtain ⟨-, c, q, hq, -⟩ := accepted_iff.mp haccepted
  obtain ⟨p', hp', hq⟩ := foldlM_append_eq_ok_iff.mp hq
  obtain rfl := Except.ok.inj (h.symm.trans hp')
  obtain ⟨d, hd, -⟩ := foldlM_cons_eq_ok_iff.mp hq
  rw [he] at hd
  cases hd

/-! ## Refused texts -/

/-- What a text is refused for: a token, a place where no token can be read, or its end. -/
inductive Refusal (source : String) (e : ParseError) : Prop
  | token {us vs : List Token} {t : Token} {p : Reading} :
      (scan source).tokens = us ++ t :: vs → us.foldlM Reading.step .start = .ok p →
      p.step t = .error e → Refusal source e
  | broken {p : Reading} {fault : LexError} :
      (scan source).tokens.foldlM Reading.step .start = .ok p →
      (scan source).ending = .broken fault → e = fault.toParseError → Refusal source e
  | ended {p : Reading} {n : Nat} {expected : Expected} :
      (scan source).tokens.foldlM Reading.step .start = .ok p →
      (scan source).ending = .endOfInput n → p.finish = .error expected →
      e = unexpected expected (.endOfInput n) → Refusal source e

variable {source : String} {e : ParseError}

theorem refusal_of_parse (h : parse source = .error e) : Refusal source e := by
  rcases bind_eq_error_iff.mp h with hcondition | ⟨c, -, hquery⟩
  case inr => cases hquery
  rcases bind_eq_error_iff.mp hcondition with htokens | ⟨p, hp, hconclude⟩
  · obtain ⟨us, t, vs, p, hts, hus, ht⟩ := exists_of_foldlM_eq_error htokens
    exact .token hts hus ht
  · cases hending : (scan source).ending with
    | broken fault =>
      rw [hending] at hconclude
      exact .broken hp hending (Except.error.inj hconclude).symm
    | endOfInput n =>
      rw [hending, Reading.conclude] at hconclude
      cases hfinish : p.finish with
      | ok c =>
        rw [hfinish] at hconclude
        cases hconclude
      | error expected =>
        rw [hfinish] at hconclude
        exact .ended hp hending hfinish (Except.error.inj hconclude).symm

/-- The tokens of a text that end at a byte or before it. -/
def tokensUpTo (source : String) (n : Nat) : List Token :=
  (scan source).tokens.filter (·.stop ≤ n)

theorem start_lt_stop_of_mem_scan {t : Token} (h : t ∈ (scan source).tokens) : t.start < t.stop :=
  (Cursor.genuine_of_mem_scan _ t h).start_lt_stop

/-- Up to the start of a token there are the tokens in front of it. -/
theorem tokensUpTo_start {us vs : List Token} {t : Token}
    (h : (scan source).tokens = us ++ t :: vs) : tokensUpTo source t.start = us := by
  obtain ⟨-, -, hsorted⟩ := (Cursor.start source).scan_spans
  replace hsorted : (scan source).tokens.Pairwise (·.stop ≤ ·.start) := hsorted
  rw [h, List.pairwise_append, List.pairwise_cons] at hsorted
  obtain ⟨-, ⟨hlater, -⟩, hearlier⟩ := hsorted
  have hmem {u : Token} (hu : u ∈ us ++ t :: vs) : u.start < u.stop :=
    start_lt_stop_of_mem_scan (h ▸ hu)
  -- The tokens in front of the token end where it starts or before, it and the later ones do not.
  have hus : us.filter (·.stop ≤ t.start) = us := List.filter_eq_self.mpr fun u hu =>
    decide_eq_true (hearlier u hu t List.mem_cons_self)
  have hvs : (t :: vs).filter (·.stop ≤ t.start) = [] := by
    refine List.filter_eq_nil_iff.mpr fun v hv => ?_
    have hlt := hmem (List.mem_append_right us hv)
    have hstop : t.start < v.stop := by
      rcases List.mem_cons.mp hv with rfl | hv
      · exact hlt
      · have hle := hlater v hv
        have ht := hmem (List.mem_append_right us List.mem_cons_self)
        omega
    simpa using hstop
  rw [tokensUpTo, h, List.filter_append, hus, hvs, List.append_nil]

/-- Up to the end of a scan there are all of its tokens. -/
theorem tokensUpTo_ending : tokensUpTo source (scan source).ending.position = (scan source).tokens := by
  obtain ⟨-, hall, -⟩ := (Cursor.start source).scan_spans
  exact List.filter_eq_self.mpr fun t ht => decide_eq_true (hall t ht).2

/-- A token does not start where a scan ends. -/
theorem start_lt_ending {t : Token} (h : t ∈ (scan source).tokens) :
    t.start < (scan source).ending.position := by
  obtain ⟨-, hall, -⟩ := (Cursor.start source).scan_spans
  exact Nat.lt_of_lt_of_le (start_lt_stop_of_mem_scan h) (hall t h).2

theorem eq_of_start_eq {t u : Token} (ht : t ∈ (scan source).tokens)
    (hu : u ∈ (scan source).tokens) (h : t.start = u.start) : t = u :=
  List.inj_on_of_nodup_map (scan_starts_nodup source) ht hu h

namespace Refusal

theorem position_of_broken {fault : LexError} (h : (scan source).ending = .broken fault)
    (he : e = fault.toParseError) : e.position = (scan source).ending.position := by
  rw [he, h]
  rfl

theorem position_of_ended {n : Nat} {expected : Expected} (h : (scan source).ending = .endOfInput n)
    (he : e = unexpected expected (.endOfInput n)) : e.position = (scan source).ending.position := by
  rw [he, h]
  rfl

/-- The tokens in front of the error are viable. -/
theorem viable (h : Refusal source e) :
    Viable ((tokensUpTo source e.position).map Token.kind) := by
  cases h with
  | @token us vs t p hts hus ht =>
    obtain ⟨hposition, -⟩ := Reading.blames_of_step (Reading.guided_of_foldlM hus) ht
    rw [hposition, tokensUpTo_start hts]
    refine viable_of_foldlM (fun u hu => ?_) hus
    exact spelled_of_mem_scan (hts ▸ List.mem_append_left _ hu)
  | broken hp hending he =>
    rw [position_of_broken hending he, tokensUpTo_ending]
    exact viable_of_foldlM (fun _ => spelled_of_mem_scan) hp
  | ended hp hending hfinish he =>
    rw [position_of_ended hending he, tokensUpTo_ending]
    exact viable_of_foldlM (fun _ => spelled_of_mem_scan) hp

/-- A token at the error leaves nothing viable. -/
theorem not_viable (h : Refusal source e) {t : Token} (ht : t ∈ (scan source).tokens)
    (hstart : t.start = e.position) :
    ¬Viable ((tokensUpTo source e.position ++ [t]).map Token.kind) := by
  cases h with
  | @token us vs u p hts hus hu =>
    obtain ⟨hposition, -⟩ := Reading.blames_of_step (Reading.guided_of_foldlM hus) hu
    have hmem : u ∈ (scan source).tokens := hts ▸ List.mem_append_right us List.mem_cons_self
    obtain rfl := eq_of_start_eq ht hmem (hstart.trans hposition)
    rw [hposition, tokensUpTo_start hts]
    exact not_viable_of_step hus hu
  | broken hp hending he =>
    rw [position_of_broken hending he] at hstart
    exact absurd hstart (Nat.ne_of_lt (start_lt_ending ht))
  | ended hp hending hfinish he =>
    rw [position_of_ended hending he] at hstart
    exact absurd hstart (Nat.ne_of_lt (start_lt_ending ht))

theorem isOfToken_of_step {us : List Token} {t : Token} {p : Reading}
    (hus : us.foldlM Reading.step .start = .ok p) (ht : p.step t = .error e) :
    e.fault.isOfToken = true :=
  (Reading.blames_of_step (Reading.guided_of_foldlM hus) ht).2

/-- An error of the scan is where no token can be read. -/
theorem exists_rest (h : Refusal source e) {fault : LexFault} (hfault : e.fault = .lex fault) :
    ∃ before rest, source.toList = before ++ rest ∧ byteLength before = e.position ∧
      leadingToken rest = .error fault := by
  cases h with
  | token hts hus ht =>
    have htoken := isOfToken_of_step hus ht
    rw [hfault] at htoken
    cases htoken
  | broken hp hending he =>
    subst he
    obtain rfl := Fault.lex.inj hfault
    obtain ⟨before, a, after, hrest, hposition, hread, -⟩ := Cursor.exists_rest_of_scan_broken hending
    refine ⟨before, a :: after, hrest, ?_, hread⟩
    rw [LexError.toParseError, hposition, Cursor.start, Nat.zero_add]
  | ended hp hending hfinish he =>
    subst he
    cases hfault

/-- The end of a text is at its last byte. -/
theorem position_eq (h : Refusal source e) {expected : Expected}
    (hfault : e.fault = .unexpectedEnd expected) : e.position = byteLength source.toList := by
  cases h with
  | token hts hus ht =>
    have htoken := isOfToken_of_step hus ht
    rw [hfault] at htoken
    cases htoken
  | broken hp hending he =>
    subst he
    cases hfault
  | ended hp hending hfinish he =>
    subst he
    have hposition := Cursor.position_of_scan_endOfInput hending
    rw [Cursor.start, Nat.zero_add] at hposition
    exact hposition

/-- All that a text lacks are later tokens if it is refused for its end, and only then. -/
theorem unexpectedEnd_iff (h : Refusal source e) :
    (∃ expected, e.fault = .unexpectedEnd expected) ↔
      (∃ n, (scan source).ending = .endOfInput n) ∧
        (∃ k later, Accepted ((scan source).tokens.map Token.kind ++ k :: later)) ∧
        ¬Accepted ((scan source).tokens.map Token.kind) := by
  cases h with
  | @token us vs t p hts hus ht =>
    have htoken := isOfToken_of_step hus ht
    constructor
    · rintro ⟨expected, hfault⟩
      rw [hfault] at htoken
      cases htoken
    · rintro ⟨-, ⟨k, later, haccepted⟩, -⟩
      refine absurd ⟨vs.map Token.kind ++ k :: later, ?_⟩ (not_viable_of_step hus ht)
      simpa [hts] using haccepted
  | broken hp hending he =>
    constructor
    · rintro ⟨expected, hfault⟩
      subst he
      cases hfault
    · rintro ⟨⟨n, hn⟩, -⟩
      rw [hending] at hn
      cases hn
  | @ended p n expected hp hending hfinish he =>
    have hnot : ¬Accepted ((scan source).tokens.map Token.kind) := by
      intro haccepted
      obtain ⟨-, c, q, hq, hc⟩ := accepted_iff.mp haccepted
      obtain rfl := Except.ok.inj (hp.symm.trans hq)
      rw [hfinish] at hc
      cases hc
    obtain ⟨later, haccepted⟩ := viable_of_foldlM (fun _ => spelled_of_mem_scan) hp
    refine iff_of_true ⟨expected, he ▸ rfl⟩ ⟨⟨n, hending⟩, ?_, hnot⟩
    -- Something has to follow, as the tokens are no query themselves.
    cases later with
    | nil =>
      rw [List.append_nil] at haccepted
      exact absurd haccepted hnot
    | cons k later => exact ⟨k, later, haccepted⟩

/-- A fault of a token is at a token. -/
theorem exists_token (h : Refusal source e) (hfault : e.fault.isOfToken = true) :
    ∃ t ∈ (scan source).tokens, t.start = e.position := by
  cases h with
  | @token us vs t p hts hus ht =>
    obtain ⟨hposition, -⟩ := Reading.blames_of_step (Reading.guided_of_foldlM hus) ht
    exact ⟨t, hts ▸ List.mem_append_right us List.mem_cons_self, hposition.symm⟩
  | broken hp hending he =>
    subst he
    cases hfault
  | ended hp hending hfinish he =>
    subst he
    cases hfault

end Refusal

/-- An error points at the first thing that makes a query hopeless. -/
structure PointsAtFirstHopeless (source : String) (e : ParseError) : Prop where
  /-- The tokens in front of the error start a query that is accepted. -/
  viable : Viable ((tokensUpTo source e.position).map Token.kind)
  /-- With a token that starts at the error they start none. -/
  hopeless : ∀ t ∈ (scan source).tokens, t.start = e.position →
    ¬Viable ((tokensUpTo source e.position ++ [t]).map Token.kind)
  /-- An error that is neither of the scan nor of the end is at a token. -/
  token : e.fault.isOfToken = true → ∃ t ∈ (scan source).tokens, t.start = e.position
  /-- An error of the scan is where no token can be read. -/
  unreadable : ∀ fault, e.fault = .lex fault → ∃ before rest, source.toList = before ++ rest ∧
    byteLength before = e.position ∧ leadingToken rest = .error fault
  /-- An error of the end is at the end. -/
  ending : ∀ expected, e.fault = .unexpectedEnd expected → e.position = byteLength source.toList
  /-- A text is refused for its end if an accepted query goes on behind all of its tokens, which are
  no query themselves, and only then. -/
  incomplete : (∃ expected, e.fault = .unexpectedEnd expected) ↔
    (∃ n, (scan source).ending = .endOfInput n) ∧
      (∃ k later, Accepted ((scan source).tokens.map Token.kind ++ k :: later)) ∧
      ¬Accepted ((scan source).tokens.map Token.kind)

theorem parse_error_points_at_first_hopeless {source : String} {e : ParseError}
    (h : parse source = .error e) : PointsAtFirstHopeless source e := by
  have hrefusal := refusal_of_parse h
  exact ⟨hrefusal.viable, fun _ => hrefusal.not_viable, hrefusal.exists_token,
    fun _ => hrefusal.exists_rest, fun _ => hrefusal.position_eq, hrefusal.unexpectedEnd_iff⟩

/-- A query with a field that responses do not have. -/
def strayField : String := "query requests where (id = 5 or resp.url exists)"

theorem parse_error_points_at_first_hopeless_strayField :
    parse strayField = .error ⟨.unknownField "resp.url", 37⟩ ∧
      PointsAtFirstHopeless strayField ⟨.unknownField "resp.url", 37⟩ := by
  have h : parse strayField = .error ⟨.unknownField "resp.url", 37⟩ := by decide +kernel
  exact ⟨h, parse_error_points_at_first_hopeless h⟩

end TrafficQuery
