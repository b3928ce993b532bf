import TrafficQuery.Json.Value
import TrafficQuery.Proofs.Json.Skipping

/-!
# Reading documents

A reader gives what a value means and stops behind it, or fails if the value means nothing to it. A record
is read as what its members add, one after another.
-/

namespace TrafficQuery.Json
open Text

/-- A reader gives a value and leaves such characters, or fails if there is no value to give. -/
def Gives {α : Type} {c : Cursor} (x : Except Failure (α × c.After)) (P : List Char → Prop) :
    Option α → Prop
  | some a => ∃ d, x = .ok (a, d) ∧ P d.cursor.rest
  | none => ∃ f, x = .error f

section
variable {α β : Type} {c : Cursor} {r : List Char}

theorem Gives.bind {o : Cursor} {x : Except Failure (α × c.After)} {a : Option α}
    {P Q : List Char → Prop} (h : Gives x P a) {f : α × c.After → Except Failure (β × o.After)}
    {m : α → Option β} (hf : ∀ b d, P d.cursor.rest → Gives (f (b, d)) Q (m b)) :
    Gives (x >>= f) Q (a.bind m) := by
  cases a with
  | none =>
    obtain ⟨e, rfl⟩ := h
    exact ⟨e, rfl⟩
  | some a =>
    obtain ⟨d, rfl, hd⟩ := h
    exact hf a d hd

theorem Gives.map {o : Cursor} {x : Except Failure (α × c.After)} {a : Option α}
    {P : List Char → Prop} (h : Gives x P a) (f : α → β) (g : c.After → o.After)
    (hg : ∀ d, (g d).cursor = d.cursor) :
    Gives (x.map fun (a, d) => (f a, g d)) P (a.map f) := by
  cases a with
  | none =>
    obtain ⟨e, rfl⟩ := h
    exact ⟨e, rfl⟩
  | some a =>
    obtain ⟨d, rfl, hd⟩ := h
    exact ⟨g d, rfl, (hg d).symm ▸ hd⟩

theorem Gives.moved {o : Cursor} {x : Except Failure (α × c.After)} {a : Option α}
    {P : List Char → Prop} (h : Gives x P a) (g : c.After → o.After) (hg : ∀ d, (g d).cursor = d.cursor) :
    Gives (x.map fun (a, d) => (a, g d)) P a := by
  have hgives := h.map (fun a => a) g hg
  rwa [Option.map_id'] at hgives

/-! ## Texts -/

theorem isTrailingSurrogate_iff {n : Nat} : isTrailingSurrogate n = true ↔ IsTrailingHalf n := by
  simp [isTrailingSurrogate]

theorem isLeadingSurrogate_iff {n : Nat} : isLeadingSurrogate n = true ↔ IsLeadingHalf n := by
  simp [isLeadingSurrogate]

theorem readPairSign_eq {x sign : Char} {d : c.After} (h : c.next? = some (x, d)) :
    readPairSign sign c = if x = sign then .ok d else .error (failNext c .endInSurrogatePair) := by
  simp only [readPairSign, h]

theorem gives_readEscape_letter {letter x : Char} (hx : (letter, x) ∈ escapes)
    (h : c.rest = letter :: r) : Gives (readEscape c) (· = r) (some x) := by
  obtain ⟨d, hnext, hrest⟩ := next?_of_rest h
  refine ⟨d, ?_, hrest⟩
  simp only [readEscape, hnext, escapedChar?_of_escape hx]

/-- The four digits of a unit, and what stands behind them. -/
def unitChars (w x y z : HexDigit) : List Char := [w.char, x.char, y.char, z.char]

variable {w x y z : HexDigit}

theorem gives_readEscape_unit {a : Option Char} {P : List Char → Prop} (h : c.rest = 'u' :: r)
    (hunits : ∀ d : Cursor, d.rest = r → Gives (readUnits d) P a) : Gives (readEscape c) P a := by
  obtain ⟨d, hnext, hrest⟩ := next?_of_rest h
  have hescape : readEscape c = (readUnits d.cursor).map fun p => (p.1, d.andThen p.2) := by
    simp only [readEscape, hnext, escapedChar?]
    rfl
  rw [hescape]
  exact (hunits d.cursor hrest).moved d.andThen fun _ => rfl

theorem gives_readUnits_trailing (h : c.rest = unitChars w x y z ++ r)
    (hn : IsTrailingHalf (unitNumber w x y z)) :
    Gives (readUnits c) (· = r) none := by
  obtain ⟨d, hd, -⟩ := exists_readUnit h
  exact ⟨failHere d.cursor .loneSurrogate, by
    simp only [readUnits, hd, bind, Except.bind, isTrailingSurrogate_iff.mpr hn, if_pos]⟩

theorem gives_readUnits_single (h : c.rest = unitChars w x y z ++ r)
    (ht : ¬IsTrailingHalf (unitNumber w x y z))
    (hl : ¬IsLeadingHalf (unitNumber w x y z)) :
    Gives (readUnits c) (· = r) (some (Char.ofNat (unitNumber w x y z))) := by
  obtain ⟨d, hd, hrest⟩ := exists_readUnit h
  refine ⟨d, ?_, hrest⟩
  simp only [readUnits, hd, bind, Except.bind, isTrailingSurrogate_iff, if_neg ht,
    isLeadingSurrogate_iff, if_neg hl]

theorem gives_readUnits_pair {w' x' y' z' : HexDigit}
    (h : c.rest = unitChars w x y z ++ '\\' :: 'u' :: (unitChars w' x' y' z' ++ r))
    (hl : IsLeadingHalf (unitNumber w x y z)) :
    Gives (readUnits c) (· = r) (if IsTrailingHalf (unitNumber w' x' y' z') then
      some (pairChar (unitNumber w x y z) (unitNumber w' x' y' z')) else none) := by
  obtain ⟨d, hd, hrest⟩ := exists_readUnit h
  obtain ⟨e, he, hrest⟩ := next?_of_rest hrest
  obtain ⟨f, hf, hrest⟩ := next?_of_rest hrest
  obtain ⟨g, hg, hrest⟩ := exists_readUnit hrest
  have ht : ¬IsTrailingHalf (unitNumber w x y z) := by omega
  split
  case isTrue hpair =>
    refine ⟨d.andThen (e.andThen (f.andThen g)), ?_, hrest⟩
    simp only [readUnits, hd, bind, Except.bind, isTrailingSurrogate_iff, if_neg ht,
      isLeadingSurrogate_iff, if_pos hl, readPairSign_eq he, readPairSign_eq hf, if_pos, hg]
    exact if_pos hpair
  case isFalse hpair =>
    refine ⟨failHere g.cursor .loneSurrogate, ?_⟩
    simp only [readUnits, hd, bind, Except.bind, isTrailingSurrogate_iff, if_neg ht,
      isLeadingSurrogate_iff, if_pos hl, readPairSign_eq he, readPairSign_eq hf, if_pos, hg,
      if_neg hpair]

theorem gives_readUnits_half {s : Char} (h : c.rest = unitChars w x y z ++ s :: r)
    (hl : IsLeadingHalf (unitNumber w x y z))
    (hs : s = '\\' → ∃ l r', r = l :: r' ∧ l ≠ 'u') : Gives (readUnits c) (· = r) none := by
  obtain ⟨d, hd, hrest⟩ := exists_readUnit h
  obtain ⟨e, he, hrest⟩ := next?_of_rest hrest
  have ht : ¬IsTrailingHalf (unitNumber w x y z) := by omega
  by_cases hsign : s = '\\'
  · obtain ⟨l, r', rfl, hl'⟩ := hs hsign
    obtain ⟨f, hf, -⟩ := next?_of_rest hrest
    refine ⟨failNext e.cursor .endInSurrogatePair, ?_⟩
    simp only [readUnits, hd, bind, Except.bind, isTrailingSurrogate_iff, if_neg ht,
      isLeadingSurrogate_iff, if_pos hl, readPairSign_eq he, if_pos hsign, readPairSign_eq hf, if_neg hl']
  · refine ⟨failNext d.cursor .endInSurrogatePair, ?_⟩
    simp only [readUnits, hd, bind, Except.bind, isTrailingSurrogate_iff, if_neg ht,
      isLeadingSurrogate_iff, if_pos hl, readPairSign_eq he, if_neg hsign]

theorem gives_readText_escape {x : Char} {m : Option (List Char)} {r' s : List Char}
    (h : c.rest = '\\' :: s)
    (hescape : ∀ d : Cursor, d.rest = s → Gives (readEscape d) (· = r') (some x))
    (htext : ∀ d : Cursor, d.rest = r' → Gives (readText d) (· = r) m) :
    Gives (readText c) (· = r) (m.map (x :: ·)) := by
  obtain ⟨d, hnext, hrest⟩ := next?_of_rest h
  obtain ⟨e, he, hrest⟩ := hescape d.cursor hrest
  have hread := htext e.cursor hrest
  rw [readText]
  simp only [hnext]
  cases m with
  | none =>
    obtain ⟨f, hf⟩ := hread
    exact ⟨f, by simp [he, hf]⟩
  | some cs =>
    obtain ⟨f, hf, hleft⟩ := hread
    exact ⟨d.andThen (e.andThen f), by simp [he, hf], hleft⟩

theorem gives_readText_none {P Q : List Char → Prop} {s : List Char} (h : c.rest = '\\' :: s)
    (hescape : ∀ d : Cursor, d.rest = s → Gives (readEscape d) P none) : Gives (readText c) Q none := by
  obtain ⟨d, hnext, hrest⟩ := next?_of_rest h
  obtain ⟨f, hf⟩ := hescape d.cursor hrest
  refine ⟨f, ?_⟩
  rw [readText]
  simp [hnext, hf]

theorem chars_unit_cons (w x y z : HexDigit) (ps : TextParts) (r : List Char) :
    (TextPart.unit w x y z :: ps).flatMap TextPart.chars ++ r =
      '\\' :: 'u' :: (unitChars w x y z ++ (ps.flatMap TextPart.chars ++ r)) := rfl

/-- Parts that do not start with a unit do not start with its sign. -/
theorem exists_chars_of_no_unit {ps : TextParts} (h : ∀ w x y z qs, ps ≠ .unit w x y z :: qs)
    (r : List Char) : ∃ s r', ps.flatMap TextPart.chars ++ '"' :: r = s :: r' ∧
      (s = '\\' → ∃ l r'', r' = l :: r'' ∧ l ≠ 'u') := by
  rcases ps with _ | ⟨⟨x, hx⟩ | ⟨letter, x, hx⟩ | ⟨w, x, y, z⟩, ps⟩
  · exact ⟨'"', r, rfl, fun hs => by cases hs⟩
  · exact ⟨x, _, rfl, fun hs => absurd hs hx.2.2⟩
  · exact ⟨'\\', _, rfl, fun _ => ⟨letter, _, rfl, ne_u_of_escape hx⟩⟩
  · exact absurd rfl (h w x y z ps)

/-- The parts of a text are read as what they say, or not at all if they say nothing. -/
theorem gives_readText (ps : TextParts) {c : Cursor}
    (h : c.rest = ps.flatMap TextPart.chars ++ '"' :: r) : Gives (readText c) (· = r) ps.text? := by
  -- The cases are those of `TextParts.text?`: in the last five the text starts with a unit.
  fun_induction TextParts.text? ps generalizing c with
  | case1 =>
    obtain ⟨d, hnext, hrest⟩ := next?_of_rest h
    refine ⟨d, ?_, hrest⟩
    rw [readText]
    simp only [hnext]
    rfl
  | case2 x hx ps ih =>
    obtain ⟨d, hnext, hrest⟩ := next?_of_rest h
    have hread := ih hrest
    rw [readText]
    simp only [hnext, if_neg hx.2.1, if_neg (Nat.not_lt.mpr hx.1), if_neg hx.2.2]
    cases hps : TextParts.text? ps with
    | none =>
      rw [hps] at hread
      obtain ⟨f, hf⟩ := hread
      exact ⟨f, by simp only [hf]⟩
    | some cs =>
      rw [hps] at hread
      obtain ⟨e, he, hleft⟩ := hread
      exact ⟨d.andThen e, by simp only [he], hleft⟩
  | case3 letter x hx ps ih =>
    exact gives_readText_escape h (fun d hd => gives_readEscape_letter hx hd) fun d hd => ih hd
  | case4 a b x y ps hn =>
    rw [chars_unit_cons] at h
    exact gives_readText_none h fun d hd => gives_readEscape_unit hd fun e he =>
      gives_readUnits_trailing he hn
  | case5 a b x y hn hl a' b' x' y' ps hm ih =>
    rw [chars_unit_cons, chars_unit_cons] at h
    refine gives_readText_escape h (fun d hd => gives_readEscape_unit hd fun e he => ?_) fun d hd => ih hd
    have hpair := gives_readUnits_pair he hl
    rwa [if_pos hm] at hpair
  | case6 a b x y hn hl a' b' x' y' ps hm =>
    rw [chars_unit_cons, chars_unit_cons] at h
    refine gives_readText_none (P := (· = ps.flatMap TextPart.chars ++ '"' :: r)) h fun d hd =>
      gives_readEscape_unit hd fun e he => ?_
    have hpair := gives_readUnits_pair he hl
    rwa [if_neg hm] at hpair
  | case7 a b x y ps hn hl hps =>
    rw [chars_unit_cons] at h
    obtain ⟨s, r', hs, hsign⟩ := exists_chars_of_no_unit (fun w x y z qs => hps w x y z qs) r
    rw [hs] at h
    exact gives_readText_none h fun d hd => gives_readEscape_unit hd fun e he =>
      gives_readUnits_half he hl hsign
  | case8 a b x y ps hn hl ih =>
    rw [chars_unit_cons] at h
    exact gives_readText_escape h (fun d hd => gives_readEscape_unit hd fun e he =>
      gives_readUnits_single he hn hl) fun d hd => ih hd

/-! ## Values -/

/-- A reader gives what a value means and stops behind it, or fails if that means nothing. -/
def Understands (read : ValueReader α) (meaning : Tree → Option α) : Prop :=
  ∀ (v : Tree) (ts : List Token) (c : Cursor), Delimited ts → Layout (v.tokens ++ ts) c.rest →
    Gives (read c) (Layout ts) (meaning v)

def Tree.string? : Tree → Option String
  | .text ps => ps.text?.map String.ofList
  | _ => none

def Tree.bool? : Tree → Option Bool
  | .bool b => some b
  | _ => none

theorem Gives.imp {x : Except Failure (α × c.After)} {a : Option α} {P Q : List Char → Prop}
    (h : Gives x P a) (hPQ : ∀ r, P r → Q r) : Gives x Q a := by
  cases a with
  | none => exact h
  | some a =>
    obtain ⟨d, hd, hP⟩ := h
    exact ⟨d, hd, hPQ _ hP⟩

theorem understands_readString : Understands readString Tree.string? := by
  intro v ts c hd h
  refine Gives.moved ?_ behindBlanks fun _ => rfl
  cases v with
  | text ps =>
    obtain ⟨d, r, hnext, hrest, hr⟩ := exists_next?_text h
    simp only [hnext]
    apply (((gives_readText ps hrest).imp fun _ h => ?_).map String.ofList d.andThen fun _ => rfl)
    rwa [h]
  | _ =>
    obtain ⟨x, d, hnext, hkind⟩ := exists_next?_tree h
    dsimp only
    split
    case h_1 hquote =>
      cases hnext.symm.trans hquote
      cases hkind
    case h_2 => exact ⟨_, rfl⟩

theorem understands_readBool : Understands readBool Tree.bool? := by
  intro v ts c hd h
  refine Gives.moved ?_ behindBlanks fun _ => rfl
  cases v with
  | bool b =>
    obtain ⟨r, hrest, hr⟩ := exists_rest_skipBlanks h
    cases b
    · have hword : (skipBlanks c).rest = 'f' :: ("alse".toList ++ r) := hrest
      obtain ⟨d, hnext, hd⟩ := next?_of_rest hword
      obtain ⟨e, he, rfl⟩ := leaves_readWord hd
      refine ⟨e, ?_, hr⟩
      simp only [hnext, he]
      rfl
    · have hword : (skipBlanks c).rest = 't' :: ("rue".toList ++ r) := hrest
      obtain ⟨d, hnext, hd⟩ := next?_of_rest hword
      obtain ⟨e, he, rfl⟩ := leaves_readWord hd
      refine ⟨e, ?_, hr⟩
      simp only [hnext, he]
      rfl
  | _ =>
    obtain ⟨x, d, hnext, hkind⟩ := exists_next?_tree h
    dsimp only
    split
    case h_1 htrue =>
      cases hnext.symm.trans htrue
      cases hkind
    case h_2 hfalse =>
      cases hnext.symm.trans hfalse
      cases hkind
    case h_3 => exact ⟨_, rfl⟩

/-! ## Records -/

variable {σ : Type}

/-- A field of a record by what its values mean. -/
structure FieldMeaning (σ : Type) where
  name : String
  isRead : σ → Bool
  adds : σ → Tree → Option σ

/-- What a value adds to a record whose field it is, which can be read once. -/
def FieldMeaning.take (f : FieldMeaning σ) (s : σ) (v : Tree) : Option σ :=
  if f.isRead s then none else f.adds s v

/-- A field is read as its values mean. -/
structure RecordField.Means (f : RecordField σ) (m : FieldMeaning σ) : Prop where
  name_eq : f.name = m.name
  isRead_eq : f.isRead = m.isRead
  understands : ∀ s, Understands (f.read s) (m.adds s)

variable (fs : List (FieldMeaning σ))

/-- What a member adds to a record. A key that is no field adds nothing, as long as it is a text. -/
def memberSays (s : σ) (m : Member) : Option σ :=
  m.1.text?.bind fun key =>
    match fs.find? (·.name == String.ofList key) with
    | none => some s
    | some f => f.take s m.2

/-- What the items of a list add to a record whose fields are still to be read. -/
def itemsSay : List (FieldMeaning σ) → σ → List Tree → Option σ
  | _, s, [] => some s
  | [], _, _ :: _ => none
  | f :: fs, s, v :: vs => (f.adds s v).bind fun s => itemsSay fs s vs

/-- What a value adds to a record. -/
def recordSays (s : σ) : Tree → Option σ
  | .object ms => ms.foldlM (memberSays fs) s
  | .list vs => itemsSay fs s vs
  | _ => none

variable {fs} {r : RecordType σ}

theorem find?_means {fields : List (RecordField σ)} (h : List.Forall₂ RecordField.Means fields fs)
    (key : String) :
    (fields.find? (·.name == key) = none ∧ fs.find? (·.name == key) = none) ∨
      ∃ f m, fields.find? (·.name == key) = some f ∧ fs.find? (·.name == key) = some m ∧ f.Means m := by
  induction h with
  | nil => exact .inl ⟨rfl, rfl⟩
  | @cons f m fields fs hm _ ih =>
    simp only [List.find?_cons, hm.name_eq]
    cases hkey : m.name == key with
    | true => exact .inr ⟨f, m, rfl, rfl, hm⟩
    | false => exact ih

theorem gives_readMember (hr : List.Forall₂ RecordField.Means r.fields fs) (s : σ) {k : TextParts}
    {v : Tree} {us : List Token} {rest : List Char} {c : Cursor}
    (h : c.rest = k.flatMap TextPart.chars ++ '"' :: rest)
    (hus : Delimited us) (hrest : Layout (.mark .colon :: (v.tokens ++ us)) rest) :
    Gives (r.readMember s c) (Layout us) (memberSays fs s (k, v)) := by
  apply (gives_readText k h).bind
  rintro key d rfl
  obtain ⟨e, he, hvalue⟩ := exists_readColon hrest
  dsimp only
  rcases find?_means hr (String.ofList key) with ⟨hf, hm⟩ | ⟨f, m, hf, hm, hmeans⟩
  · obtain ⟨g, hskip, hleft⟩ := exists_skipValue v [] hus (Nat.le_refl _) hvalue
    rw [skipEnd] at hskip
    simp only [hf, hm]
    refine ⟨d.andThen (e.andThen g), ?_, hleft⟩
    simp only [he, hskip, bind, Except.bind]
    rfl
  · simp only [hf, hm, hmeans.isRead_eq, FieldMeaning.take]
    split
    case isTrue => exact ⟨_, rfl⟩
    case isFalse =>
      have hfield := hmeans.understands s v us e.cursor hus hvalue
      have hread := hfield.bind (f := fun p => .ok (p.1, d.andThen (e.andThen p.2))) (m := some)
        fun _ _ hg => ⟨_, rfl, hg⟩
      rw [Option.bind_fun_some] at hread
      simp only [he]
      exact hread

theorem readMembers_comma {s : σ} {c : Cursor} {d : (skipBlanks c).After}
    {e : (skipBlanks d.cursor).After} (hcomma : (skipBlanks c).next? = some (',', d))
    (hquote : (skipBlanks d.cursor).next? = some ('"', e)) :
    r.readMembers false s c = r.readMember s e.cursor >>= fun (s, g) =>
      (r.readMembers false s g.cursor).map fun (s, h) =>
        (s, behindBlanks (d.andThen (behindBlanks (e.andThen (g.andThen h))))) := by
  rw [RecordType.readMembers]
  cases hmember : r.readMember s e.cursor <;> simp [hcomma, hquote, hmember, bind, Except.bind]

theorem readMembers_quote {s : σ} {c : Cursor} {d : (skipBlanks c).After}
    (hquote : (skipBlanks c).next? = some ('"', d)) :
    r.readMembers true s c = r.readMember s d.cursor >>= fun (s, e) =>
      (r.readMembers false s e.cursor).map fun (s, f) => (s, behindBlanks (d.andThen (e.andThen f))) := by
  rw [RecordType.readMembers]
  cases hmember : r.readMember s d.cursor <;> simp [hquote, hmember, bind, Except.bind]

/-- The members behind the first are read as what they add. -/
theorem gives_readMembers_behind (hr : List.Forall₂ RecordField.Means r.fields fs) (ms : List Member)
    (s : σ) {ts : List Token} {c : Cursor} (h : Layout (Tree.memberTokens ms ++ ts) c.rest) :
    Gives (r.readMembers false s c) (Layout ts) (ms.foldlM (memberSays fs) s) := by
  induction ms generalizing s c with
  | nil =>
    obtain ⟨d, hclose, hd⟩ := exists_next?_mark h
    refine ⟨behindBlanks d, ?_, hd⟩
    rw [RecordType.readMembers]
    simp only [hclose, Mark.char]
  | cons m ms ih =>
    obtain ⟨k, v⟩ := m
    rw [Tree.memberTokens, List.append_assoc] at h
    obtain ⟨d, hcomma, hd⟩ := exists_next?_mark h
    obtain ⟨e, rest, hquote, he, hrest⟩ := exists_next?_text hd
    rw [readMembers_comma hcomma hquote, List.foldlM_cons]
    refine (gives_readMember hr s he (Tree.delimited_memberTokens ms ts) hrest).bind fun s g hg => ?_
    exact (ih s hg).moved
      (fun h => behindBlanks (d.andThen (behindBlanks (e.andThen (g.andThen h))))) fun _ => rfl

/-- What an object adds is read behind its brace. -/
theorem gives_readMembers (hr : List.Forall₂ RecordField.Means r.fields fs) (ms : List Member)
    (s : σ) {ts : List Token} {c : Cursor} (h : Layout ((Tree.object ms).tokens ++ ts) c.rest) :
    ∃ d, (skipBlanks c).next? = some ('\x7b', d) ∧
      Gives (r.readMembers true s d.cursor) (Layout ts) (ms.foldlM (memberSays fs) s) := by
  cases ms with
  | nil =>
    obtain ⟨d, hopen, hd⟩ := exists_next?_mark h
    obtain ⟨e, hclose, he⟩ := exists_next?_mark hd
    refine ⟨d, hopen, behindBlanks e, ?_, he⟩
    rw [RecordType.readMembers]
    simp only [hclose, Mark.char]
  | cons m ms =>
    obtain ⟨k, v⟩ := m
    rw [Tree.tokens, List.append_assoc] at h
    obtain ⟨d, hopen, hd⟩ := exists_next?_mark h
    obtain ⟨e, rest, hquote, he, hrest⟩ := exists_next?_text hd
    refine ⟨d, hopen, ?_⟩
    rw [readMembers_quote hquote, List.foldlM_cons]
    refine (gives_readMember hr s he (Tree.delimited_memberTokens ms ts) hrest).bind fun s g hg => ?_
    exact (gives_readMembers_behind hr ms s hg).moved
      (fun f => behindBlanks (e.andThen (g.andThen f))) fun _ => rfl

/-! ## Lists -/

theorem layout_skipBlanks {ts : List Token} {c : Cursor} (h : Layout ts c.rest) :
    Layout ts (skipBlanks c).rest := by
  cases ts with
  | nil => exact layout_nil_iff.mpr (by rw [rest_skipBlanks_eq_nil h]; simp)
  | cons t ts =>
    obtain ⟨rest, hrest, hr⟩ := exists_rest_skipBlanks h
    exact layout_cons_iff.mpr ⟨[], rest, by simp, hrest, hr⟩

theorem exists_next?_item {v : Tree} {ts : List Token} {c : Cursor}
    (h : Layout (v.tokens ++ ts) c.rest) : ∃ x d, (skipBlanks c).next? = some (x, d) ∧ x ≠ ']' := by
  obtain ⟨x, d, hnext, hkind⟩ := exists_next?_tree h
  refine ⟨x, d, hnext, ?_⟩
  rintro rfl
  cases v <;> cases hkind

theorem exists_readListEnd {ts : List Token} {c : Cursor} (h : Layout (.mark .closeList :: ts) c.rest) :
    ∃ d, RecordType.readListEnd c = .ok d ∧ Layout ts d.cursor.rest := by
  obtain ⟨d, hclose, hd⟩ := exists_next?_mark h
  refine ⟨behindBlanks d, ?_, hd⟩
  simp only [RecordType.readListEnd, hclose, Mark.char]

theorem exists_readListEnd_error {x : Char} {c : Cursor} {d : (skipBlanks c).After}
    (hnext : (skipBlanks c).next? = some (x, d)) (hx : x ≠ ']') :
    ∃ f, RecordType.readListEnd c = .error f := by
  unfold RecordType.readListEnd
  dsimp only
  split
  case h_1 => exact ⟨_, rfl⟩
  case h_2 hclose =>
    cases hnext.symm.trans hclose
    exact absurd rfl hx
  case h_3 => split <;> exact ⟨_, rfl⟩
  case h_4 => exact ⟨_, rfl⟩

section
variable {f : RecordField σ} {fields : List (RecordField σ)} {s : σ} {x : Char} {c : Cursor}
  {d : (skipBlanks c).After}

theorem readItems_close {first : Bool} (hclose : (skipBlanks c).next? = some (']', d)) :
    RecordType.readItems first (f :: fields) s c = .ok (s, behindBlanks d) := by
  simp only [RecordType.readItems, hclose]

theorem readItems_first (hnext : (skipBlanks c).next? = some (x, d)) (hx : x ≠ ']') :
    RecordType.readItems true (f :: fields) s c = f.read s (skipBlanks c) >>= fun (s, e) =>
      (RecordType.readItems false fields s e.cursor).map fun (s, g) => (s, behindBlanks (e.andThen g)) := by
  rw [RecordType.readItems]
  simp [hnext]
  rfl

theorem readItems_comma {e : (skipBlanks d.cursor).After}
    (hcomma : (skipBlanks c).next? = some (',', d))
    (hnext : (skipBlanks d.cursor).next? = some (x, e)) (hx : x ≠ ']') :
    RecordType.readItems false (f :: fields) s c = f.read s (skipBlanks d.cursor) >>= fun (s, g) =>
      (RecordType.readItems false fields s g.cursor).map fun (s, h) =>
        (s, behindBlanks (d.andThen (behindBlanks (g.andThen h)))) := by
  rw [RecordType.readItems]
  simp [hcomma, hnext, hx]
  rfl

end

/-- The items behind the first are read as what they add. -/
theorem gives_readItems_behind {fields : List (RecordField σ)}
    (hr : List.Forall₂ RecordField.Means fields fs) (vs : List Tree) (s : σ) {ts : List Token}
    {c : Cursor} (h : Layout (Tree.itemTokens vs ++ ts) c.rest) :
    Gives (RecordType.readItems false fields s c) (Layout ts) (itemsSay fs s vs) := by
  induction hr generalizing vs s c with
  | nil =>
    cases vs with
    | nil =>
      obtain ⟨d, hend, hd⟩ := exists_readListEnd h
      exact ⟨d, by rw [RecordType.readItems, hend]; rfl, hd⟩
    | cons v vs =>
      obtain ⟨d, hcomma, -⟩ := exists_next?_mark h
      obtain ⟨f, hf⟩ := exists_readListEnd_error hcomma (by decide)
      exact ⟨f, by rw [RecordType.readItems, hf]; rfl⟩
  | @cons f m fields fs hm _ ih =>
    cases vs with
    | nil =>
      obtain ⟨d, hclose, hd⟩ := exists_next?_mark h
      exact ⟨behindBlanks d, readItems_close hclose, hd⟩
    | cons v vs =>
      rw [Tree.itemTokens, List.append_assoc] at h
      obtain ⟨d, hcomma, hd⟩ := exists_next?_mark h
      obtain ⟨x, e, hnext, hx⟩ := exists_next?_item hd
      rw [readItems_comma hcomma hnext hx]
      refine (hm.understands s v _ _ (Tree.delimited_itemTokens vs ts) (layout_skipBlanks hd)).bind
        fun s g hg => ?_
      exact (ih vs s hg).moved (fun h => behindBlanks (d.andThen (behindBlanks (g.andThen h)))) fun _ => rfl

/-- What a list adds is read behind its bracket. -/
theorem gives_readItems {fields : List (RecordField σ)}
    (hr : List.Forall₂ RecordField.Means fields fs) (vs : List Tree) (s : σ) {ts : List Token}
    {c : Cursor} (h : Layout ((Tree.list vs).tokens ++ ts) c.rest) :
    ∃ d, (skipBlanks c).next? = some ('[', d) ∧
      Gives (RecordType.readItems true fields s d.cursor) (Layout ts) (itemsSay fs s vs) := by
  cases vs with
  | nil =>
    obtain ⟨d, hopen, hd⟩ := exists_next?_mark h
    refine ⟨d, hopen, ?_⟩
    cases hr with
    | nil =>
      obtain ⟨e, hend, he⟩ := exists_readListEnd hd
      exact ⟨e, by rw [RecordType.readItems, hend]; rfl, he⟩
    | cons =>
      obtain ⟨e, hclose, he⟩ := exists_next?_mark hd
      exact ⟨behindBlanks e, readItems_close hclose, he⟩
  | cons v vs =>
    rw [Tree.tokens, List.append_assoc] at h
    obtain ⟨d, hopen, hd⟩ := exists_next?_mark h
    obtain ⟨x, e, hnext, hx⟩ := exists_next?_item hd
    refine ⟨d, hopen, ?_⟩
    cases hr with
    | nil =>
      obtain ⟨f, hf⟩ := exists_readListEnd_error hnext hx
      exact ⟨f, by rw [RecordType.readItems, hf]; rfl⟩
    | @cons f m fields fs hm hr =>
      rw [readItems_first hnext hx]
      refine (hm.understands s v _ _ (Tree.delimited_itemTokens vs ts) (layout_skipBlanks hd)).bind
        fun s g hg => ?_
      exact (gives_readItems_behind hr vs s hg).moved (fun h => behindBlanks (g.andThen h)) fun _ => rfl

theorem understands_record (hr : List.Forall₂ RecordField.Means r.fields fs) (s : σ) :
    Understands (r.read s) (recordSays fs s) := by
  intro v ts c hd h
  refine Gives.moved ?_ behindBlanks fun _ => rfl
  cases v with
  | object ms =>
    obtain ⟨d, hnext, hgives⟩ := gives_readMembers hr ms s h
    simp only [hnext]
    exact hgives.moved _ fun _ => rfl
  | list vs =>
    obtain ⟨d, hnext, hgives⟩ := gives_readItems hr vs s h
    simp only [hnext]
    exact hgives.moved _ fun _ => rfl
  | _ =>
    obtain ⟨x, d, hnext, hkind⟩ := exists_next?_tree h
    dsimp only
    split
    case h_1 hobject =>
      cases hnext.symm.trans hobject
      cases hkind
    case h_2 hlist =>
      cases hnext.symm.trans hlist
      cases hkind
    case h_3 => exact ⟨_, rfl⟩

/-! ## Documents -/

/-- A document of a value is read as what the value means, or is not read if that means nothing. -/
theorem readDocument_of_writes {read : ValueReader α} {meaning : Tree → Option α}
    (h : Understands read meaning) {v : Tree} {document : String} (hv : v.Writes document) :
    (readDocument read document).toOption = meaning v := by
  have hlayout : Layout (v.tokens ++ []) (Cursor.start document).rest := by
    rw [List.append_nil]
    exact hv
  have hgives := h v [] (.start document) trivial hlayout
  cases hmeaning : meaning v with
  | none =>
    rw [hmeaning] at hgives
    obtain ⟨f, hf⟩ := hgives
    rw [readDocument, hf]
    rfl
  | some a =>
    rw [hmeaning] at hgives
    obtain ⟨d, hd, hrest⟩ := hgives
    have hend := rest_skipBlanks_eq_nil hrest
    simp only [readDocument, hd, bind, Except.bind, hend]
    rfl

end

end TrafficQuery.Json
