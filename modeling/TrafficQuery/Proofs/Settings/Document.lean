import Mathlib.Logic.Relation
import TrafficQuery.Proofs.Json.Members
import TrafficQuery.Proofs.Json.Writing
import TrafficQuery.Proofs.Text.Bytes
import TrafficQuery.Settings.File

/-!
# Settings files

Settings are read back from the document that is written for them. How a document is laid out, the order of
its members, members that are no settings and defaults that are spelled out make no difference.
-/

namespace TrafficQuery
open Json

/-! ## What documents mean -/

section
variable {σ α : Type}

/-- What the values of a field mean that is read into a part of a record. -/
def meaningInto (name : String) (get : σ → Option α) (set : σ → α → σ) (meaning : Tree → Option α) :
    FieldMeaning σ :=
  ⟨name, fun s => (get s).isSome, fun s v => (meaning v).map (set s)⟩

theorem means_fieldInto {name : String} {get : σ → Option α} {set : σ → α → σ} {read : ValueReader α}
    {meaning : Tree → Option α} (h : Understands read meaning) :
    (fieldInto name get set read).Means (meaningInto name get set meaning) :=
  ⟨rfl, rfl, fun s v ts c hd hc => (h v ts c hd hc).map (set s) (fun d => d) fun _ => rfl⟩

variable {β : Type} {nameF nameG : String} {get : σ → Option α} {set : σ → α → σ}
  {m : Tree → Option α} {get' : σ → Option β} {set' : σ → β → σ} {m' : Tree → Option β}

theorem once_meaningInto (h : ∀ s a, (get (set s a)).isSome = true) {s s' : σ} {v : Tree}
    (hs : (meaningInto nameF get set m).adds s v = some s') :
    (meaningInto nameF get set m).isRead s' = true := by
  obtain ⟨a, -, rfl⟩ := Option.map_eq_some_iff.mp hs
  exact h s a

theorem independent_meaningInto (hget : ∀ s b, get (set' s b) = get s)
    (hget' : ∀ s a, get' (set s a) = get' s) (hset : ∀ s a b, set' (set s a) b = set (set' s b) a) :
    Independent (meaningInto nameF get set m) (meaningInto nameG get' set' m') where
  isRead_right hs := by
    obtain ⟨a, -, rfl⟩ := Option.map_eq_some_iff.mp hs
    exact congrArg Option.isSome (hget' _ a)
  isRead_left hs := by
    obtain ⟨b, -, rfl⟩ := Option.map_eq_some_iff.mp hs
    exact congrArg Option.isSome (hget _ b)
  comm s v w := by
    simp only [meaningInto]
    cases m v <;> cases m' w <;> simp [hset]

end

namespace TableNames

/-- The fields of table names by what their values mean. -/
def fieldMeanings : List (FieldMeaning NamedTables) :=
  [meaningInto "requests" (·.requests) (fun t s => { t with requests := some s }) Tree.string?,
    meaningInto "responses" (·.responses) (fun t s => { t with responses := some s }) Tree.string?,
    meaningInto "headers" (·.headers) (fun t s => { t with headers := some s }) Tree.string?]

/-- The table names that a value means. -/
def ofTree? (v : Tree) : Option TableNames := (recordSays fieldMeanings {} v).map NamedTables.complete

theorem apart_fieldMeanings : Apart fieldMeanings where
  once := by
    simp only [fieldMeanings, List.forall_mem_cons, List.not_mem_nil, false_imp_iff, implies_true,
      and_true]
    exact ⟨once_meaningInto fun _ _ => rfl, once_meaningInto fun _ _ => rfl,
      once_meaningInto fun _ _ => rfl⟩
  independent := by
    simp only [fieldMeanings, List.pairwise_cons, List.forall_mem_cons, List.not_mem_nil,
      false_imp_iff, implies_true, and_true, List.Pairwise.nil]
    exact ⟨⟨independent_meaningInto (fun _ _ => rfl) (fun _ _ => rfl) fun _ _ _ => rfl,
      independent_meaningInto (fun _ _ => rfl) (fun _ _ => rfl) fun _ _ _ => rfl⟩,
      independent_meaningInto (fun _ _ => rfl) (fun _ _ => rfl) fun _ _ _ => rfl⟩

theorem means_fields : List.Forall₂ RecordField.Means recordType.fields fieldMeanings :=
  .cons (means_fieldInto understands_readString) (.cons (means_fieldInto understands_readString)
    (.cons (means_fieldInto understands_readString) .nil))

/-- The name of each table. -/
def named (t : TableNames) : List (String × String) :=
  [("requests", t.requests), ("responses", t.responses), ("headers", t.headers)]

/-- Members that name each table. -/
def IsSpelled (t : TableNames) (ms : List Member) : Prop :=
  List.Forall₂ (fun m n => m.1.text? = some n.1.toList ∧ m.2.string? = some n.2) ms t.named

theorem ofTree?_of_isSpelled {t : TableNames} {ms : List Member} (h : t.IsSpelled ms) :
    ofTree? (.object ms) = some t := by
  rcases h with _ | @⟨⟨k₁, v₁⟩, _, _, _, ⟨hk₁, h₁⟩, _ | @⟨⟨k₂, v₂⟩, _, _, _, ⟨hk₂, h₂⟩,
    _ | @⟨⟨k₃, v₃⟩, _, _, _, ⟨hk₃, h₃⟩, _ | _⟩⟩⟩
  dsimp only at hk₁ h₁ hk₂ h₂ hk₃ h₃
  have hrequests (s : NamedTables) : memberSays fieldMeanings s (k₁, v₁) = _ :=
    memberSays_of_find? hk₁ rfl s v₁
  have hresponses (s : NamedTables) : memberSays fieldMeanings s (k₂, v₂) = _ :=
    memberSays_of_find? hk₂ rfl s v₂
  have hheaders (s : NamedTables) : memberSays fieldMeanings s (k₃, v₃) = _ :=
    memberSays_of_find? hk₃ rfl s v₃
  simp only [ofTree?, recordSays, List.foldlM_cons, List.foldlM_nil, hrequests, hresponses, hheaders,
    FieldMeaning.take, meaningInto, h₁, h₂, h₃, Option.map_some]
  rfl

theorem understands_read : Understands TableNames.read ofTree? := fun v ts c hd hc =>
  (understands_record means_fields {} v ts c hd hc).map NamedTables.complete (fun d => d) fun _ => rfl

end TableNames

namespace Settings

/-- The fields of settings by what their values mean. -/
def fieldMeanings : List (FieldMeaning NamedSettings) :=
  [meaningInto "tables" (·.tables) (fun s t => { s with tables := some t }) TableNames.ofTree?,
    meaningInto "escape_like_wildcards" (·.escapeWildcards)
      (fun s b => { s with escapeWildcards := some b }) Tree.bool?]

/-- The settings that a value means. -/
def ofTree? (v : Tree) : Option Settings := (recordSays fieldMeanings {} v).map NamedSettings.complete

theorem apart_fieldMeanings : Apart fieldMeanings where
  once := by
    simp only [fieldMeanings, List.forall_mem_cons, List.not_mem_nil, false_imp_iff, implies_true,
      and_true]
    exact ⟨once_meaningInto fun _ _ => rfl, once_meaningInto fun _ _ => rfl⟩
  independent := by
    simp only [fieldMeanings, List.pairwise_cons, List.forall_mem_cons, List.not_mem_nil,
      false_imp_iff, implies_true, and_true, List.Pairwise.nil]
    exact independent_meaningInto (fun _ _ => rfl) (fun _ _ => rfl) fun _ _ _ => rfl

theorem means_fields : List.Forall₂ RecordField.Means recordType.fields fieldMeanings :=
  .cons (means_fieldInto TableNames.understands_read)
    (.cons (means_fieldInto understands_readBool) .nil)

theorem understands_read : Understands Settings.read ofTree? := fun v ts c hd hc =>
  (understands_record means_fields {} v ts c hd hc).map NamedSettings.complete (fun d => d) fun _ => rfl

/-- A document of a value makes the settings that the value means. -/
theorem ofDocument_of_writes {v : Tree} {document : String} (h : v.Writes document) :
    (ofDocument document).toOption = ofTree? v :=
  readDocument_of_writes understands_read h

/-- What a settings file of a document makes. -/
theorem ofFile_of_writes {v : Tree} {document : String} (h : v.Writes document) :
    (∃ s, ofTree? v = some s ∧ ofFile (.file document.toUTF8) = .ok s) ∨
      ofTree? v = none ∧ ∃ m, ofFile (.file document.toUTF8) = .error (.malformed m) := by
  have hread := ofDocument_of_writes h
  simp only [ofFile, Text.fromUTF8?_toUTF8]
  cases hdocument : ofDocument document with
  | error f =>
    rw [hdocument] at hread
    exact .inr ⟨hread.symm, _, rfl⟩
  | ok s =>
    rw [hdocument] at hread
    exact .inl ⟨s, hread.symm, rfl⟩

/-! ## The document of settings -/

end Settings

namespace TableNames

/-- The part of the document of settings that names the tables. -/
def toDocument (t : TableNames) : String :=
  "\x7b\"requests\":" ++ quote t.requests ++ ",\"responses\":" ++ quote t.responses ++
    ",\"headers\":" ++ quote t.headers ++ "\x7d"

theorem laysOut_toDocument (t : TableNames) : ∃ ms, t.IsSpelled ms ∧
    LaysOut t.toDocument.toList (.object ms) := by
  obtain ⟨requests, hrequests, requestsLayout⟩ := laysOut_quote t.requests
  obtain ⟨responses, hresponses, responsesLayout⟩ := laysOut_quote t.responses
  obtain ⟨headers, hheaders, headersLayout⟩ := laysOut_quote t.headers
  obtain ⟨k₁, hk₁, requestsMember⟩ := laysOut_member [] "requests" rfl requestsLayout
  obtain ⟨k₂, hk₂, responsesMember⟩ := laysOut_member [] "responses" rfl responsesLayout
  obtain ⟨k₃, hk₃, headersMember⟩ := laysOut_member [] "headers" rfl headersLayout
  have hobject := laysOut_object [] [] rfl rfl
    (.cons requestsMember (.cons responsesMember (.cons headersMember .nil)))
  have htext {ps : TextParts} {table : String} (h : ps.text? = some table.toList) :
      (Tree.text ps).string? = some table := by
    rw [Tree.string?, h, Option.map_some, String.ofList_toList]
  refine ⟨[(k₁, .text requests), (k₂, .text responses), (k₃, .text headers)],
    .cons ⟨hk₁, htext hrequests⟩ (.cons ⟨hk₂, htext hresponses⟩ (.cons ⟨hk₃, htext hheaders⟩ .nil)), ?_⟩
  delta toDocument
  simp only [String.toList_append, List.append_assoc]
  simp only [List.intercalate_cons_cons, List.intercalate_singleton, List.append_assoc] at hobject
  exact hobject

end TableNames

namespace Settings

theorem toDocument_eq (s : Settings) : s.toDocument = "\x7b\"tables\":" ++ s.tables.toDocument ++
    ",\"escape_like_wildcards\":" ++ toString s.escapeWildcards ++ "\x7d" := by
  have hopen : "\x7b\"tables\":\x7b\"requests\":" = "\x7b\"tables\":" ++ "\x7b\"requests\":" := rfl
  have hclose : "\x7d,\"escape_like_wildcards\":" = "\x7d" ++ ",\"escape_like_wildcards\":" := rfl
  -- To find an equation for a text of so many parts takes too long.
  delta toDocument TableNames.toDocument
  rw [hopen, hclose]
  simp only [String.append_assoc]

theorem exists_writes_toDocument (s : Settings) :
    ∃ v : Tree, v.Writes s.toDocument ∧ ofTree? v = some s := by
  obtain ⟨ms, hms, tablesLayout⟩ := s.tables.laysOut_toDocument
  obtain ⟨k, hk, tablesMember⟩ := laysOut_member [] "tables" rfl tablesLayout
  have escapeLayout : LaysOut (toString s.escapeWildcards).toList (.bool s.escapeWildcards) := by
    cases s.escapeWildcards
    · exact laysOut_token (.bool false)
    · exact laysOut_token (.bool true)
  obtain ⟨l, hl, escapeMember⟩ := laysOut_member [] "escape_like_wildcards" rfl escapeLayout
  have hobject := laysOut_object [] [] rfl rfl (.cons tablesMember (.cons escapeMember .nil))
  refine ⟨.object [(k, .object ms), (l, .bool s.escapeWildcards)], hobject.writes [] rfl ?_, ?_⟩
  · rw [toDocument_eq]
    simp only [String.toList_append, List.append_assoc, List.intercalate_cons_cons,
      List.intercalate_singleton, List.append_nil]
    rfl
  · have htables (s : NamedSettings) (v : Tree) : memberSays fieldMeanings s (k, v) = _ :=
      memberSays_of_find? hk rfl s v
    have hescape (s : NamedSettings) (v : Tree) : memberSays fieldMeanings s (l, v) = _ :=
      memberSays_of_find? hl rfl s v
    simp only [ofTree?, recordSays, List.foldlM_cons, List.foldlM_nil, htables, hescape,
      FieldMeaning.take, meaningInto, TableNames.ofTree?_of_isSpelled hms, Tree.bool?, Option.map_some]
    rfl

end Settings

/-! ## Changes of documents -/

/-- A change of the members that name the tables. -/
abbrev TablesChange : List Member → List Member → Prop :=
  Change ((TableNames.named {}).map Prod.fst) fun name v =>
    ∃ table, (name, table) ∈ TableNames.named {} ∧ v.string? = some table

theorem TableNames.ofTree?_eq_of_change {ms ns : List Member} (h : TablesChange ms ns) :
    ofTree? (.object ms) = ofTree? (.object ns) := by
  refine apart_fieldMeanings.eq_of_change (fun name v hdefault => ?_) h
  obtain ⟨table, htable, hv⟩ := hdefault
  simp only [named, List.mem_cons, Prod.mk.injEq, List.not_mem_nil, or_false] at htable
  rcases htable with ⟨rfl, rfl⟩ | ⟨rfl, rfl⟩ | ⟨rfl, rfl⟩
  all_goals
    refine ⟨_, rfl, rfl, fun s hs => ⟨_, by simp only [meaningInto, hv, Option.map_some]; rfl, ?_⟩⟩
    simp only [meaningInto, Option.isSome_eq_false_iff, Option.isNone_iff_eq_none] at hs
    simp only [NamedTables.complete, hs]
    rfl

/-- A default of the settings that is spelled out. -/
inductive IsDefaultSetting : String → Tree → Prop
  | tables {ms : List Member} : TableNames.IsSpelled {} ms → IsDefaultSetting "tables" (.object ms)
  | escape : IsDefaultSetting "escape_like_wildcards" (.bool ({} : Settings).escapeWildcards)

/-- A change of the members that make the settings, or of those that name the tables among them. -/
inductive SettingsChange : List Member → List Member → Prop
  | members {ms ns : List Member} : Change ["tables", "escape_like_wildcards"] IsDefaultSetting ms ns →
      SettingsChange ms ns
  | tables {k : TextParts} {ms ns before after : List Member} :
      k.text? = some "tables".toList → TablesChange ms ns →
      SettingsChange (before ++ (k, .object ms) :: after) (before ++ (k, .object ns) :: after)

namespace Settings

theorem eq_of_isDefaultSetting {name : String} {v : Tree} (h : IsDefaultSetting name v) :
    ∃ f, fieldMeanings.find? (·.name == name) = some f ∧ f.isRead {} = false ∧
      ∀ s, f.isRead s = false → ∃ s', f.adds s v = some s' ∧ s'.complete = s.complete := by
  cases h with
  | tables hms =>
    refine ⟨_, rfl, rfl, fun s hs => ⟨{ s with tables := some {} }, ?_, ?_⟩⟩
    · simp only [meaningInto, TableNames.ofTree?_of_isSpelled hms, Option.map_some]
    · have hnone : s.tables = none := by simpa [meaningInto] using hs
      simp only [NamedSettings.complete, hnone]
      rfl
  | escape =>
    refine ⟨_, rfl, rfl, fun s hs => ⟨{ s with escapeWildcards := some true }, rfl, ?_⟩⟩
    have hnone : s.escapeWildcards = none := by simpa [meaningInto] using hs
    simp only [NamedSettings.complete, hnone]
    rfl

theorem ofTree?_eq_of_change {ms ns : List Member} (h : SettingsChange ms ns) :
    ofTree? (.object ms) = ofTree? (.object ns) := by
  cases h with
  | members hchange => exact apart_fieldMeanings.eq_of_change (fun _ _ => eq_of_isDefaultSetting) hchange
  | @tables k ms ns before after hk hchange =>
    have htables := TableNames.ofTree?_eq_of_change hchange
    -- The member is refused or adds the same tables before and after the change.
    have hmember (s : NamedSettings) :
        memberSays fieldMeanings s (k, .object ms) = memberSays fieldMeanings s (k, .object ns) := by
      rw [memberSays_of_find? hk rfl, memberSays_of_find? hk rfl]
      simp only [FieldMeaning.take, meaningInto, htables]
      rfl
    simp only [ofTree?, recordSays, List.foldlM_append, List.foldlM_cons, hmember]

theorem ofTree?_eq_of_changes {ms ns : List Member} (h : Relation.EqvGen SettingsChange ms ns) :
    ofTree? (.object ms) = ofTree? (.object ns) := by
  induction h with
  | rel _ _ h => exact ofTree?_eq_of_change h
  | refl => rfl
  | symm _ _ _ ih => exact ih.symm
  | trans _ _ _ _ _ ih ih' => exact ih.trans ih'

/-- Settings are read back from their document. Documents that differ in layout, in the order of their
members, in unknown members whose keys are texts, and in defaults that are spelled out make the same
settings, or neither of them makes any. -/
theorem ofFile_reads_documents :
    (∀ s : Settings, ofFile (.file s.toDocument.toUTF8) = .ok s) ∧
    ∀ (ms ns : List Member) (a b : String), Relation.EqvGen SettingsChange ms ns →
      (Tree.object ms).Writes a → (Tree.object ns).Writes b →
      (∃ s, ofFile (.file a.toUTF8) = .ok s ∧ ofFile (.file b.toUTF8) = .ok s) ∨
        ∃ m m', ofFile (.file a.toUTF8) = .error (.malformed m) ∧
          ofFile (.file b.toUTF8) = .error (.malformed m') := by
  refine ⟨fun s => ?_, fun ms ns a b hchange ha hb => ?_⟩
  · obtain ⟨v, hwrites, hv⟩ := exists_writes_toDocument s
    rcases ofFile_of_writes hwrites with ⟨s', hs', hok⟩ | ⟨hnone, -⟩
    · cases hv.symm.trans hs'
      exact hok
    · cases hv.symm.trans hnone
  · have hsame := ofTree?_eq_of_changes hchange
    rcases ofFile_of_writes ha with ⟨s, hs, hok⟩ | ⟨hnone, m, herror⟩
    · rcases ofFile_of_writes hb with ⟨s', hs', hok'⟩ | ⟨hnone', -⟩
      · cases hs.symm.trans (hsame.trans hs')
        exact .inl ⟨s, hok, hok'⟩
      · cases hs.symm.trans (hsame.trans hnone')
    · rcases ofFile_of_writes hb with ⟨s', hs', -⟩ | ⟨-, m', herror'⟩
      · cases hnone.symm.trans (hsame.trans hs')
      · exact .inr ⟨m, m', herror, herror'⟩

theorem writes_empty_object : (Tree.object []).Writes "\x7b\x7d" :=
  (laysOut_object [] [] rfl rfl .nil).writes [] rfl rfl

/-- An unknown member and a default change nothing about an empty document. -/
theorem ofFile_reads_documents_sample : ∃ k x : TextParts,
    Relation.EqvGen SettingsChange []
      [(k, .bool true), (x, .null)] ∧
    (Tree.object []).Writes "\x7b\x7d" ∧
    (Tree.object [(k, .bool true), (x, .null)]).Writes
      "\x7b\"escape_like_wildcards\": true,\"x\": null\x7d" ∧
    ofFile (.file "\x7b\"escape_like_wildcards\": true,\"x\": null\x7d".toUTF8) = .ok {} := by
  have htrue : LaysOut "true".toList (.bool true) := laysOut_token (.bool true)
  have hnull : LaysOut "null".toList .null := laysOut_token .null
  obtain ⟨k, hk, escapeMember⟩ := laysOut_member [' '] "escape_like_wildcards" rfl htrue
  obtain ⟨x, hx, unknownMember⟩ := laysOut_member [' '] "x" rfl hnull
  have hobject := laysOut_object [] [] rfl rfl (.cons escapeMember (.cons unknownMember .nil))
  have hwrites : (Tree.object [(k, .bool true), (x, .null)]).Writes
      "\x7b\"escape_like_wildcards\": true,\"x\": null\x7d" := hobject.writes [] rfl rfl
  have hdefault : SettingsChange ([] ++ []) ([] ++ (k, .bool true) :: []) :=
    .members (.default hk (by simp) .escape)
  have hunknown : SettingsChange ([(k, .bool true)] ++ []) ([(k, .bool true)] ++ (x, .null) :: []) :=
    .members (.unknown hx (by decide))
  have hchange : Relation.EqvGen SettingsChange [] [(k, .bool true), (x, .null)] :=
    .trans _ _ _ (.rel _ _ hdefault) (.rel _ _ hunknown)
  have hempty : ofFile (.file "\x7b\x7d".toUTF8) = .ok {} := by decide +kernel
  refine ⟨k, x, hchange, writes_empty_object, hwrites, ?_⟩
  rcases ofFile_reads_documents.2 _ _ _ _ hchange writes_empty_object hwrites with
    ⟨s, hs, hok⟩ | ⟨m, -, herror, -⟩
  · cases hempty.symm.trans hs
    exact hok
  · cases hempty.symm.trans herror

/-- A key that is half of a surrogate pair. -/
def halfKey : TextParts :=
  [.unit ⟨'d', 13, by decide⟩ ⟨'8', 8, by decide⟩ ⟨'0', 0, by decide⟩ ⟨'0', 0, by decide⟩]

/-- A key that is no text is no name of a setting either, but it is not passed over. -/
theorem ofFile_half_key : halfKey.text? = none ∧
    (Tree.object []).Writes "\x7b\x7d" ∧ ofFile (.file "\x7b\x7d".toUTF8) = .ok {} ∧
    (Tree.object [(halfKey, .null)]).Writes "\x7b\"\\ud800\":null\x7d" ∧
    ∃ m, ofFile (.file "\x7b\"\\ud800\":null\x7d".toUTF8) = .error (.malformed m) := by
  have hmember : LaysOutMember _ (halfKey, .null) := (laysOut_token (.text halfKey)).append
    ((laysOut_token (.mark .colon)).append (laysOut_token .null))
  have hobject := laysOut_object [] [] rfl rfl (.cons hmember .nil)
  have hwrites : (Tree.object [(halfKey, .null)]).Writes "\x7b\"\\ud800\":null\x7d" :=
    hobject.writes [] rfl rfl
  refine ⟨rfl, writes_empty_object, by decide +kernel, hwrites, ?_⟩
  rcases ofFile_of_writes hwrites with ⟨s, hs, -⟩ | ⟨-, herror⟩
  · cases hs
  · exact herror

end Settings

end TrafficQuery
