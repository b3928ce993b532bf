import Mathlib.Data.List.Pairwise
import Mathlib.Data.List.Basic
import TrafficQuery.Proofs.Token.Words

/-!
# The classes of words

Few words have the patterns of two classes, and the order in which a word is tested settles what each of
them is. Any order that settles these reads all words alike, and no other order does.
-/

namespace TrafficQuery
open Text

/-! ## Words with two patterns -/

/-- The classes that a pattern decides. -/
def WordClass.patterns : List WordClass := [.identifier, .duration, .uuid, .headerName, .number]

/-- The words that have the patterns of two classes: words of letters, and uuids that start with a
letter. -/
inductive WordClass.Shared (word : List Char) : WordClass → WordClass → Prop
  | letters : word ≠ [] → (∀ c ∈ word, c.isLower = true) → Shared word .identifier .headerName
  | uuid : isUuid word = true → (∃ c ∈ word.head?, c.isLower = true) → Shared word .uuid .headerName

section Patterns
variable {word : List Char}

theorem exists_isDigit_of_isNumeral (h : isNumeral word = true) :
    ∃ c cs, word = c :: cs ∧ c.isDigit = true := by
  obtain ⟨c, cs, rfl⟩ := List.exists_cons_of_ne_nil (isNumeral_ne_nil h)
  exact ⟨c, cs, rfl, isDigit_of_isNumeral h c List.mem_cons_self⟩

/-- A duration is made of digits and a letter behind them. -/
theorem exists_of_isDuration (h : WordClass.duration.accepts word = true) :
    ∃ c cs unit, word = c :: cs ++ [unit] ∧ (∀ d ∈ c :: cs, d.isDigit = true) ∧
      (unitSeconds? unit).isSome = true := by
  obtain ⟨⟨digits, seconds⟩, hparts⟩ := Option.isSome_iff_exists.mp h
  obtain ⟨unit, rfl, hunit, hdigits⟩ := durationParts?_eq_some_iff.mp hparts
  have hnumeral : isNumeral digits = true := Bool.or_eq_true_iff.mpr (.inr hdigits)
  obtain ⟨c, cs, rfl⟩ := List.exists_cons_of_ne_nil (isNumeral_ne_nil hnumeral)
  exact ⟨c, cs, unit, rfl, isDigit_of_isNumeral hnumeral, Option.isSome_of_eq_some hunit⟩

theorem isHexGroups_cons {n : Nat} {ns : List Nat} (h : isHexGroups (n :: ns) word = true) :
    ∃ group rest, word = group ++ rest ∧ group.length = n ∧ (∀ c ∈ group, isHexDigit c = true) ∧
      (ns = [] ∧ rest = [] ∨ ∃ later, rest = '-' :: later ∧ isHexGroups ns later = true) := by
  unfold isHexGroups at h
  simp only [Bool.and_eq_true, beq_iff_eq] at h
  obtain ⟨⟨hlength, hgroup⟩, hrest⟩ := h
  refine ⟨word.take n, word.drop n, (List.take_append_drop n word).symm, hlength,
    List.all_eq_true.mp hgroup, ?_⟩
  split at hrest
  case h_1 => exact .inl ⟨rfl, List.isEmpty_iff.mp hrest⟩
  case h_2 later _ hdrop => exact .inr ⟨later, hdrop, hrest⟩
  case h_3 => cases hrest

/-- Groups of hexadecimal digits hold nothing but these and dashes. -/
theorem isHexDigit_of_isHexGroups {ns : List Nat} (h : isHexGroups ns word = true) :
    ∀ c ∈ word, isHexDigit c = true ∨ c = '-' := by
  induction ns generalizing word with
  | nil =>
    obtain rfl := List.isEmpty_iff.mp h
    exact List.forall_mem_nil _
  | cons n ns ih =>
    obtain ⟨group, rest, rfl, -, hgroup, ⟨-, rfl⟩ | ⟨later, rfl, hlater⟩⟩ := isHexGroups_cons h
    · rw [List.append_nil]
      exact fun c hc => .inl (hgroup c hc)
    · refine List.forall_mem_append.mpr ⟨fun c hc => .inl (hgroup c hc), ?_⟩
      exact List.forall_mem_cons.mpr ⟨.inr rfl, ih hlater⟩

theorem dash_mem_of_isUuid (h : isUuid word = true) : '-' ∈ word := by
  obtain ⟨group, rest, rfl, -, -, ⟨hnil, -⟩ | ⟨later, rfl, -⟩⟩ := isHexGroups_cons h
  · cases hnil
  · exact List.mem_append_right _ List.mem_cons_self

/-- A word whose characters are all of a class without the dash is no uuid. -/
theorem isUuid_eq_false_of_forall {p : Char → Bool} (h : ∀ c ∈ word, p c = true)
    (hp : p '-' = false) : isUuid word = false := by
  refine Bool.eq_false_iff.mpr fun hu => ?_
  have hdash := h _ (dash_mem_of_isUuid hu)
  rw [hp] at hdash
  cases hdash

theorem isLower_or_isDigit_of_isHexDigit {c : Char} (h : isHexDigit c = true) :
    c.isLower = true ∨ c.isDigit = true := by
  rw [isHexDigit, Bool.or_eq_true, Bool.and_eq_true, decide_eq_true_eq, decide_eq_true_eq] at h
  rcases h with hdigit | ⟨hlow, hhigh⟩
  · exact .inr hdigit
  · have hle : c.val ≤ 'z'.val := UInt32.le_trans hhigh (by decide)
    exact .inl (Bool.and_eq_true_iff.mpr ⟨decide_eq_true hlow, decide_eq_true hle⟩)

/-- The words that are identifiers and header names are those of letters. -/
theorem isIdentifier_and_isHeaderName_iff :
    isIdentifier word = true ∧ isHeaderName word = true ↔
      word ≠ [] ∧ ∀ c ∈ word, c.isLower = true := by
  cases word with
  | nil => simp [isIdentifier]
  | cons c cs =>
    have hcommon (d : Char) : ((d.isLower || d == '_') = true ∧
        (d.isLower || d.isDigit || d == '-') = true) ↔ d.isLower = true := by
      constructor
      · rintro ⟨hi, hh⟩
        rw [Bool.or_eq_true, beq_iff_eq] at hi
        rcases hi with hd | rfl
        · exact hd
        · cases hh
      · intro hd
        simp [hd]
    simp only [isIdentifier, isHeaderName, List.isEmpty_cons, Bool.not_false, Bool.true_and,
      Bool.and_eq_true, List.all_eq_true, List.forall_mem_cons, ne_eq, reduceCtorEq, not_false_eq_true,
      true_and, ← hcommon]
    grind

/-- The uuids that are header names are those that start with a letter. -/
theorem isHeaderName_of_isUuid_iff (h : isUuid word = true) :
    isHeaderName word = true ↔ ∃ c ∈ word.head?, c.isLower = true := by
  cases word with
  | nil => cases h
  | cons c cs =>
    have hall : cs.all (fun c => c.isLower || c.isDigit || c == '-') = true := by
      refine List.all_eq_true.mpr fun d hd => ?_
      rcases isHexDigit_of_isHexGroups h d (List.mem_cons_of_mem c hd) with hhex | rfl
      · rcases isLower_or_isDigit_of_isHexDigit hhex with hd | hd <;> simp [hd]
      · rfl
    simp [isHeaderName, hall]

end Patterns

namespace WordClass
variable {word : List Char} {a b : WordClass}

/-- No word is of both classes, but for those that are shared. -/
def Meets (word : List Char) (a b : WordClass) : Prop :=
  a.accepts word = true → b.accepts word = true → Shared word a b ∨ Shared word b a

theorem meets_of_false (h : a.accepts word = true → b.accepts word = false) : Meets word a b := by
  intro ha hb
  rw [h ha] at hb
  cases hb

theorem meets_identifier_duration : Meets word .identifier .duration := by
  intro hi hd
  obtain ⟨c, cs, unit, rfl, hdigits, -⟩ := exists_of_isDuration hd
  rw [accepts, List.cons_append, isIdentifier_of_isDigit (hdigits c List.mem_cons_self)] at hi
  cases hi

theorem meets_identifier_uuid : Meets word .identifier .uuid := by
  refine meets_of_false fun hi => ?_
  have hall := List.all_eq_true.mp (Bool.and_eq_true_iff.mp hi).2
  exact isUuid_eq_false_of_forall hall (by decide)

theorem meets_identifier_headerName : Meets word .identifier .headerName := by
  intro hi hh
  obtain ⟨hne, hletters⟩ := isIdentifier_and_isHeaderName_iff.mp ⟨hi, hh⟩
  exact .inl (.letters hne hletters)

theorem meets_identifier_number : Meets word .identifier .number := by
  intro hi hn
  obtain ⟨c, cs, rfl, hc⟩ := exists_isDigit_of_isNumeral hn
  rw [accepts, isIdentifier_of_isDigit hc] at hi
  cases hi

theorem meets_duration_uuid : Meets word .duration .uuid := by
  refine meets_of_false fun hd => ?_
  obtain ⟨c, cs, unit, rfl, hdigits, hunit⟩ := exists_of_isDuration hd
  refine isUuid_eq_false_of_forall (p := fun d => d.isDigit || (unitSeconds? d).isSome)
    (fun d hmem => ?_) (by decide)
  rcases List.mem_append.mp hmem with hmem | hmem
  · rw [hdigits d hmem, Bool.true_or]
  · rw [List.mem_singleton.mp hmem, hunit, Bool.or_true]

theorem meets_duration_headerName : Meets word .duration .headerName := by
  intro hd hh
  rw [accepts, durationParts?_of_isHeaderName hh] at hd
  cases hd

theorem meets_duration_number : Meets word .duration .number := by
  intro hd hn
  rw [accepts, durationParts?_of_isDigit (isDigit_of_isNumeral hn)] at hd
  cases hd

theorem meets_uuid_headerName : Meets word .uuid .headerName :=
  fun hu hh => .inl (.uuid hu ((isHeaderName_of_isUuid_iff hu).mp hh))

theorem meets_uuid_number : Meets word .uuid .number := by
  intro hu hn
  rw [accepts, isUuid_of_isDigit (isDigit_of_isNumeral hn)] at hu
  cases hu

theorem meets_headerName_number : Meets word .headerName .number := by
  intro hh hn
  obtain ⟨c, cs, rfl, hc⟩ := exists_isDigit_of_isNumeral hn
  rw [accepts, isHeaderName_of_isDigit hc] at hh
  cases hh

theorem meets_of_mem_patterns (ha : a ∈ patterns) (hb : b ∈ patterns) (hne : a ≠ b) :
    Meets word a b := by
  have : Std.Symm (Meets word) := ⟨fun _ _ h hb ha => (h ha hb).symm⟩
  have hall : patterns.Pairwise (Meets word) := by
    simp only [patterns, List.pairwise_cons, List.forall_mem_cons]
    exact ⟨⟨meets_identifier_duration, meets_identifier_uuid, meets_identifier_headerName,
        meets_identifier_number, nofun⟩,
      ⟨meets_duration_uuid, meets_duration_headerName, meets_duration_number, nofun⟩,
      ⟨meets_uuid_headerName, meets_uuid_number, nofun⟩, ⟨meets_headerName_number, nofun⟩, nofun, .nil⟩
  exact hall.forall ha hb hne

theorem Shared.accepts (h : Shared word a b) : a.accepts word = true ∧ b.accepts word = true := by
  cases h with
  | letters hne hletters => exact isIdentifier_and_isHeaderName_iff.mpr ⟨hne, hletters⟩
  | uuid hu hfirst => exact ⟨hu, (isHeaderName_of_isUuid_iff hu).mpr hfirst⟩

/-- Two patterns accept a word if it is one of those that they share, and only then. -/
theorem accepts_and_accepts_iff (ha : a ∈ patterns) (hb : b ∈ patterns) (hne : a ≠ b) :
    (a.accepts word = true ∧ b.accepts word = true) ↔ Shared word a b ∨ Shared word b a := by
  constructor
  · rintro ⟨hword, hword'⟩
    exact meets_of_mem_patterns ha hb hne hword hword'
  · rintro (h | h)
    · exact h.accepts
    · exact h.accepts.symm

end WordClass

/-! ## The order of the tests -/

section FirstMatch
variable {α : Type} [DecidableEq α] {l l' : List α} {p : α → Bool} {a b : α}

theorem idxOf_le_of_find? (h : l.find? p = some a) (hb : p b = true) : l.idxOf a ≤ l.idxOf b := by
  obtain ⟨ha, as, bs, rfl, has⟩ := List.find?_eq_some_iff_append.mp h
  have hnot {c : α} (hc : p c = true) : c ∉ as := fun hmem => by
    have := has c hmem
    simp [hc] at this
  rw [List.idxOf_append_of_notMem (hnot ha), List.idxOf_append_of_notMem (hnot hb),
    List.idxOf_cons_self]
  exact Nat.add_le_add_left (Nat.zero_le _) _

/-- Two lists have the same first match if all matches stand in them in the same order. -/
theorem find?_eq_of_order (hmem : ∀ a, a ∈ l ↔ a ∈ l')
    (horder : ∀ a ∈ l, ∀ b ∈ l, p a = true → p b = true → l.idxOf a < l.idxOf b →
      l'.idxOf a < l'.idxOf b) : l.find? p = l'.find? p := by
  cases h : l.find? p with
  | none =>
    have hnone := List.find?_eq_none.mp h
    exact (List.find?_eq_none.mpr fun a ha => hnone a ((hmem a).mpr ha)).symm
  | some a =>
    have ha := List.mem_of_find?_eq_some h
    have hpa := List.find?_some h
    obtain ⟨b, hb⟩ := Option.isSome_iff_exists.mp
      (List.find?_isSome.mpr ⟨a, (hmem a).mp ha, hpa⟩)
    have hbmem := (hmem b).mpr (List.mem_of_find?_eq_some hb)
    have hle := idxOf_le_of_find? h (List.find?_some hb)
    by_cases hab : a = b
    · rw [hb, hab]
    · have hne : l.idxOf a ≠ l.idxOf b := fun heq => hab ((List.idxOf_inj ha).mp heq)
      have hlt := horder a ha b hbmem hpa (List.find?_some hb) (Nat.lt_of_le_of_ne hle hne)
      exact absurd (idxOf_le_of_find? hb hpa) (Nat.not_le_of_lt hlt)

end FirstMatch

/-- A test of a word: that it is a given one, or that it has the pattern of a class. -/
inductive WordTest
  | word (text : String)
  | pattern (c : WordClass)
  deriving DecidableEq, Repr

namespace WordTest

def accepts (word : List Char) : WordTest → Bool
  | .word text => word == text.toList
  | .pattern c => c.accepts word

def read (text : List Char) : WordTest → Except LexFault Kind
  | .word _ => WordClass.reserved.read text
  | .pattern c => c.read text

def reservedWords : List String :=
  ["query", "requests", "where", "ago", "exists", "contains", "icontains", "and", "or", "not"]

/-- The tests in the order in which they are made. -/
def all : List WordTest := reservedWords.map .word ++ WordClass.patterns.map .pattern

/-- Reads a word as the first of the tests says that accepts it. -/
def classifyBy (tests : List WordTest) (text : List Char) : Except LexFault Kind :=
  match tests.find? (·.accepts (foldWord text)) with
  | some t => t.read text
  | none => .error (.invalidToken (String.ofList text))

variable {tests : List WordTest} {text word : List Char} {a b : WordTest}

theorem isSome_reservedKind?_iff {s : String} :
    (reservedKind? s).isSome = true ↔ s ∈ reservedWords := by
  constructor
  · intro h
    obtain ⟨k, hk⟩ := Option.isSome_iff_exists.mp h
    unfold reservedKind? at hk
    split at hk
    case h_11 => cases hk
    all_goals decide
  · exact (by decide : ∀ s ∈ reservedWords, (reservedKind? s).isSome = true) s

theorem accepts_reserved_iff : WordClass.reserved.accepts word = true ↔
    ∃ text ∈ reservedWords, word = text.toList := by
  rw [WordClass.accepts, isSome_reservedKind?_iff]
  constructor
  · exact fun h => ⟨_, h, String.toList_ofList.symm⟩
  · rintro ⟨text, h, rfl⟩
    rwa [String.ofList_toList]

/-- The tests in their order read a word as its class does. -/
theorem classifyBy_all (text : List Char) : classifyBy all text = classify text := by
  rw [classify, WordClass.priority, classifyIn_cons, classifyBy, all, List.find?_append]
  by_cases h : WordClass.reserved.accepts (foldWord text) = true
  · obtain ⟨s, hs, hword⟩ := accepts_reserved_iff.mp h
    have hsome : ((reservedWords.map word).find? (·.accepts (foldWord text))).isSome = true :=
      List.find?_isSome.mpr ⟨_, List.mem_map_of_mem hs, beq_iff_eq.mpr hword⟩
    obtain ⟨t, ht⟩ := Option.isSome_iff_exists.mp hsome
    obtain ⟨s', -, rfl⟩ := List.mem_map.mp (List.mem_of_find?_eq_some ht)
    rw [if_pos h, ht]
    rfl
  · have hnone : (reservedWords.map WordTest.word).find? (·.accepts (foldWord text)) = none := by
      refine List.find?_eq_none.mpr fun t ht hacc => ?_
      obtain ⟨s, hs, rfl⟩ := List.mem_map.mp ht
      exact h (accepts_reserved_iff.mpr ⟨s, hs, beq_iff_eq.mp hacc⟩)
    rw [if_neg h, hnone, Option.none_or, List.find?_map, classifyIn]
    have hpatterns : WordClass.patterns.find?
        ((fun t : WordTest => t.accepts (foldWord text)) ∘ WordTest.pattern) =
          WordClass.patterns.find? (·.accepts (text.map foldCase)) := rfl
    rw [hpatterns, ← WordClass.patterns]
    cases WordClass.patterns.find? (·.accepts (text.map foldCase)) <;> rfl

/-- An order that settles what words with two patterns are: reserved words are told from identifiers,
and both identifiers and uuids from header names. -/
structure KeepsOrder (tests : List WordTest) : Prop where
  reserved : ∀ text ∈ reservedWords, tests.idxOf (.word text) < tests.idxOf (.pattern .identifier)
  identifier : tests.idxOf (.pattern .identifier) < tests.idxOf (.pattern .headerName)
  uuid : tests.idxOf (.pattern .uuid) < tests.idxOf (.pattern .headerName)

theorem keepsOrder_all : KeepsOrder all := ⟨by decide, by decide, by decide⟩

/-- In every such order the one test stands before the other. -/
def Outranks (a b : WordTest) : Prop := ∀ tests, KeepsOrder tests → tests.idxOf a < tests.idxOf b

theorem outranks_of_shared {c d : WordClass} (h : WordClass.Shared word c d) :
    Outranks (.pattern c) (.pattern d) := by
  cases h with
  | letters => exact fun tests h => h.identifier
  | uuid => exact fun tests h => h.uuid

/-- A reserved word has no pattern but that of an identifier and, as a word of letters, that of a header
name. -/
theorem outranks_of_mem_reservedWords {s : String} {c : WordClass} (hs : s ∈ reservedWords)
    (hc : c ∈ WordClass.patterns) (haccepts : c.accepts s.toList = true) :
    Outranks (.word s) (.pattern c) := by
  have hclass := (by decide : ∀ s ∈ reservedWords, ∀ c ∈ WordClass.patterns,
    c.accepts s.toList = true → c = .identifier ∨ c = .headerName) s hs c hc haccepts
  rcases hclass with rfl | rfl
  · exact fun tests h => h.reserved s hs
  · exact fun tests h => Nat.lt_trans (h.reserved s hs) h.identifier

theorem mem_all_iff : a ∈ all ↔
    (∃ s ∈ reservedWords, a = .word s) ∨ ∃ c ∈ WordClass.patterns, a = .pattern c := by
  simp only [all, List.mem_append, List.mem_map, eq_comm]

/-- Of two tests that accept the same word one stands before the other. -/
theorem outranks_of_accepts (ha : a ∈ all) (hb : b ∈ all) (hne : a ≠ b)
    (hword : a.accepts word = true) (hword' : b.accepts word = true) :
    Outranks a b ∨ Outranks b a := by
  rcases mem_all_iff.mp ha with ⟨s, hs, rfl⟩ | ⟨c, hc, rfl⟩ <;>
    rcases mem_all_iff.mp hb with ⟨s', hs', rfl⟩ | ⟨d, hd, rfl⟩
  · obtain rfl := beq_iff_eq.mp hword
    exact absurd (congrArg word (String.toList_inj.mp (beq_iff_eq.mp hword'))) hne
  · obtain rfl := beq_iff_eq.mp hword
    exact .inl (outranks_of_mem_reservedWords hs hd hword')
  · obtain rfl := beq_iff_eq.mp hword'
    exact .inr (outranks_of_mem_reservedWords hs' hc hword)
  · have hne' : c ≠ d := fun h => hne (congrArg pattern h)
    exact (WordClass.meets_of_mem_patterns hc hd hne' hword hword').imp outranks_of_shared
      outranks_of_shared

theorem classifyBy_of_keepsOrder (hperm : tests.Perm all) (h : KeepsOrder tests) (text : List Char) :
    classifyBy tests text = classify text := by
  have hfind : all.find? (·.accepts (foldWord text)) = tests.find? (·.accepts (foldWord text)) := by
    refine find?_eq_of_order (fun a => hperm.symm.mem_iff) fun a ha b hb hacc hacc' hlt => ?_
    have hne : a ≠ b := by
      rintro rfl
      exact Nat.lt_irrefl _ hlt
    rcases outranks_of_accepts ha hb hne hacc hacc' with hab | hba
    · exact hab tests h
    · exact absurd (hba all keepsOrder_all) (Nat.not_lt_of_lt hlt)
  rw [← classifyBy_all, classifyBy, classifyBy, hfind]

/-- A word that only one test reads as it should be read puts that test before all others that accept
the word. -/
theorem idxOf_lt_of_classifyBy (hperm : tests.Perm all) (h : classifyBy tests text = a.read text)
    (honly : ∀ c ∈ all, c.accepts (foldWord text) = true → c.read text = a.read text → c = a)
    (hb : b ∈ all) (haccepts : b.accepts (foldWord text) = true) (hne : a ≠ b) :
    tests.idxOf a < tests.idxOf b := by
  have hmem := hperm.mem_iff.mpr hb
  obtain ⟨c, hc⟩ := Option.isSome_iff_exists.mp (List.find?_isSome.mpr ⟨b, hmem, haccepts⟩)
  have hcmem := List.mem_of_find?_eq_some hc
  rw [classifyBy, hc] at h
  obtain rfl := honly c (hperm.mem_iff.mp hcmem) (List.find?_some hc) h
  have hne' : tests.idxOf c ≠ tests.idxOf b := fun heq => hne ((List.idxOf_inj hcmem).mp heq)
  exact Nat.lt_of_le_of_ne (idxOf_le_of_find? hc haccepts) hne'

/-- A word of letters that is not reserved. -/
def plainWord : List Char := "host".toList

/-- A uuid that starts with a letter. -/
def letterUuid : List Char := "deadbeef-0000-4000-8000-00000000abcd".toList

theorem keepsOrder_of_classifyBy (hperm : tests.Perm all)
    (h : ∀ text, (∀ c ∈ text, isWordChar c = true) → classifyBy tests text = classify text) :
    KeepsOrder tests := by
  have hread {text : List Char} {a : WordTest} (hrun : text.all isWordChar = true)
      (hclass : classify text = a.read text) : classifyBy tests text = a.read text :=
    (h text (List.all_eq_true.mp hrun)).trans hclass
  refine ⟨fun s hs => ?_, ?_, ?_⟩
  · have hrun := (by decide +kernel : ∀ s ∈ reservedWords, s.toList.all isWordChar = true) s hs
    have hclass := (by decide +kernel : ∀ s ∈ reservedWords,
      classify s.toList = (word s).read s.toList) s hs
    have honly := (by decide +kernel : ∀ s ∈ reservedWords, ∀ c ∈ all,
      c.accepts (foldWord s.toList) = true → c.read s.toList = (word s).read s.toList → c = word s) s hs
    have haccepts := (by decide +kernel : ∀ s ∈ reservedWords,
      (pattern .identifier).accepts (foldWord s.toList) = true) s hs
    exact idxOf_lt_of_classifyBy hperm (hread hrun hclass) honly (by decide) haccepts (by simp)
  · have hclass : classify plainWord = (pattern .identifier).read plainWord := by decide +kernel
    have honly : ∀ c ∈ all, c.accepts (foldWord plainWord) = true →
      c.read plainWord = (pattern .identifier).read plainWord → c = pattern .identifier := by
        decide +kernel
    exact idxOf_lt_of_classifyBy hperm (hread (by decide +kernel) hclass) honly (by decide)
      (by decide +kernel) (by decide)
  · have hclass : classify letterUuid = (pattern .uuid).read letterUuid := by decide +kernel
    have honly : ∀ c ∈ all, c.accepts (foldWord letterUuid) = true →
      c.read letterUuid = (pattern .uuid).read letterUuid → c = pattern .uuid := by decide +kernel
    exact idxOf_lt_of_classifyBy hperm (hread (by decide +kernel) hclass) honly (by decide)
      (by decide +kernel) (by decide)

end WordTest
open WordTest

/-- Two patterns accept a word only if it is made of letters or a uuid that starts with a letter, and a
reserved word is an identifier besides. So the tests can be made in any order that settles these words,
and in no other order. -/
theorem word_classes_overlap_in_order :
    (∀ (word : List Char) (a b : WordClass), a ∈ WordClass.patterns → b ∈ WordClass.patterns → a ≠ b →
      ((a.accepts word = true ∧ b.accepts word = true) ↔
        WordClass.Shared word a b ∨ WordClass.Shared word b a)) ∧
    (∀ word, WordClass.reserved.accepts word = true → WordClass.identifier.accepts word = true) ∧
    (∀ text, classifyBy WordTest.all text = classify text) ∧
    ∀ tests, tests.Perm WordTest.all →
      ((∀ text, (∀ c ∈ text, isWordChar c = true) → classifyBy tests text = classify text) ↔
        KeepsOrder tests) := by
  refine ⟨fun word a b => WordClass.accepts_and_accepts_iff, fun word h => ?_, classifyBy_all,
    fun tests hperm => ⟨keepsOrder_of_classifyBy hperm, fun h text _ =>
      classifyBy_of_keepsOrder hperm h text⟩⟩
  obtain ⟨s, hs, rfl⟩ := accepts_reserved_iff.mp h
  exact (by decide : ∀ s ∈ reservedWords, WordClass.identifier.accepts s.toList = true) s hs

/-- The tests from the last to the first, but for header names. -/
def laterFirst : List WordTest :=
  .pattern .number :: .pattern .uuid :: reservedWords.reverse.map .word ++
    [.pattern .identifier, .pattern .headerName, .pattern .duration]

theorem word_classes_overlap_in_order_laterFirst :
    (WordClass.uuid.accepts letterUuid = true ∧ WordClass.headerName.accepts letterUuid = true) ∧
    WordClass.identifier.accepts "and".toList = true ∧ laterFirst.Perm WordTest.all ∧
    ∀ text, (∀ c ∈ text, isWordChar c = true) → classifyBy laterFirst text = classify text := by
  obtain ⟨hshared, hreserved, -, horder⟩ := word_classes_overlap_in_order
  have huuid : WordClass.Shared letterUuid .uuid .headerName :=
    .uuid (by decide +kernel) ⟨'d', rfl, by decide⟩
  have hperm : laterFirst.Perm WordTest.all := by decide +kernel
  have hkeeps : KeepsOrder laterFirst := ⟨by decide, by decide, by decide⟩
  exact ⟨(hshared letterUuid _ _ (by decide) (by decide) (by decide)).mpr (.inl huuid),
    hreserved "and".toList (by decide), hperm, (horder laterFirst hperm).mpr hkeeps⟩

end TrafficQuery
