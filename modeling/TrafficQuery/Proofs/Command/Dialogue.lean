import TrafficQuery.Command.Run
import TrafficQuery.Proofs.Compile.Selection
import TrafficQuery.Proofs.Text.Bytes

/-!
# A dialogue and single commands

A dialogue answers each of its lines by itself, with what the command prints whose query is that line.
-/

namespace TrafficQuery.Command
open Text

/-! ## Lines -/

/-- The lines of an input. The last one may lack its line feed, and behind a line feed at the end there
is no other line. -/
def inputLines (input : String) : List (List Char) :=
  let parts := input.toList.splitOn '\n'
  if parts.getLast? = some [] then parts.dropLast else parts

/-- The trimmed lines of an input up to the first that leaves. -/
def entries (input : String) : List String :=
  ((inputLines input).map fun l => String.ofList (trim l)).takeWhile fun entry => !isLeaving entry

/-! ## Backspaces -/

theorem foldl_clusters (typed cs : List (List Char)) (h : ∀ cluster ∈ cs, cluster ≠ ['\x08']) :
    cs.foldl (fun typed cluster => if cluster = ['\x08'] then typed.tail else cluster :: typed) typed =
      cs.reverse ++ typed := by
  induction cs generalizing typed with
  | nil => rfl
  | cons cluster cs ih =>
    obtain ⟨hcluster, hcs⟩ := List.forall_mem_cons.mp h
    rw [List.foldl_cons, if_neg hcluster, ih _ hcs]
    simp

/-- Without a backspace a line is what has been typed. -/
theorem applyBackspaces_eq {cs : List Char} (h : '\x08' ∉ cs) : applyBackspaces cs = cs := by
  have hclusters : ∀ cluster ∈ clusters cs, cluster ≠ ['\x08'] := by
    rintro cluster hmem rfl
    have hflat : '\x08' ∈ (clusters cs).flatten := List.mem_flatten_of_mem hmem List.mem_cons_self
    rw [flatten_clusters] at hflat
    exact h hflat
  rw [applyBackspaces, foldl_clusters [] _ hclusters, List.append_nil, List.reverse_reverse,
    flatten_clusters]

theorem entered_eq {l : List Char} (h : '\x08' ∉ l) : entered l = String.ofList (trim l) := by
  rw [entered, applyBackspaces_eq h]

/-! ## Answers -/

variable {s : Settings} {mode : Mode}

/-- A line says an entry that does not leave. -/
def Stays (bytes : List UInt8) (entry : String) : Prop :=
  entryOf? bytes = some entry ∧ isLeaving entry = false

theorem entryOf?_encoded (l : List Char) : entryOf? (encoded l) = some (entered l) := by
  rw [entryOf?, fromUTF8?_encoded, Option.map_some, String.toList_ofList]

/-- Lines that do not leave are answered one after the other, and then the dialogue goes on. -/
theorem answers_append {ls : List (List UInt8)} {entries : List String}
    (h : List.Forall₂ Stays ls entries) (later : List (List UInt8)) :
    answers s mode (ls ++ later) =
      (String.join (entries.map (answer s mode)) ++ (answers s mode later).1,
        (answers s mode later).2) := by
  induction h with
  | nil => simp
  | cons hl _ ih =>
    obtain ⟨hentry, hstays⟩ := hl
    simp [answers, hentry, hstays, ih, String.append_assoc]

/-- The answers to the lines of a text are those to their entries, up to the first that leaves. -/
theorem answers_encoded (ls : List (List Char)) : answers s mode (ls.map encoded) =
    (String.join (((ls.map entered).takeWhile fun entry => !isLeaving entry).map (answer s mode)),
      none) := by
  induction ls with
  | nil => rfl
  | cons l ls ih =>
    rw [List.map_cons, answers, List.map_cons, List.takeWhile_cons]
    cases hl : isLeaving (entered l) with
    | true => simp [entryOf?_encoded, hl]
    | false => simp [entryOf?_encoded, hl, ih]

/-- A last line without characters has no answer. -/
theorem answers_append_nil (ls : List (List UInt8)) :
    answers s mode (ls ++ [[]]) = answers s mode ls := by
  induction ls with
  | nil => rfl
  | cons l ls ih => rw [List.cons_append, answers, answers, ih]

theorem answers_inputLines (input : String) :
    answers s mode (input.toUTF8.data.toList.splitOn '\n'.toUInt8) =
      answers s mode ((inputLines input).map encoded) := by
  rw [bytes_toUTF8, splitOn_encoded, inputLines]
  split
  case isTrue hlast =>
    obtain ⟨ls, hls⟩ := List.getLast?_eq_some_iff.mp hlast
    rw [hls, List.map_append, List.dropLast_concat]
    exact answers_append_nil _
  case isFalse => rfl

/-- Without backspaces a dialogue on a text answers its entries, and it does not fail. -/
theorem dialogue_toUTF8 {input : String} (h : '\x08' ∉ input.toList) :
    dialogue s mode input.toUTF8 =
      (line banner ++ String.join ((entries input).map (answer s mode)), none) := by
  have hentered : (inputLines input).map entered =
      (inputLines input).map fun l => String.ofList (trim l) := by
    refine List.map_congr_left fun l hl => entered_eq fun hmem => h ?_
    have hline : l ∈ input.toList.splitOn '\n' := by
      rw [inputLines] at hl
      split at hl
      · exact (List.dropLast_sublist _).subset hl
      · exact hl
    exact subset_of_mem_splitOn hline hmem
  rw [dialogue, answers_inputLines, answers_encoded, hentered]
  rfl

/-- A dialogue fails at the first line that is not UTF-8, if none before it leaves. -/
theorem answers_fail_iff {ls : List (List UInt8)} {printed : String} {f : ReadFault} :
    answers s mode ls = (printed, some f) ↔
      ∃ before l later entries, ls = before ++ l :: later ∧ List.Forall₂ Stays before entries ∧
        entryOf? l = none ∧ printed = String.join (entries.map (answer s mode)) ∧ f = .notUtf8 := by
  constructor
  · intro h
    induction ls generalizing printed with
    | nil => cases h
    | cons l ls ih =>
      rw [answers] at h
      cases hl : entryOf? l with
      | none =>
        rw [hl] at h
        cases h
        exact ⟨[], l, ls, [], rfl, .nil, hl, rfl, rfl⟩
      | some entry =>
        rw [hl] at h
        cases hentry : isLeaving entry with
        | true => simp [hentry] at h
        | false =>
          simp only [hentry, Bool.false_eq_true, if_false, Prod.mk.injEq] at h
          obtain ⟨rfl, hfault⟩ := h
          obtain ⟨before, l', later, entries, rfl, hbefore, hl', hprinted, rfl⟩ :=
            ih (Prod.ext rfl hfault)
          refine ⟨l :: before, l', later, entry :: entries, rfl, .cons ⟨hl, hentry⟩ hbefore, hl', ?_,
            rfl⟩
          rw [List.map_cons, String.join_cons]
          exact congrArg (answer s mode entry ++ ·) hprinted
  · rintro ⟨before, l, later, entries, rfl, hbefore, hl, rfl, rfl⟩
    rw [answers_append hbefore, answers, hl]
    simp

/-! ## Commands -/

/-- The words that choose a mode. -/
def Mode.words : Mode → List String
  | .text => []
  | .document => ["--json"]

/-- An invocation with the words of a mode and more. -/
def inMode (mode : Mode) (path : Option String) (words : List String) : Invocation :=
  ⟨mode.words ++ words, path⟩

/-- A text that can be read has a statement. -/
theorem exists_compileText {source : String} {query : Query} (s : Settings)
    (h : parse source = .ok query) : ∃ statement, compileText s source = .ok statement := by
  obtain ⟨e, he⟩ := Compile.exists_filter_eq_ok s (comparesIds_of_parse h)
  refine ⟨⟨query.operation, s.tables, query.root.joins, e⟩, ?_⟩
  simp only [compileText, h, Query.compile, he]
  rfl

theorem parse_nothing : parse "" = .error ⟨.unexpectedEnd (.token (.keyword .query)), 0⟩ := by
  decide +kernel

theorem parse_modeWord : parse "--json" = .error ⟨.lex (.invalidToken "--json"), 0⟩ := by
  decide +kernel

theorem compileText_of_parse_error {source : String} {e : ParseError} (s : Settings)
    (h : parse source = .error e) : compileText s source = .error (.parse e) := by
  simp only [compileText, h]

section
variable {path : Option String} {file : FileState}

theorem request_inMode {entry : String} (h : mode = .document ∨ entry ≠ "--json") :
    (inMode mode path [entry]).request = (mode, [entry]) := by
  cases mode with
  | document => rfl
  | text =>
    have hentry : entry ≠ "--json" := h.resolve_left Mode.noConfusion
    unfold Invocation.request
    split
    case h_1 words hwords => exact absurd (List.cons.inj hwords).1 hentry
    case h_2 => rfl

/-- A command with one word answers it. -/
theorem run_entry {entry : String} (hs : (inMode mode path []).settings file = .ok s)
    (h : mode = .document ∨ entry ≠ "--json") (input : String) :
    (inMode mode path [entry]).run file input = match compileText s entry with
      | .ok statement => ⟨0, output statement mode, ""⟩
      | .error e => Invocation.failed (.ofQuery e) := by
  have hsettings : (inMode mode path [entry]).settings file = .ok s := hs
  unfold Invocation.run Invocation.runOn Invocation.isInteractive
  simp only [hsettings, request_inMode h]
  rfl

/-- An invocation without a query holds a dialogue. -/
theorem runOn_dialogue (hs : (inMode mode path []).settings file = .ok s) (input : ByteArray) :
    (inMode mode path []).runOn file input = match dialogue s mode input with
      | (printed, none) => ⟨0, printed, ""⟩
      | (printed, some f) => ⟨1, printed, (Report.ofRead f).text⟩ := by
  unfold Invocation.runOn
  rw [hs]
  cases mode <;> rfl

/-- A dialogue fails exactly at a line that is not UTF-8, in front of which no line leaves. The lines in
front of it have been answered by then, and the lines behind it are not. -/
theorem runOn_fails_iff (hs : (inMode mode path []).settings file = .ok s) (input : ByteArray)
    (o : Outcome) : (inMode mode path []).runOn file input = o ∧ o.code ≠ 0 ↔
      ∃ before l later entries,
        input.data.toList.splitOn '\n'.toUInt8 = before ++ l :: later ∧
        List.Forall₂ Stays before entries ∧ entryOf? l = none ∧
        o = ⟨1, line banner ++ String.join (entries.map (answer s mode)),
          (Report.ofRead .notUtf8).text⟩ := by
  rw [runOn_dialogue hs]
  constructor
  · rw [dialogue]
    rcases hanswers : answers s mode (input.data.toList.splitOn '\n'.toUInt8) with ⟨printed, _ | f⟩
    · rintro ⟨rfl, hcode⟩
      exact absurd rfl hcode
    · rintro ⟨rfl, -⟩
      obtain ⟨before, l, later, entries, hls, hbefore, hl, rfl, rfl⟩ := answers_fail_iff.mp hanswers
      exact ⟨before, l, later, entries, hls, hbefore, hl, rfl⟩
  · rintro ⟨before, l, later, entries, hls, hbefore, hl, rfl⟩
    have hanswers : answers s mode (before ++ l :: later) = _ :=
      answers_fail_iff.mpr ⟨before, l, later, entries, rfl, hbefore, hl, rfl, rfl⟩
    rw [dialogue, hls, hanswers]
    exact ⟨rfl, Nat.one_ne_zero⟩

/-- A blank line is passed over, and a byte that no text has is not. -/
example : (inMode .text none []).runOn .missing [32, 10, 255, 10].toByteArray = ⟨1, line banner,
    "Error: stream did not contain valid UTF-8\n\nCaused by:\n    stream did not contain valid UTF-8\n"⟩ := by
  decide +kernel

theorem complaint_parse (entry : String) (e : ParseError) : complaint entry (.parse e) =
    line ("  " ++ entry) ++ line ("  " ++ caretLine entry e.position) ++
      line ("error: parse failed: " ++ e.message) := by
  have hbrief : "error: " ++ (Report.ofQuery (.parse e)).brief = "error: parse failed: " ++ e.message := by
    change "error: " ++ ("parse failed" ++ ": " ++ e.message) = _
    rw [← String.append_assoc]
    rfl
  rw [complaint, hbrief]

/-- What is printed for an entry, whatever was entered before it. -/
structure AnswersAlone (mode : Mode) (path : Option String) (file : FileState)
    (block : String → String) : Prop where
  /-- A dialogue prints its banner and a block for each entry. -/
  dialogue : ∀ input, '\x08' ∉ input.toList → (inMode mode path []).run file input =
    ⟨0, line banner ++ String.join ((entries input).map block), ""⟩
  /-- A line of blanks has an empty block. -/
  blank : block "" = ""
  /-- A query has the block that the command for it prints. -/
  query : ∀ entry query, parse entry = .ok query → ∀ input,
    (inMode mode path [entry]).run file input = ⟨0, block entry, ""⟩
  /-- The block of anything else says where it is wrong. -/
  complaint : ∀ entry e, entry ≠ "" → parse entry = .error e → block entry =
    line ("  " ++ entry) ++ line ("  " ++ caretLine entry e.position) ++
      line ("error: parse failed: " ++ e.message)
  /-- The command for anything else prints nothing and fails. In text mode the name of the other mode is
  no query. -/
  failure : ∀ entry e, parse entry = .error e → mode = .document ∨ entry ≠ "--json" → ∀ input,
    ∃ report, (inMode mode path [entry]).run file input = ⟨1, "", report⟩

/-- With settings that can be read, a dialogue answers each entry by itself and as the command for it
does. -/
theorem exists_answersAlone (hs : (inMode mode path []).settings file = .ok s) :
    ∃ block, AnswersAlone mode path file block := by
  refine ⟨answer s mode, ?_, rfl, ?_, ?_, ?_⟩
  · intro input h
    rw [Invocation.run, runOn_dialogue hs, dialogue_toUTF8 h]
  · intro entry query hquery input
    obtain ⟨statement, hstatement⟩ := exists_compileText s hquery
    -- Neither a blank line nor the name of a mode can be read, so the entry is taken for a query.
    have hword {word : String} {e : ParseError} (he : parse word = .error e) : entry ≠ word := by
      rintro rfl
      rw [hquery] at he
      cases he
    have hempty : entry.isEmpty = false := by simpa using hword parse_nothing
    rw [run_entry hs (.inr (hword parse_modeWord)), answer, hstatement, hempty]
    rfl
  · intro entry e hentry he
    have hempty : entry.isEmpty = false := by simpa using hentry
    rw [answer, hempty, compileText_of_parse_error s he]
    exact complaint_parse entry e
  · intro entry e he hmode input
    refine ⟨(Report.ofQuery (.parse e)).text, ?_⟩
    rw [run_entry hs hmode, compileText_of_parse_error s he]
    rfl

end

/-- An input with a blank line, a line that is no query, a query, and a line behind the one that
leaves. -/
def sampleInput : String := " \n\u00a0nope\r\nquery requests where id = 7\nExit\nquery requests where id = 8"

theorem exists_answersAlone_sample : (inMode .text none []).settings .missing = .ok {} ∧
    ∃ block : String → String,
      (inMode .text none []).run .missing sampleInput = ⟨0, line banner ++
        String.join [block "", block "nope", block "query requests where id = 7"], ""⟩ ∧
      block "" = "" ∧
      (inMode .text none ["query requests where id = 7"]).run .missing "" =
        ⟨0, block "query requests where id = 7", ""⟩ ∧
      block "nope" = "  nope\n  ^\nerror: parse failed: expected 'query', found identifier 'nope' at position 0\n" ∧
      ∃ report, (inMode .text none ["nope"]).run .missing "" = ⟨1, "", report⟩ := by
  have hs : (inMode .text none []).settings .missing = .ok {} := rfl
  obtain ⟨block, h⟩ := exists_answersAlone hs
  have hentries : entries sampleInput = ["", "nope", "query requests where id = 7"] := by
    decide +kernel
  have hnope : parse "nope" =
      .error ⟨.unexpectedToken (.token (.keyword .query)) (.identifier "nope"), 0⟩ := by decide +kernel
  have hquery : parse "query requests where id = 7" = .ok ⟨.rows, .test (.id .eq "7")⟩ := by
    decide +kernel
  have hdialogue := h.dialogue sampleInput (by decide +kernel)
  have hcomplaint := h.complaint "nope" _ (by decide) hnope
  rw [hentries] at hdialogue
  refine ⟨hs, block, hdialogue, h.blank, h.query _ _ hquery "", ?_,
    h.failure _ _ hnope (.inr (by decide)) ""⟩
  rw [hcomplaint]
  decide +kernel

end TrafficQuery.Command
