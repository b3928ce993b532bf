import TrafficQuery.Proofs.Compile.UserText
import TrafficQuery.Proofs.Compile.Values
import TrafficQuery.Proofs.Query.Marks
import TrafficQuery.Proofs.Token.Case

/-!
# Letter case in queries

A query is read in the same way in whatever case its letters outside strings are written. It compiles to
the same text, and only the header names and the uuids that it binds keep the case they are written in.
-/

namespace TrafficQuery
open Text Sql Grammar

/-! ## Values in another case -/

/-- The values of a test that is read from some tokens when its words are in another case. A header name
may differ, and so may an id that is written as a uuid. -/
inductive Test.BindsRecased (s : Settings) (ts : List Token) : Test → List Value → Prop
  | same {test : Test} : BindsRecased s ts test (test.values s)
  | header {side : Side} {mark : Nat} {name name' : String} {wanted : HeaderMatch} {others : List Value} :
      (Test.header side mark name wanted).values s = .string name :: others →
      lower name = lower name' →
      BindsRecased s ts (.header side mark name wanted) (.string name' :: others)
  | uuid {op : OrderOp} {v w : String} {t : Token} :
      t ∈ ts → t.kind = .uuid v → lower v = lower w → BindsRecased s ts (.id op v) [.string w]

/-- The values of some fields, one after the other, and those of the fields in another case. -/
inductive BindsRecased (s : Settings) :
    List (List Token × Test) → List Value → List Value → Prop
  | nil : BindsRecased s [] [] []
  | cons {ts : List Token} {test : Test} {fields : List (List Token × Test)} {own us ws : List Value} :
      test.BindsRecased s ts own → BindsRecased s fields us ws →
      BindsRecased s ((ts, test) :: fields) (test.values s ++ us) (own ++ ws)

theorem BindsRecased.append {s : Settings} {fields more : List (List Token × Test)}
    {us us' ws ws' : List Value} (h : BindsRecased s fields us us') (hmore : BindsRecased s more ws ws') :
    BindsRecased s (fields ++ more) (us ++ ws) (us' ++ ws') := by
  induction h with
  | nil => exact hmore
  | cons htest _ ih =>
    rw [List.cons_append, List.append_assoc, List.append_assoc]
    exact .cons htest ih

variable {P : Nat → Nat → Prop} {s : Settings} {c c' : Condition} {groups : List (List Token)}

theorem Test.Resembles.bindsRecased {ts : List Token} {t u : Test} (h : t.Resembles lower P ts u)
    (s : Settings) : t.BindsRecased s ts (u.values s) := by
  cases h with
  | same => exact .same
  | uuid ht hk hvalue => exact .uuid ht hk hvalue
  | @header _ _ _ _ _ wanted _ hname => cases wanted <;> exact .header rfl hname
  | @raw side => cases side <;> exact .same

theorem Condition.Resembles.length_eq {f : String → String} (h : c.Resembles f P groups c') :
    groups.length = c.tests.length := by
  induction h with
  | test => rfl
  | binary _ _ ihl ihr => rw [tests, List.length_append, List.length_append, ihl, ihr]
  | negation _ ih => exact ih

/-- Each test binds its own values, so the values of a condition differ test by test. -/
theorem Condition.Resembles.bindsRecased (h : c.Resembles lower P groups c') (s : Settings)
    {fields : List (List Token × Test)} (hgroups : fields.map Prod.fst = groups)
    (htests : fields.map Prod.snd = c.tests) : BindsRecased s fields (c.values s) (c'.values s) := by
  induction h generalizing fields with
  | @test ts t u ht =>
    obtain ⟨field, rfl, rfl⟩ := List.map_eq_singleton_iff.mp hgroups
    obtain rfl : field.2 = t := (List.cons.inj htests).1
    exact .cons (ht.bindsRecased s) .nil
  | @binary op ls rs l l' r r' hl hr ihl ihr =>
    obtain ⟨left, right, rfl, hleft, hright⟩ := List.map_eq_append_iff.mp hgroups
    rw [List.map_append, tests] at htests
    have hlength : (left.map Prod.snd).length = l.tests.length := by
      rw [List.length_map, ← hl.length_eq, ← hleft, List.length_map]
    obtain ⟨hltests, hrtests⟩ := List.append_inj htests hlength
    have happend := (ihl hleft hltests).append (ihr hright hrtests)
    simpa only [values, tests, List.flatMap_append] using happend
  | negation _ ih => exact ih hgroups htests

/-! ## Text -/

theorem Test.Alike.refl (t : Test) : t.Alike t := by
  cases t with
  | header side mark name wanted => cases wanted <;> constructor
  | _ => constructor

theorem Test.Resembles.alike {f : String → String} {ts : List Token} {t u : Test}
    (h : t.Resembles f Eq ts u) : t.Alike u := by
  cases h with
  | same => exact .refl _
  | uuid => exact .id
  | @header side mark _ name name' wanted hmark =>
    subst hmark
    cases wanted <;> constructor
  | raw hmark =>
    subst hmark
    exact .raw

theorem Condition.Resembles.alike {f : String → String} (h : c.Resembles f Eq groups c') :
    c.Alike c' := by
  induction h with
  | test ht => exact .test ht.alike
  | binary _ _ ihl ihr => exact .binary ihl ihr
  | negation _ ih => exact .negation ih

/-- Filters of conditions that are alike make statements of one text. -/
theorem Condition.Alike.text_eq (h : c.Alike c') {e e' : Expr} (he : Compile.filter s c = .ok e)
    (he' : Compile.filter s c' = .ok e') (op : Operation) :
    Statement.text ⟨op, s.tables, c.joins, e⟩ = Statement.text ⟨op, s.tables, c'.joins, e'⟩ := by
  have hfilter := Compile.map_outline_filter (s := s) h
  rw [he, he'] at hfilter
  have houtline : e.outline = e'.outline := Except.ok.inj hfilter
  rw [← h.joins_eq]
  apply Statement.text_congr
  rw [← textOf_outline e, houtline, textOf_outline]

/-! ## Queries -/

/-- How a query and that of a text in another case resemble each other. -/
structure Query.Recased (source : String) (q q' : Query) : Prop where
  operation : q'.operation = q.operation
  /-- The conditions are the same, but for header names and ids that are written as uuids. For all
  settings both compile, to one text, with values that differ in the case of those alone. -/
  fields : ∃ fields, Fields (scan source).tokens fields ∧ fields.map Prod.snd = q.root.tests ∧
    q.root.Resembles lower Eq (fields.map Prod.fst) q'.root ∧
    ∀ (s : Settings) (op : Operation), ∃ st st', Query.compile s ⟨op, q.root⟩ = .ok st ∧
      Query.compile s ⟨op, q'.root⟩ = .ok st' ∧ st'.text = st.text ∧
      BindsRecased s fields st.values st'.values

/-- Texts that differ in the case of letters outside strings are both refused, with one fault at one
place, or both read, to queries that differ in case alone. -/
theorem parse_ignores_case {source source' : String} (h : Recased source.toList source'.toList) :
    Agree (ParseError.Resembles lower Eq) (Query.Recased source) (parse source) (parse source') := by
  have hcursor : (Cursor.start source).Recased (Cursor.start source') := ⟨rfl, h⟩
  obtain ⟨htokens, hending⟩ := hcursor.scan
  have hagree := agree_parse (fun _ _ h => h) htokens hending
  have hids (q : Query) (h : parse source = .ok q) := comparesIds_of_parse h
  have hids' (q : Query) (h : parse source' = .ok q) := comparesIds_of_parse h
  generalize parse source = x at hagree hids
  generalize parse source' = x' at hagree hids'
  cases hagree with
  | error he => exact .error he
  | @ok q q' hq =>
    obtain ⟨hop, fields, hfields, htests, hroot⟩ := hq
    refine .ok ⟨hop, fields, hfields, htests, hroot, fun s op => ?_⟩
    obtain ⟨e, he⟩ := Compile.exists_filter_eq_ok s (hids q rfl)
    obtain ⟨e', he'⟩ := Compile.exists_filter_eq_ok s (hids' q' rfl)
    have hcompile : Query.compile s ⟨op, q.root⟩ = _ := Query.compile_eq_ok_iff.mpr ⟨e, he, rfl⟩
    have hcompile' : Query.compile s ⟨op, q'.root⟩ = _ := Query.compile_eq_ok_iff.mpr ⟨e', he', rfl⟩
    refine ⟨_, _, hcompile, hcompile', (hroot.alike.text_eq he he' op).symm, ?_⟩
    rw [Query.values_of_compile hcompile, Query.values_of_compile hcompile']
    exact hroot.bindsRecased s rfl htests

/-- A query with a header name, a string and a uuid. -/
def smallSource : String :=
  "query requests where header.host = 'A b' or id = 0123abcd-0123-abcd-0123-0123456789ab"

/-- The same query in capitals, but for the string. -/
def capitalSource : String :=
  "QUERY REQUESTS WHERE HEADER.HOST = 'A b' OR ID = 0123ABCD-0123-ABCD-0123-0123456789AB"

theorem parse_ignores_case_capital : Recased smallSource.toList capitalSource.toList ∧
    Agree (ParseError.Resembles lower Eq) (Query.Recased smallSource) (parse smallSource)
      (parse capitalSource) := by
  have hplain {as bs cs ds : List Char} (h : Recased cs ds)
      (hsame : as.map Char.toLower = bs.map Char.toLower) (has : (as.all fun c => !isQuote c) = true) :
      Recased (as ++ cs) (bs ++ ds) :=
    h.append_of_sameLetters (.of_map_eq hsame) fun c hc => by
      simpa using List.all_eq_true.mp has c hc
  have hbehind : Recased (" or id = 0123abcd-0123-abcd-0123-0123456789ab".toList ++ [])
      (" OR ID = 0123ABCD-0123-ABCD-0123-0123456789AB".toList ++ []) :=
    hplain .nil (by decide) (by decide)
  have hstring := @Recased.string '\'' "A b".toList _ _ (by decide) (by decide) hbehind
  have hall : Recased ("query requests where header.host = ".toList ++ _)
      ("QUERY REQUESTS WHERE HEADER.HOST = ".toList ++ _) := hplain hstring (by decide) (by decide)
  have hsmall : smallSource.toList = "query requests where header.host = ".toList ++
      '\'' :: ("A b".toList ++
        '\'' :: (" or id = 0123abcd-0123-abcd-0123-0123456789ab".toList ++ [])) := by decide +kernel
  have hcapital : capitalSource.toList = "QUERY REQUESTS WHERE HEADER.HOST = ".toList ++
      '\'' :: ("A b".toList ++
        '\'' :: (" OR ID = 0123ABCD-0123-ABCD-0123-0123456789AB".toList ++ [])) := by decide +kernel
  have h : Recased smallSource.toList capitalSource.toList := by
    rw [hsmall, hcapital]
    exact hall
  exact ⟨h, parse_ignores_case h⟩

end TrafficQuery
