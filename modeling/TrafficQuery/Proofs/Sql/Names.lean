import TrafficQuery.Sql.Expr

/-!
# Names

No two tables of a statement have one name, and no two columns have.
-/

namespace TrafficQuery.Sql

theorem toString_nat_injective {m n : Nat} (h : toString m = toString n) : m = n := by
  have hdigits : Nat.toDigits 10 m = Nat.toDigits 10 n := by
    rw [Nat.toString_eq_ofList_toDigits, Nat.toString_eq_ofList_toDigits] at h
    exact String.ofList_injective h
  have hvalue := congrArg (Nat.ofDigitChars 10 · 0) hdigits
  simpa only [Nat.ofDigitChars_ten_toDigits] using hvalue

theorem Alias.toList_label_header (mark : Nat) :
    (Alias.header mark).label.toList = 'h' :: (toString mark).toList := by
  rw [Alias.label, String.toList_append]
  rfl

theorem Alias.label_injective {t u : Alias} (h : t.label = u.label) : t = u := by
  have hlist := congrArg String.toList h
  cases t with
  | request =>
    cases u with
    | request => rfl
    | response => exact absurd h (by decide)
    | header mark =>
      rw [toList_label_header] at hlist
      exact absurd (List.cons.inj hlist).1 (by decide)
  | response =>
    cases u with
    | request => exact absurd h (by decide)
    | response => rfl
    | header mark =>
      rw [toList_label_header] at hlist
      exact absurd (List.cons.inj hlist).1 (by decide)
  | header mark =>
    rw [toList_label_header] at hlist
    cases u with
    | header other =>
      rw [toList_label_header] at hlist
      have hnumber := String.toList_inj.mp (List.cons.inj hlist).2
      rw [toString_nat_injective hnumber]
    | _ => exact absurd (List.cons.inj hlist).1 (by decide)

theorem Column.label_injective {c d : Column} (h : c.label = d.label) : c = d := by
  cases c <;> cases d <;> first | rfl | exact absurd h (by decide)

end TrafficQuery.Sql
