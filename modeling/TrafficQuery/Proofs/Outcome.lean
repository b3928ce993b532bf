/-!
# Computations that can fail

When a sequence of computations gives a value, what each value keeps that it gives on the way, and where
the sequence fails.
-/

namespace TrafficQuery

universe u
variable {ε α β : Type u}

theorem bind_eq_ok_iff {x : Except ε α} {f : α → Except ε β} {b : β} :
    (x >>= f) = .ok b ↔ ∃ a, x = .ok a ∧ f a = .ok b := by
  cases x with
  | error e => simp [bind, Except.bind]
  | ok a => simp [bind, Except.bind]

theorem bind_eq_error_iff {x : Except ε α} {f : α → Except ε β} {e : ε} :
    (x >>= f) = .error e ↔ x = .error e ∨ ∃ a, x = .ok a ∧ f a = .error e := by
  cases x with
  | error e' => simp [bind, Except.bind]
  | ok a => simp [bind, Except.bind]

variable {f : β → α → Except ε β} {a : α} {as bs : List α} {b b' : β}

theorem foldlM_cons_eq_ok_iff : (a :: as).foldlM f b = .ok b' ↔
    ∃ d, f b a = .ok d ∧ as.foldlM f d = .ok b' := by
  rw [List.foldlM_cons, bind_eq_ok_iff]

theorem foldlM_append_eq_ok_iff : (as ++ bs).foldlM f b = .ok b' ↔
    ∃ d, as.foldlM f b = .ok d ∧ bs.foldlM f d = .ok b' := by
  rw [List.foldlM_append, bind_eq_ok_iff]

theorem foldlM_preserves {P : β → Prop} (hf : ∀ d a d', P d → f d a = .ok d' → P d') (hb : P b)
    (h : as.foldlM f b = .ok b') : P b' := by
  induction as generalizing b with
  | nil =>
    obtain rfl := Except.ok.inj h
    exact hb
  | cons a as ih =>
    obtain ⟨d, hd, hrest⟩ := foldlM_cons_eq_ok_iff.mp h
    exact ih (hf b a d hb hd) hrest

/-- A sequence fails at the first of its members that fails. -/
theorem exists_of_foldlM_eq_error {e : ε} (h : as.foldlM f b = .error e) :
    ∃ before a after d, as = before ++ a :: after ∧ before.foldlM f b = .ok d ∧ f d a = .error e := by
  induction as generalizing b with
  | nil => cases h
  | cons a as ih =>
    rw [List.foldlM_cons] at h
    rcases bind_eq_error_iff.mp h with ha | ⟨d, hd, hrest⟩
    · exact ⟨[], a, as, b, rfl, rfl, ha⟩
    · obtain ⟨before, a', after, d', rfl, hbefore, he⟩ := ih hrest
      exact ⟨a :: before, a', after, d', rfl, foldlM_cons_eq_ok_iff.mpr ⟨d, hd, hbefore⟩, he⟩

end TrafficQuery
