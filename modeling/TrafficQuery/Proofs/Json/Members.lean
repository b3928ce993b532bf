import Mathlib.Data.List.Pairwise
import TrafficQuery.Proofs.Json.Reading

/-!
# Members that do not matter

What the members of an object add to a record does not depend on their order, and some members add nothing
that would be missed.
-/

namespace TrafficQuery.Json

/-- A change of the members of an object that a record of such fields does not tell: another order, a member
whose key is a text but no field, or a field that was missing, with a default value. -/
inductive Change (names : List String) (IsDefault : String → Tree → Prop) :
    List Member → List Member → Prop
  | permute {ms ns : List Member} : ms.Perm ns → Change names IsDefault ms ns
  | unknown {key : String} {k : TextParts} {v : Tree} {before after : List Member} :
      k.text? = some key.toList → key ∉ names →
      Change names IsDefault (before ++ after) (before ++ (k, v) :: after)
  | default {name : String} {k : TextParts} {v : Tree} {before after : List Member} :
      k.text? = some name.toList → (∀ m ∈ before ++ after, m.1.text? ≠ some name.toList) →
      IsDefault name v → Change names IsDefault (before ++ after) (before ++ (k, v) :: after)

section
variable {σ τ : Type} {f g : FieldMeaning σ} {fs : List (FieldMeaning σ)}

/-- Fields that are read into different parts of a record. -/
structure Independent (f g : FieldMeaning σ) : Prop where
  isRead_right : ∀ {s v s'}, f.adds s v = some s' → g.isRead s' = g.isRead s
  isRead_left : ∀ {s v s'}, g.adds s v = some s' → f.isRead s' = f.isRead s
  comm : ∀ s v w, ((f.adds s v).bind fun s => g.adds s w) = (g.adds s w).bind fun s => f.adds s v

/-- Fields that are read into different parts of a record, each of them once. -/
structure Apart (fs : List (FieldMeaning σ)) : Prop where
  once : ∀ f ∈ fs, ∀ {s v s'}, f.adds s v = some s' → f.isRead s' = true
  independent : fs.Pairwise Independent

/-- Steps of which either can be the first. -/
def Commute (p q : σ → Option σ) : Prop := ∀ s, (p s).bind q = (q s).bind p

theorem Commute.symm {p q : σ → Option σ} (h : Commute p q) : Commute q p := fun s => (h s).symm

theorem commute_some (p : σ → Option σ) : Commute some p := fun s => by
  rw [Option.bind_some, Option.bind_fun_some]

theorem commute_none (p : σ → Option σ) : Commute (fun _ => none) p := fun s => by
  rw [Option.bind_none, Option.bind_fun_none]

theorem FieldMeaning.isRead_of_take {s s' : σ} {v : Tree} (h : f.take s v = some s') :
    f.isRead s = false ∧ f.adds s v = some s' := by
  rw [take] at h
  split at h
  case isTrue => cases h
  case isFalse hread => exact ⟨Bool.eq_false_iff.mpr hread, h⟩

theorem FieldMeaning.take_eq {s : σ} (h : f.isRead s = false) (v : Tree) : f.take s v = f.adds s v :=
  if_neg (Bool.eq_false_iff.mp h)

/-- Values of independent fields can be taken in either order, if one of them can be taken first. -/
theorem Independent.bind_take (h : Independent f g) {s : σ} (hf : f.isRead s = false) (v w : Tree) :
    (f.take s v).bind (g.take · w) =
      if g.isRead s then none else (f.adds s v).bind (g.adds · w) := by
  rw [FieldMeaning.take_eq hf]
  cases hv : f.adds s v with
  | none => simp
  | some s' => rw [Option.bind_some, Option.bind_some, FieldMeaning.take, h.isRead_right hv]

theorem Independent.symm (h : Independent f g) : Independent g f :=
  ⟨h.isRead_left, h.isRead_right, fun s v w => (h.comm s w v).symm⟩

instance : Std.Symm (Independent (σ := σ)) := ⟨fun _ _ h => h.symm⟩

theorem Independent.bind_take_of_isRead (h : Independent f g) {s : σ} (hg : g.isRead s = true)
    (v w : Tree) : (f.take s v).bind (g.take · w) = none := by
  refine Option.bind_eq_none_iff.mpr fun s' hs' => ?_
  have hadds := (FieldMeaning.isRead_of_take hs').2
  exact if_pos ((h.isRead_right hadds).trans hg)

theorem Independent.commute (h : Independent f g) (v w : Tree) :
    Commute (f.take · v) (g.take · w) := by
  intro s
  -- A field that has been read refuses its value whether the other value comes first or not.
  dsimp only
  cases hf : f.isRead s with
  | true =>
    have hnone : f.take s v = none := if_pos hf
    rw [h.symm.bind_take_of_isRead hf, hnone]
    rfl
  | false =>
    cases hg : g.isRead s with
    | true =>
      have hnone : g.take s w = none := if_pos hg
      rw [h.bind_take_of_isRead hg, hnone]
      rfl
    | false => rw [h.bind_take hf, h.symm.bind_take hg, hf, hg, h.comm]

/-- Two values of one field cannot be taken in either order. -/
theorem commute_take_self (h : ∀ {s v s'}, f.adds s v = some s' → f.isRead s' = true) (v w : Tree) :
    Commute (f.take · v) (f.take · w) := by
  have hnone (s : σ) (v w : Tree) : (f.take s v).bind (f.take · w) = none := by
    refine Option.bind_eq_none_iff.mpr fun s' hs' => ?_
    exact if_pos (h (FieldMeaning.isRead_of_take hs').2)
  intro s
  rw [hnone, hnone]

theorem Apart.commute_take (h : Apart fs) (hf : f ∈ fs) (hg : g ∈ fs) (v w : Tree) :
    Commute (f.take · v) (g.take · w) := by
  have hpairs : fs.Pairwise fun f g => ∀ v w, Commute (f.take · v) (g.take · w) :=
    h.independent.imp fun hind v w => hind.commute v w
  have : Std.Symm fun f g : FieldMeaning σ => ∀ v w, Commute (f.take · v) (g.take · w) :=
    ⟨fun _ _ h v w => (h w v).symm⟩
  exact hpairs.forall_of_forall (fun f hf v w => commute_take_self (h.once f hf) v w) hf hg v w

/-- What a member does to any record. -/
theorem memberSays_cases (fs : List (FieldMeaning σ)) (m : Member) :
    (∀ s, memberSays fs s m = none) ∨ (∀ s, memberSays fs s m = some s) ∨
      ∃ f ∈ fs, ∀ s, memberSays fs s m = f.take s m.2 := by
  cases hkey : m.1.text? with
  | none => exact .inl fun s => by rw [memberSays, hkey]; rfl
  | some key =>
    cases hfind : fs.find? (·.name == String.ofList key) with
    | none => exact .inr (.inl fun s => by simp only [memberSays, hkey, Option.bind_some, hfind])
    | some f =>
      refine .inr (.inr ⟨f, List.mem_of_find?_eq_some hfind, fun s => ?_⟩)
      simp only [memberSays, hkey, Option.bind_some, hfind]

/-- It does not matter which of two members is read first. -/
theorem Apart.commute (h : Apart fs) (m n : Member) :
    Commute (memberSays fs · m) (memberSays fs · n) := by
  rcases memberSays_cases fs m with hm | hm | ⟨f, hf, hm⟩
  · rw [funext hm]
    exact commute_none _
  · rw [funext hm]
    exact commute_some _
  · rcases memberSays_cases fs n with hn | hn | ⟨g, hg, hn⟩
    · rw [funext hn]
      exact (commute_none _).symm
    · rw [funext hn]
      exact (commute_some _).symm
    · rw [funext hm, funext hn]
      exact h.commute_take hf hg m.2 n.2

theorem Apart.foldlM_perm (h : Apart fs) {ms ns : List Member} (hperm : ms.Perm ns) (s : σ) :
    ms.foldlM (memberSays fs) s = ns.foldlM (memberSays fs) s := by
  induction hperm generalizing s with
  | nil => rfl
  | cons m _ ih =>
    rw [List.foldlM_cons, List.foldlM_cons]
    exact congrArg (Option.bind _) (funext ih)
  | swap m n ms =>
    simp only [List.foldlM_cons, Option.bind_eq_bind]
    rw [← Option.bind_assoc, ← Option.bind_assoc]
    exact congrArg (Option.bind · _) (h.commute n m s)
  | trans _ _ ih ih' => rw [ih, ih']

theorem memberSays_of_find? {name : String} {k : TextParts} (hk : k.text? = some name.toList)
    (hfind : fs.find? (·.name == name) = some f) (s : σ) (v : Tree) :
    memberSays fs s (k, v) = f.take s v := by
  simp only [memberSays, hk, Option.bind_some, String.ofList_toList, hfind]

/-- A member whose key is a text but no field adds nothing. -/
theorem memberSays_of_unknown {key : String} {k : TextParts} (hk : k.text? = some key.toList)
    (hkey : key ∉ fs.map (·.name)) (s : σ) (v : Tree) : memberSays fs s (k, v) = some s := by
  have hfind : fs.find? (·.name == key) = none := by
    refine List.find?_eq_none.mpr fun f hf hname => hkey ?_
    exact List.mem_map.mpr ⟨f, hf, eq_of_beq hname⟩
  simp only [memberSays, hk, Option.bind_some, String.ofList_toList, hfind]

theorem foldlM_unknown {key : String} {k : TextParts} (hk : k.text? = some key.toList)
    (hkey : key ∉ fs.map (·.name)) (s : σ) (v : Tree) (before after : List Member) :
    (before ++ (k, v) :: after).foldlM (memberSays fs) s =
      (before ++ after).foldlM (memberSays fs) s := by
  rw [List.foldlM_append, List.foldlM_append]
  refine congrArg (Option.bind _) (funext fun s' => ?_)
  rw [List.foldlM_cons, memberSays_of_unknown hk hkey]
  rfl

/-- A field that no member names is not read. -/
theorem Apart.isRead_eq (h : Apart fs) (hf : f ∈ fs) {ms : List Member} {s s' : σ}
    (habsent : ∀ m ∈ ms, m.1.text? ≠ some f.name.toList) (hs : ms.foldlM (memberSays fs) s = some s') :
    f.isRead s' = f.isRead s := by
  induction ms generalizing s with
  | nil =>
    cases hs
    rfl
  | cons m ms ih =>
    rw [List.foldlM_cons] at hs
    obtain ⟨s₁, hm, hms⟩ := Option.bind_eq_some_iff.mp hs
    rw [ih (fun n hn => habsent n (List.mem_cons_of_mem _ hn)) hms]
    rw [memberSays] at hm
    obtain ⟨key, hkey, hm⟩ := Option.bind_eq_some_iff.mp hm
    split at hm
    case h_1 =>
      cases hm
      rfl
    case h_2 g hfind =>
      have hne : g ≠ f := by
        rintro rfl
        have hname : g.name = String.ofList key := by simpa using List.find?_some hfind
        refine habsent m List.mem_cons_self ?_
        rw [hkey, hname, String.toList_ofList]
      have hind : Independent g f := h.independent.forall (List.mem_of_find?_eq_some hfind) hf hne
      exact hind.isRead_right (FieldMeaning.isRead_of_take hm).2

/-- A default value of a field that is missing changes nothing once the record is completed. -/
theorem Apart.foldlM_default (h : Apart fs) {complete : σ → τ} {name : String}
    (hfind : fs.find? (·.name == name) = some f) {v : Tree}
    (hdefault : ∀ s, f.isRead s = false → ∃ s', f.adds s v = some s' ∧ complete s' = complete s)
    {k : TextParts} (hk : k.text? = some name.toList) {before after : List Member}
    (habsent : ∀ m ∈ before ++ after, m.1.text? ≠ some name.toList) {s : σ} (hs : f.isRead s = false) :
    ((before ++ (k, v) :: after).foldlM (memberSays fs) s).map complete =
      ((before ++ after).foldlM (memberSays fs) s).map complete := by
  have hname : f.name = name := by simpa using List.find?_some hfind
  -- The order does not matter, so the member is read last, when its field is known to be still unread.
  have hperm : (before ++ (k, v) :: after).Perm (before ++ after ++ [(k, v)]) :=
    List.perm_middle.trans (List.perm_append_singleton _ _).symm
  rw [h.foldlM_perm hperm, List.foldlM_append]
  cases hfold : (before ++ after).foldlM (memberSays fs) s with
  | none => rfl
  | some s₁ =>
    have hread : f.isRead s₁ = false := by
      rw [h.isRead_eq (List.mem_of_find?_eq_some hfind) (hname ▸ habsent) hfold, hs]
    obtain ⟨s₂, hadds, hcomplete⟩ := hdefault s₁ hread
    have hmember : memberSays fs s₁ (k, v) = some s₂ := by
      rw [memberSays_of_find? hk hfind, FieldMeaning.take_eq hread, hadds]
    rw [Option.bind_eq_bind, Option.bind_some, List.foldlM_cons, hmember]
    exact congrArg some hcomplete

/-- Changes of the members that a record does not tell leave it the same. -/
theorem Apart.eq_of_change (h : Apart fs) {complete : σ → τ} {IsDefault : String → Tree → Prop} {s : σ}
    (hdefault : ∀ name v, IsDefault name v → ∃ f, fs.find? (·.name == name) = some f ∧
      f.isRead s = false ∧
      ∀ s, f.isRead s = false → ∃ s', f.adds s v = some s' ∧ complete s' = complete s)
    {ms ns : List Member} (hchange : Change (fs.map (·.name)) IsDefault ms ns) :
    (ms.foldlM (memberSays fs) s).map complete = (ns.foldlM (memberSays fs) s).map complete := by
  cases hchange with
  | permute hperm => rw [h.foldlM_perm hperm]
  | unknown hk hkey => rw [foldlM_unknown hk hkey]
  | default hk habsent hvalue =>
    obtain ⟨f, hfind, hs, hadds⟩ := hdefault _ _ hvalue
    rw [h.foldlM_default hfind hadds hk habsent hs]

end
end TrafficQuery.Json
