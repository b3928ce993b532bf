/-!
# Texts as bytes

A text is encoded character by character, and only a line feed has the byte of one. So the lines of its
bytes are the bytes of its lines.
-/

namespace TrafficQuery.Text

/-! ## Parts between separators -/

section
variable {α : Type} [BEq α] {a : α}

/-- What has no separator in it goes to the first part. -/
theorem splitOn_append_of_not_mem [LawfulBEq α] {as : List α} (h : a ∉ as) (bs : List α) :
    (as ++ bs).splitOn a = (bs.splitOn a).modifyHead (as ++ ·) := by
  induction as with
  | nil => cases hbs : bs.splitOn a <;> simp [hbs]
  | cons x as ih =>
    obtain ⟨hx, has⟩ := List.ne_and_not_mem_of_not_mem_cons h
    have hne : (x == a) = false := beq_false_of_ne (Ne.symm hx)
    rw [List.cons_append, List.splitOn_cons_eq_if_modifyHead, hne, ih has]
    simp [Function.comp_def]

theorem subset_of_mem_splitOn {as part : List α} (h : part ∈ as.splitOn a) : part ⊆ as := by
  induction as generalizing part with
  | nil =>
    rw [List.splitOn_nil, List.mem_singleton] at h
    exact h ▸ List.Subset.refl []
  | cons x as ih =>
    rw [List.splitOn_cons_eq_if_modifyHead] at h
    split at h
    · rcases List.mem_cons.mp h with rfl | h
      · exact List.nil_subset _
      · exact List.subset_cons_of_subset x (ih h)
    · obtain ⟨first, others, hparts⟩ := List.exists_cons_of_ne_nil (List.splitOn_ne_nil a as)
      rw [hparts] at h ih
      rcases List.mem_cons.mp h with rfl | h
      · exact List.cons_subset_cons x (ih List.mem_cons_self)
      · exact List.subset_cons_of_subset x (ih (List.mem_cons_of_mem _ h))

end

/-! ## Bytes -/

/-- The bytes of a text. -/
def encoded (cs : List Char) : List UInt8 := cs.flatMap String.utf8EncodeChar

theorem bytes_toUTF8 (s : String) : s.toUTF8.data.toList = encoded s.toList := by
  rw [String.toUTF8_eq_toByteArray, ← String.ofList_toList (s := s), String.toByteArray_ofList,
    List.utf8Encode, List.toList_data_toByteArray, String.toList_ofList, encoded]

theorem fromUTF8?_toUTF8 (s : String) : String.fromUTF8? s.toUTF8 = some s := by
  rw [String.fromUTF8?, String.toUTF8_eq_toByteArray, dif_pos s.isValidUTF8]
  rfl

theorem fromUTF8?_encoded (cs : List Char) :
    String.fromUTF8? (encoded cs).toByteArray = some (String.ofList cs) := by
  have h : (encoded cs).toByteArray = (String.ofList cs).toUTF8 := by
    rw [String.toUTF8_eq_toByteArray, String.toByteArray_ofList]
    rfl
  rw [h, fromUTF8?_toUTF8]

/-- Only a line feed has the byte of one. -/
theorem feed_mem_utf8EncodeChar_iff {c : Char} :
    '\n'.toUInt8 ∈ String.utf8EncodeChar c ↔ c = '\n' := by
  have hbyte (n : Nat) : '\n'.toUInt8 = UInt8.ofNat n ↔ n % 256 = 10 := by
    rw [← UInt8.toNat_inj, UInt8.toNat_ofNat']
    exact eq_comm
  have hchar : c = '\n' ↔ c.val.toNat = 10 := by
    rw [Char.ext_iff, ← UInt32.toNat_inj]
    rfl
  rw [hchar]
  simp only [String.utf8EncodeChar]
  repeat' split
  all_goals
    simp only [List.mem_cons, List.not_mem_nil, or_false, hbyte]
    omega

/-- The lines of the bytes of a text are the bytes of its lines. -/
theorem splitOn_encoded (cs : List Char) :
    (encoded cs).splitOn '\n'.toUInt8 = (cs.splitOn '\n').map encoded := by
  induction cs with
  | nil => rfl
  | cons c cs ih =>
    rw [encoded, List.flatMap_cons, ← encoded, List.splitOn_cons_eq_if_modifyHead]
    by_cases hc : c = '\n'
    · have hfeed : String.utf8EncodeChar '\n' = ['\n'.toUInt8] := rfl
      rw [hc, hfeed, List.singleton_append, List.splitOn_cons_eq_if_modifyHead, ih]
      simp [encoded]
    · have hnot := mt feed_mem_utf8EncodeChar_iff.mp hc
      rw [splitOn_append_of_not_mem hnot, ih, if_neg (by simpa using hc)]
      cases cs.splitOn '\n' with
      | nil => rfl
      | cons l ls => rfl

end TrafficQuery.Text
