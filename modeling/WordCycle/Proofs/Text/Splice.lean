import WordCycle.Text.Slice

/-! Replacing a part of a text, by the parts of the text: what stands before, what is replaced and
what stands behind. -/

namespace WordCycle.Text
set_option autoImplicit false

theorem exists_parts (t : Text) (start stop : Int) (hstart : 0 ≤ start) (hle : start ≤ stop)
    (hstop : stop ≤ t.length) :
    ∃ before old behind : Text, t = before ++ old ++ behind ∧ start = before.length ∧
      stop = (before.length + old.length : Nat) := by
  obtain ⟨i, rfl⟩ := Int.eq_ofNat_of_zero_le hstart
  obtain ⟨j, rfl⟩ := Int.eq_ofNat_of_zero_le (Int.le_trans hstart hle)
  refine ⟨t.take i, (t.drop i).take (j - i), (t.drop i).drop (j - i), ?_, ?_, ?_⟩
  · rw [List.append_assoc, List.take_append_drop, List.take_append_drop]
  · rw [List.length_take]
    omega
  · rw [List.length_take, List.length_take, List.length_drop]
    omega

theorem slice_parts (before old behind : Text) :
    (before ++ old ++ behind).slice before.length (before.length + old.length : Nat) = old := by
  rw [slice_natCast, List.append_assoc, List.drop_left, Nat.add_sub_cancel_left, List.take_left]

theorem splice_parts (before old behind new : Text) :
    (before ++ old ++ behind).splice before.length (before.length + old.length : Nat) new =
      before ++ new ++ behind := by
  have htake : (before ++ old ++ behind).take before.length = before := by
    rw [List.append_assoc, List.take_left]
  have hdrop : (before ++ old ++ behind).drop (before.length + old.length) = behind := by
    rw [← List.length_append, List.drop_left]
  rw [splice_natCast, htake, hdrop]

theorem length_splice (t new : Text) (start stop : Int) (hstart : 0 ≤ start) (hle : start ≤ stop)
    (hstop : stop ≤ t.length) :
    ((t.splice start stop new).length : Int) = t.length - (stop - start) + new.length := by
  obtain ⟨before, old, behind, rfl, rfl, rfl⟩ := t.exists_parts start stop hstart hle hstop
  rw [splice_parts]
  simp only [List.length_append]
  omega

end WordCycle.Text
