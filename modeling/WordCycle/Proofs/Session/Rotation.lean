import WordCycle.Rotation
import Mathlib.Data.List.Nodup

/-! Going round a list without repetitions is arithmetic on the position: each step adds its change of
index, and positions count modulo the length. -/

namespace WordCycle
set_option autoImplicit false

/-- The text at a position of the round through a list; position zero is its first text. -/
def textAround (texts : List Text) (pos : Int) : Option Text := texts[(pos % texts.length).toNat]?

/-- The change of index of several steps. -/
def Direction.total : List Direction → Int
  | [] => 0
  | direction :: rest => direction.step + total rest

theorem textAround_zero (texts : List Text) : textAround texts 0 = texts.head? := by
  rw [textAround, Int.zero_emod, Int.toNat_zero, List.head?_eq_getElem?]

theorem textAround_mem {texts : List Text} {pos : Int} {t : Text}
    (h : textAround texts pos = some t) : t ∈ texts := by
  rw [textAround] at h
  exact List.mem_of_getElem? h

theorem emod_length_toNat_lt {texts : List Text} (h : texts ≠ []) (pos : Int) :
    (pos % texts.length).toNat < texts.length := by
  have hpos : (0 : Int) < texts.length := by
    have := List.length_pos_iff.mpr h
    omega
  have hnonneg := Int.emod_nonneg pos (Int.ne_of_gt hpos)
  have hlt := Int.emod_lt_of_pos pos hpos
  omega

theorem exists_textAround {texts : List Text} (h : texts ≠ []) (pos : Int) :
    ∃ t, textAround texts pos = some t :=
  ⟨_, List.getElem?_eq_getElem (emod_length_toNat_lt h pos)⟩

/-! ## One step -/

/-- Beside the list, and from no text, both directions go to the first text. -/
theorem rotate_of_absent {texts : List Text} (hne : texts ≠ []) {previous : Option Text}
    (habsent : ∀ t ∈ previous, t ∉ texts) (direction : Direction) :
    rotate texts previous direction = .ok (texts.head hne) := by
  obtain ⟨first, rest, rfl⟩ := List.exists_cons_of_ne_nil hne
  have hnone : (previous.bind fun p => (first :: rest).idxOf? p) = none := by
    rw [Option.bind_eq_none_iff]
    intro p hp
    exact List.idxOf?_eq_none_iff.mpr (habsent p hp)
  simp only [rotate, hnone]
  rfl

theorem rotate_none (texts : List Text) (direction : Direction) {t : Text}
    (h : textAround texts 0 = some t) : rotate texts none direction = .ok t := by
  have hne := List.ne_nil_of_mem (textAround_mem h)
  rw [textAround_zero, List.head?_eq_some_head hne] at h
  obtain rfl := Option.some.inj h
  exact rotate_of_absent hne (by simp) direction

/-- A step from the text at a position goes to the position beside it. -/
theorem rotate_textAround {texts : List Text} (hnodup : texts.Nodup) (pos : Int)
    (direction : Direction) {previous next : Text} (hprevious : textAround texts pos = some previous)
    (hnext : textAround texts (pos + direction.step) = some next) :
    rotate texts (some previous) direction = .ok next := by
  obtain ⟨hlt, hget⟩ := List.getElem?_eq_some_iff.mp hprevious
  have hne : texts ≠ [] := List.ne_nil_of_length_pos (by omega)
  have hindex : texts.idxOf? previous = some (pos % texts.length).toNat := by
    rw [List.idxOf?_eq_some_iff]
    refine ⟨hlt, hget, ?_⟩
    intro j hj heq
    have hsame : j = (pos % texts.length).toNat := hnodup.getElem_inj_iff.mp (heq.trans hget.symm)
    omega
  have hcast : ((pos % texts.length).toNat : Int) = pos % texts.length := by
    apply Int.toNat_of_nonneg
    apply Int.emod_nonneg
    have := List.length_pos_iff.mpr hne
    omega
  have hstep : (((pos % texts.length).toNat : Int) + direction.step) % texts.length =
      (pos + direction.step) % texts.length := by
    rw [hcast, Int.emod_add_emod]
  obtain ⟨first, rest, rfl⟩ := List.exists_cons_of_ne_nil hne
  rw [textAround] at hnext
  simp only [rotate, Option.bind_some, hindex]
  rw [hstep, List.getD_eq_getElem?_getD, hnext, Option.getD_some]

/-! ## Any step -/

theorem rotate_mem {texts : List Text} {previous : Option Text} {direction : Direction} {t : Text}
    (h : rotate texts previous direction = .ok t) : t ∈ texts := by
  unfold rotate at h
  cases texts with
  | nil => cases h
  | cons first rest =>
    simp only at h
    split at h
    · obtain rfl : first = t := Except.ok.inj h
      exact List.mem_cons_self
    · next i _ =>
      obtain rfl := Except.ok.inj h
      have hlt := emod_length_toNat_lt (List.cons_ne_nil first rest) (i + direction.step)
      rw [List.getD_eq_getElem?_getD, List.getElem?_eq_getElem hlt]
      exact List.getElem_mem hlt

theorem exists_rotate {texts : List Text} (h : texts ≠ []) (previous : Option Text)
    (direction : Direction) : ∃ t, rotate texts previous direction = .ok t := by
  obtain ⟨first, rest, rfl⟩ := List.exists_cons_of_ne_nil h
  unfold rotate
  split
  · next heq => cases heq
  · split
    · exact ⟨_, rfl⟩
    · exact ⟨_, rfl⟩

end WordCycle
