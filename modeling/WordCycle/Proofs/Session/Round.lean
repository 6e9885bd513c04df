import WordCycle.Proofs.Session.Rotation
import Mathlib.Data.List.Perm.Subperm

/-! Steps one after the other, each from the text to which the one before it came. A run of steps changes
the position by one for each step, and as many steps one way as there are texts come to each text
once and back to the first. -/

namespace WordCycle
set_option autoImplicit false

/-! ## Changes of index -/

def Direction.opposite : Direction → Direction
  | forward => backward
  | backward => forward

theorem Direction.step_add_opposite (direction : Direction) :
    direction.step + direction.opposite.step = 0 := by
  cases direction <;> rfl

theorem Direction.total_eq_count (directions : List Direction) :
    total directions = (directions.count .forward : Int) - directions.count .backward := by
  induction directions with
  | nil => rfl
  | cons direction rest ih =>
    cases direction with
    | forward =>
      have hother : (forward :: rest).count .backward = rest.count .backward := by simp
      rw [total, ih, step, hother, List.count_cons_self]
      omega
    | backward =>
      have hother : (backward :: rest).count .forward = rest.count .forward := by simp
      rw [total, ih, step, hother, List.count_cons_self]
      omega

theorem Direction.total_replicate (n : Nat) (direction : Direction) :
    total (List.replicate n direction) = n * direction.step := by
  induction n with
  | zero => simp [total]
  | succ n ih =>
    rw [List.replicate_succ, total, ih, Int.natCast_succ, Int.add_mul, Int.one_mul, Int.add_comm]

/-! ## Positions -/

theorem textAround_natCast {texts : List Text} {i : Nat} (hi : i < texts.length) :
    textAround texts i = some texts[i] := by
  have hmod : ((i : Int) % texts.length).toNat = i := by
    rw [Int.emod_eq_of_lt (Int.natCast_nonneg i) (Int.ofNat_lt.mpr hi), Int.toNat_natCast]
  rw [textAround, hmod, List.getElem?_eq_getElem hi]

theorem exists_textAround_of_mem {texts : List Text} {t : Text} (h : t ∈ texts) :
    ∃ pos, textAround texts pos = some t := by
  obtain ⟨i, hi, rfl⟩ := List.getElem_of_mem h
  exact ⟨i, textAround_natCast hi⟩

theorem textAround_add_mul (texts : List Text) (pos rounds : Int) :
    textAround texts (pos + texts.length * rounds) = textAround texts pos := by
  rw [textAround, Int.add_mul_emod_self_left, textAround]

/-- Positions less than a round apart show different texts. -/
theorem textAround_ne {texts : List Text} (hnodup : texts.Nodup) {pos pos' : Int} (hlt : pos < pos')
    (hnear : pos' < pos + texts.length) : textAround texts pos ≠ textAround texts pos' := by
  intro heq
  have hne : texts ≠ [] := by
    rintro rfl
    simp at hnear
    omega
  have hindex : (pos % texts.length).toNat = (pos' % texts.length).toNat := by
    have hfirst := emod_length_toNat_lt hne pos
    have hsecond := emod_length_toNat_lt hne pos'
    rw [textAround, textAround, List.getElem?_eq_getElem hfirst, List.getElem?_eq_getElem hsecond] at heq
    exact hnodup.getElem_inj_iff.mp (Option.some.inj heq)
  have hlength : (texts.length : Int) ≠ 0 := by omega
  have hmod : pos' % texts.length = pos % texts.length := by
    have hpos := Int.emod_nonneg pos hlength
    have hpos' := Int.emod_nonneg pos' hlength
    omega
  have hdvd : (texts.length : Int) ∣ pos' - pos :=
    Int.dvd_of_emod_eq_zero (Int.emod_eq_emod_iff_emod_sub_eq_zero.mp hmod)
  have hround := Int.le_of_dvd (by omega) hdvd
  omega

theorem textAround_steps_ne {texts : List Text} (hnodup : texts.Nodup) (pos : Int)
    (direction : Direction) {j k : Nat} (hlt : j < k) (hnear : k < j + texts.length) :
    textAround texts (pos + j * direction.step) ≠ textAround texts (pos + k * direction.step) := by
  cases direction with
  | forward =>
    rw [Direction.step, Int.mul_one, Int.mul_one]
    exact textAround_ne hnodup (by omega) (by omega)
  | backward =>
    rw [Direction.step, Int.mul_neg_one, Int.mul_neg_one]
    exact (textAround_ne hnodup (by omega) (by omega)).symm

/-! ## Runs of steps -/

/-- From the text at a position on, after any number of the steps the text is that at the position
changed by these steps. -/
theorem exists_rotations {texts : List Text} (hnodup : texts.Nodup) (directions : List Direction)
    {pos : Int} {t : Text} (ht : textAround texts pos = some t) :
    ∃ visited, rotations texts (some t) directions = .ok visited ∧
      visited.length = directions.length ∧
      ∀ k ≤ directions.length,
        (t :: visited)[k]? = textAround texts (pos + Direction.total (directions.take k)) := by
  induction directions generalizing pos t with
  | nil =>
    refine ⟨[], rfl, rfl, ?_⟩
    intro k hk
    obtain rfl : k = 0 := by simpa using hk
    rw [List.take_zero, Direction.total, Int.add_zero, ht]
    rfl
  | cons direction rest ih =>
    obtain ⟨next, hnext⟩ := exists_textAround (List.ne_nil_of_mem (textAround_mem ht)) (pos + direction.step)
    have hrotate := rotate_textAround hnodup pos direction ht hnext
    obtain ⟨visited, hrun, hlength, hall⟩ := ih hnext
    refine ⟨next :: visited, ?_, ?_, ?_⟩
    · rw [rotations, hrotate]
      simp only [bind, Except.bind, hrun]
      rfl
    · rw [List.length_cons, hlength, List.length_cons]
    · intro k hk
      cases k with
      | zero =>
        rw [List.take_zero, Direction.total, Int.add_zero, ht]
        rfl
      | succ k =>
        rw [List.getElem?_cons_succ, hall k (by simpa using hk), List.take_succ_cons, Direction.total,
          Int.add_assoc]

theorem exists_rotations_opposite {texts : List Text} (hnodup : texts.Nodup) (direction : Direction)
    {t : Text} (ht : t ∈ texts) :
    ∃ next, rotations texts (some t) [direction, direction.opposite] = .ok [next, t] := by
  obtain ⟨pos, hpos⟩ := exists_textAround_of_mem ht
  obtain ⟨visited, hrun, hlength, hall⟩ :=
    exists_rotations hnodup [direction, direction.opposite] hpos
  obtain ⟨next, last, rfl⟩ := List.length_eq_two.mp hlength
  have hback := hall 2 (Nat.le_refl 2)
  have htotal : Direction.total ([direction, direction.opposite].take 2) = 0 := by
    have hsteps := direction.step_add_opposite
    simp only [List.take_succ_cons, List.take_zero, Direction.total]
    omega
  rw [htotal, Int.add_zero, hpos] at hback
  obtain rfl : last = t := Option.some.inj hback
  exact ⟨next, hrun⟩

/-- What as many steps one way as there are texts come to are all the texts, each once. -/
theorem perm_of_steps {texts visited : List Text} (hnodup : texts.Nodup) {pos : Int}
    {direction : Direction} (hlength : visited.length = texts.length)
    (hvisited : ∀ k < texts.length,
      visited[k]? = textAround texts (pos + (k + 1 : Nat) * direction.step)) : visited.Perm texts := by
  have hdistinct : visited.Nodup := by
    rw [List.nodup_iff_getElem?_ne_getElem?]
    intro j k hjk hk
    rw [hlength] at hk
    rw [hvisited j (Nat.lt_trans hjk hk), hvisited k hk]
    exact textAround_steps_ne hnodup pos direction (by omega) (by omega)
  have hsubset : visited ⊆ texts := by
    intro u hu
    obtain ⟨k, hk, rfl⟩ := List.getElem_of_mem hu
    have hget := hvisited k (hlength ▸ hk)
    rw [List.getElem?_eq_getElem hk] at hget
    exact textAround_mem hget.symm
  exact (hdistinct.subperm hsubset).perm_of_length_le (Nat.le_of_eq hlength.symm)

theorem exists_rotations_replicate {texts : List Text} (hnodup : texts.Nodup) (direction : Direction)
    {t : Text} (ht : t ∈ texts) :
    ∃ visited, rotations texts (some t) (List.replicate texts.length direction) = .ok visited ∧
      visited.Perm texts ∧ visited.getLast? = some t := by
  obtain ⟨pos, hpos⟩ := exists_textAround_of_mem ht
  obtain ⟨visited, hrun, hlength, hall⟩ :=
    exists_rotations hnodup (List.replicate texts.length direction) hpos
  rw [List.length_replicate] at hlength hall
  have hvisited : ∀ k < texts.length,
      visited[k]? = textAround texts (pos + (k + 1 : Nat) * direction.step) := by
    intro k hk
    have htotal := Direction.total_replicate (k + 1) direction
    rw [← htotal, ← List.getElem?_cons_succ, hall (k + 1) hk, List.take_replicate,
      Nat.min_eq_left (Nat.succ_le_of_lt hk)]
  refine ⟨visited, hrun, perm_of_steps hnodup hlength hvisited, ?_⟩
  have hne := List.length_pos_of_mem ht
  have hlast : texts.length - 1 + 1 = texts.length := by omega
  rw [List.getLast?_eq_getElem?, hlength, hvisited _ (by omega), hlast, textAround_add_mul, hpos]

/-- Going round a list without repetitions. Steps from the text at an index are never refused and end at
the index changed by one up for each step forward and one down for each backward, counted round the
list; a step and the opposite one lead back; and as many steps one way as there are texts come to each of
them once and end where they began. From no text, or from one that is not in the list, the first step of
either direction comes to the first text. -/
theorem rotations_go_round {texts : List Text} (hne : texts ≠ []) (hnodup : texts.Nodup) :
    (∀ (i : Nat) (hi : i < texts.length) (directions : List Direction), ∃ visited,
      rotations texts (some texts[i]) directions = .ok visited ∧
        visited.length = directions.length ∧
        (texts[i] :: visited).getLast? =
          texts[((i + directions.count .forward - directions.count .backward : Int) %
            texts.length).toNat]?) ∧
    (∀ t ∈ texts, ∀ direction, ∃ next,
      rotations texts (some t) [direction, direction.opposite] = .ok [next, t]) ∧
    (∀ t ∈ texts, ∀ direction, ∃ visited,
      rotations texts (some t) (List.replicate texts.length direction) = .ok visited ∧
        visited.Perm texts ∧ visited.getLast? = some t) ∧
    ∀ previous : Option Text, (∀ t ∈ previous, t ∉ texts) → ∀ direction,
      rotate texts previous direction = .ok (texts.head hne) := by
  refine ⟨?_, fun t ht direction => exists_rotations_opposite hnodup direction ht,
    fun t ht direction => exists_rotations_replicate hnodup direction ht,
    fun _ habsent direction => rotate_of_absent hne habsent direction⟩
  intro i hi directions
  obtain ⟨visited, hrun, hlength, hall⟩ := exists_rotations hnodup directions (textAround_natCast hi)
  refine ⟨visited, hrun, hlength, ?_⟩
  rw [List.getLast?_eq_getElem?, List.length_cons, Nat.add_sub_cancel, hlength,
    hall _ (Nat.le_refl _), List.take_length, Direction.total_eq_count, ← Int.add_sub_assoc]
  rfl

theorem rotations_go_round_three :
    ["foobar".toList, "fob".toList, "fo".toList] ≠ [] ∧
      ["foobar".toList, "fob".toList, "fo".toList].Nodup ∧
      (∃ visited, rotations ["foobar".toList, "fob".toList, "fo".toList] (some "fob".toList)
          [.backward, .backward, .forward, .backward] = .ok visited ∧
        ("fob".toList :: visited).getLast? = some "fo".toList) ∧
      ∃ visited, rotations ["foobar".toList, "fob".toList, "fo".toList] (some "fob".toList)
          (List.replicate 3 .backward) = .ok visited ∧
        visited.Perm ["foobar".toList, "fob".toList, "fo".toList] ∧
        visited.getLast? = some "fob".toList := by
  have hnodup : ["foobar".toList, "fob".toList, "fo".toList].Nodup := by decide
  obtain ⟨hrun, -, hround, -⟩ := rotations_go_round (List.cons_ne_nil _ _) hnodup
  obtain ⟨visited, hvisited, -, hlast⟩ :=
    hrun 1 (by decide) [.backward, .backward, .forward, .backward]
  exact ⟨List.cons_ne_nil _ _, hnodup, ⟨visited, hvisited, hlast⟩,
    hround "fob".toList (by decide) .backward⟩

end WordCycle
