import WordCycle.Proofs.Session.Coherence
import WordCycle.Proofs.Undo.Inverse

/-! Where the cursor of a buffer stands. Nothing but an undo can bring it out of the text, and an undo only
if the text is not the one that its group of edits left: that is, if something was undone while a
group was open. -/

namespace WordCycle.MemoryBuffer
set_option autoImplicit false

variable {b : MemoryBuffer}

/-! ## One step -/

theorem inside_apply (h : b.place.Inside) {s : Step} (hs : b.Allows s) (hundo : s ≠ .undo) :
    (b.apply s).place.Inside := by
  cases s with
  | insert new => exact inside_insert h new
  | replace start stop new => exact inside_replace h new hs.1 hs.2.1 hs.2.2
  | setCursor pos => exact b.inside_setCursor pos
  | endGroup =>
    rw [apply, endGroup]
    cases b.undoStack.endGroup with
    | ok s => exact h
    | error e => exact h
  | undo => exact absurd rfl hundo
  | beginGroup => exact h
  | showPopup visible => exact h

theorem inside_applyAll (h : b.place.Inside) (steps : List Step) (hsteps : b.AllowsAll steps)
    (hundo : .undo ∉ steps) : (b.applyAll steps).place.Inside := by
  induction steps generalizing b with
  | nil => exact h
  | cons s steps ih =>
    have hne : s ≠ .undo := fun heq => hundo (heq ▸ List.mem_cons_self)
    exact ih (inside_apply h hsteps.1 hne) hsteps.2 fun hmem => hundo (List.mem_cons_of_mem s hmem)

theorem AllowsAll.take {steps : List Step} (h : b.AllowsAll steps) (n : Nat) :
    b.AllowsAll (steps.take n) := by
  induction steps generalizing b n with
  | nil => simpa using h
  | cons s steps ih =>
    cases n with
    | zero => trivial
    | succ n => exact ⟨h.1, ih h.2 n⟩

/-! ## Any steps -/

/-- The cursor stands in the text, and so what is asked for at the cursor is answered: where the word at
the cursor begins and ends, and a completion of it in any session. -/
structure Answers (b : MemoryBuffer) : Prop where
  inside : 0 ≤ b.cursor ∧ b.cursor ≤ b.text.length
  extents : ∃ start stop, wordStart b.extra b.text b.cursor = .ok start ∧
    wordEnd b.extra b.text b.cursor = .ok stop ∧ 0 ≤ start ∧ stop ≤ b.text.length
  completion : ∀ (s : Session) settings document direction,
    ∃ o, s.cycle settings document b direction = .ok o

theorem answers_of_inside (h : b.place.Inside) : b.Answers := by
  obtain ⟨hlow, hhigh⟩ : 0 ≤ b.cursor ∧ b.cursor ≤ b.text.length := h
  refine ⟨⟨hlow, hhigh⟩, ?_, fun s settings document direction => ?_⟩
  · obtain ⟨pos, hpos⟩ := Int.eq_ofNat_of_zero_le hlow
    have hle : pos ≤ b.text.length := by omega
    rw [hpos]
    exact ⟨_, _, wordStart_natCast b.extra b.text hle, wordEnd_natCast b.extra b.text hle,
      Int.natCast_nonneg _, Int.ofNat_le.mpr (wordEndAt_le b.extra b.text hle)⟩
  · obtain ⟨o, ho, -⟩ := s.exists_cycle settings document b direction hlow hhigh
    exact ⟨o, ho⟩

/-- From inside the text the cursor never leaves it, whatever is typed, replaced inside the text, grouped
and undone, as long as nothing is undone while a group is open: after each of the steps it is answered
for the cursor. Without an undo this holds of a buffer with any groups on its stack. -/
theorem cursor_stays_inside (b : MemoryBuffer) (steps : List Step) (hlow : 0 ≤ b.cursor)
    (hhigh : b.cursor ≤ b.text.length) (hallowed : b.AllowsAll steps)
    (hgroups : b.undoStack = {} ∨ .undo ∉ steps) (n : Nat) : (b.applyAll (steps.take n)).Answers := by
  apply answers_of_inside
  rcases hgroups with hfresh | hundo
  · exact ((Tracks.new b hfresh ⟨hlow, hhigh⟩).run _ (hallowed.take n)).inside
  · exact inside_applyAll ⟨hlow, hhigh⟩ _ (hallowed.take n) fun hmem =>
      hundo (List.mem_of_mem_take hmem)

/-- Two undos, of a block and of what was typed before it. -/
theorem cursor_stays_inside_block :
    ∃ b steps, b = ofText "ab".toList none [] ∧
      steps = [.insert "c".toList, .beginGroup, .replace 0 3 "x".toList, .setCursor 9, .endGroup, .undo,
        .undo] ∧
      b.AllowsAll steps ∧ (b.applyAll (steps.take 4)).place = ⟨"x".toList, 1⟩ ∧
      (b.applyAll (steps.take 7)).place = ⟨"ab".toList, 2⟩ ∧
      ∀ n, (b.applyAll (steps.take n)).Answers :=
  ⟨_, _, rfl, rfl, by decide, by decide, by decide,
    cursor_stays_inside (ofText "ab".toList none [])
      [.insert "c".toList, .beginGroup, .replace 0 3 "x".toList, .setCursor 9, .endGroup, .undo, .undo]
      (by decide) (by decide) (by decide) (Or.inl rfl)⟩

/-- What was typed is undone inside of a group that has emptied the text: the cursor goes back to where it
was before the typing, where there is no text any more. -/
theorem cursor_leaves_text :
    ∃ b, b = (ofText "ab".toList none []).applyAll
        [.insert "c".toList, .beginGroup, .replace 0 3 [], .undo] ∧
      b.text = [] ∧ b.cursor = 2 ∧ wordStart b.extra b.text b.cursor = .error .outsideText :=
  ⟨_, rfl, by decide, by decide, by decide⟩

end WordCycle.MemoryBuffer
