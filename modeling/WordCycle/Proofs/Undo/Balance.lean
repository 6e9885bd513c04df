import WordCycle.Proofs.Undo.Inverse

/-! The shape that the undo stack of a buffer keeps whatever is done to the buffer, and how undo goes back
through groups of which it is known where they lead. Nothing is asked of the groups below them. -/

namespace WordCycle
set_option autoImplicit false

/-! ## The shape of the stack -/

/-- At most a hundred groups are kept, and outside groups none is open. -/
structure UndoStack.Balanced (s : UndoStack) : Prop where
  limit : s.limit = some 100
  size : s.size ≤ 100
  closed : s.depth = 0 → s.current = none

namespace UndoStack
variable {s : UndoStack}

theorem balanced_empty : Balanced {} := ⟨rfl, Nat.zero_le 100, fun _ => rfl⟩

theorem groups_push (h : s.limit = some 100) (g : EditGroup) :
    (s.push g).groups = (g :: s.groups).take 100 := by
  rw [push, h]

theorem Balanced.push (h : s.Balanced) (g : EditGroup) : (s.push g).Balanced where
  limit := h.limit
  size := by
    rw [UndoStack.size, groups_push h.limit, List.length_take]
    exact Nat.min_le_left _ _
  closed := h.closed

theorem Balanced.beginGroup (h : s.Balanced) (cursor : Int) : (s.beginGroup cursor).Balanced where
  limit := h.limit
  size := h.size
  closed hdepth := absurd hdepth (Nat.succ_ne_zero s.depth)

theorem Balanced.closeGroup (h : s.Balanced) : s.closeGroup.Balanced := by
  have hclosed : Balanced { s with depth := 0, current := none } := ⟨h.limit, h.size, fun _ => rfl⟩
  unfold UndoStack.closeGroup
  split
  · split
    · next g _ =>
      split
      · exact hclosed
      · exact hclosed.push g
    · exact hclosed
  · next houter =>
    refine ⟨h.limit, h.size, fun hdepth => h.closed ?_⟩
    have : s.depth - 1 = 0 := hdepth
    omega

theorem Balanced.record (h : s.Balanced) (e : Edit) (cursor : Int) : (s.record e cursor).Balanced := by
  unfold UndoStack.record
  split
  · next g hcurrent =>
    refine ⟨h.limit, h.size, fun hdepth => ?_⟩
    rw [h.closed hdepth] at hcurrent
    cases hcurrent
  · exact h.push _

theorem Balanced.pop (h : s.Balanced) : s.pop.2.Balanced := by
  have hsize := h.size
  unfold UndoStack.pop
  rw [UndoStack.size] at hsize
  split
  · exact h
  · next g rest hgroups =>
    rw [hgroups, List.length_cons] at hsize
    exact ⟨h.limit, Nat.le_of_succ_le hsize, h.closed⟩

end UndoStack

/-! ## Buffers -/

namespace MemoryBuffer
variable {b : MemoryBuffer}

theorem balanced_undo (h : b.undoStack.Balanced) : b.undo.2.undoStack.Balanced := by
  have hpop := h.pop
  unfold undo
  generalize b.undoStack.pop = r at hpop ⊢
  obtain ⟨g, s⟩ := r
  cases g with
  | none => exact h
  | some g => exact hpop

theorem balanced_apply (h : b.undoStack.Balanced) (s : Step) : (b.apply s).undoStack.Balanced := by
  cases s with
  | insert new => exact h.record _ _
  | replace start stop new => exact h.record _ _
  | setCursor pos => exact h
  | beginGroup => exact h.beginGroup _
  | endGroup =>
    rw [apply, endGroup, UndoStack.endGroup]
    split
    · exact h
    · exact h.closeGroup
  | undo => exact balanced_undo h
  | showPopup visible => exact h

theorem balanced_applyAll (h : b.undoStack.Balanced) (steps : List Step) :
    (b.applyAll steps).undoStack.Balanced := by
  induction steps generalizing b with
  | nil => exact h
  | cons s steps ih => exact ih (balanced_apply h s)

theorem balanced_run (h : b.undoStack.Balanced) (c : BufferCommand) :
    (run c b).2.undoStack.Balanced := by
  rw [run_eq_applyAll]
  exact balanced_applyAll h (steps c b)

theorem balanced_complete (h : b.undoStack.Balanced) (start stop caret : Int) (new : Text) :
    (Buffer.complete b start stop new caret).undoStack.Balanced :=
  ((h.beginGroup b.cursor).record _ _).closeGroup

/-- Outside groups, completing a word is one edit in a group of its own, and nothing else. -/
theorem complete_eq (hcurrent : b.undoStack.depth = 0) (hclosed : b.undoStack.current = none)
    (start stop caret : Int) (new : Text) :
    Buffer.complete b start stop new caret =
      { b with
        text := b.text.splice start stop new
        cursor := max 0 (min caret (b.text.splice start stop new).length)
        undoStack := b.undoStack.push ⟨[⟨start, b.text.slice start stop, new⟩], b.cursor⟩ } := by
  obtain ⟨text, cursor, extra, ⟨limit, groups, depth, current⟩, popupVisible⟩ := b
  obtain rfl : depth = 0 := hcurrent
  obtain rfl : current = none := hclosed
  rfl

/-! ## Undo -/

theorem undo_leads {g : EditGroup} {groups older : List EditGroup} {p : Place} {places : List Place}
    (hgroups : b.undoStack.groups = g :: groups ++ older)
    (hleads : Leads b.text (g :: groups) (p :: places)) :
    b.undo.1 = true ∧ b.undo.2.place = p ∧ b.undo.2.undoStack.groups = groups ++ older ∧
      Leads b.undo.2.text groups places := by
  obtain ⟨hlead, hrest⟩ := hleads
  have hundo : b.undo = (true, { b with
      text := g.revert b.text
      cursor := g.cursorBefore
      undoStack := { b.undoStack with groups := groups ++ older } }) := by
    rw [undo, UndoStack.pop, hgroups]
    rfl
  rw [hundo]
  refine ⟨rfl, ?_, rfl, ?_⟩
  · cases p with
    | mk text cursor => rw [place, hlead.text, hlead.cursor]
  · rw [hlead.text]
    exact hrest

/-- If the newest groups lead from one place to the next, undos go back through these places. -/
theorem undone_leads {newest older : List EditGroup} {places : List Place}
    (hgroups : b.undoStack.groups = newest ++ older) (hleads : Leads b.text newest places) (k : Nat)
    (hk : k ≤ newest.length) :
    (b.undone k).undoStack.groups = newest.drop k ++ older ∧
      Leads (b.undone k).text (newest.drop k) (places.drop k) ∧
      ∀ i < k, (b.undone i).undo.1 = true ∧ places[i]? = some (b.undone (i + 1)).place := by
  induction k with
  | zero => exact ⟨hgroups, hleads, fun i hi => absurd hi (Nat.not_lt_zero i)⟩
  | succ k ih =>
    obtain ⟨hgroups, hleads, hback⟩ := ih (by omega)
    rw [List.drop_eq_getElem_cons hk] at hgroups hleads
    cases hplaces : places.drop k with
    | nil =>
      rw [hplaces] at hleads
      exact hleads.elim
    | cons p rest =>
      rw [hplaces] at hleads
      obtain ⟨htrue, hplace, hgroups', hleads'⟩ := undo_leads hgroups hleads
      have hdrop : places.drop (k + 1) = rest := by
        rw [← List.drop_drop, hplaces, List.drop_one, List.tail_cons]
      have hget : places[k]? = some p := by
        rw [← List.head?_drop, hplaces, List.head?_cons]
      refine ⟨hgroups', hdrop ▸ hleads', ?_⟩
      intro i hi
      rcases Nat.lt_succ_iff_lt_or_eq.mp hi with hi | rfl
      · exact hback i hi
      · exact ⟨htrue, hget.trans (congrArg some hplace.symm)⟩

end MemoryBuffer
end WordCycle
