import WordCycle.Proofs.Session.Outcome
import WordCycle.Proofs.Session.Restart
import WordCycle.Proofs.Undo.Balance

/-! Completing a word is one step of undo, whatever was done before. Undos after a run of completions go
back through the places before each of them, also where sessions ended and settings changed on the
way. -/

namespace WordCycle
set_option autoImplicit false

/-! ## One completion -/

namespace Session

/-- Outside groups a completion adds one group of edits, which leads back to where it was asked for. -/
theorem exists_group_of_completion {s : Session} {settings : Settings} {document : Nat}
    {b : MemoryBuffer} {direction : Direction} {o : Outcome MemoryBuffer} {t : Text}
    (h : s.cycle settings document b direction = .ok o) (hcompletion : o.completion = some t)
    (hbalanced : b.undoStack.Balanced) (hdepth : b.undoStack.depth = 0) :
    ∃ g : EditGroup, o.buffer.undoStack = b.undoStack.push g ∧ g.LeadsTo o.buffer.text b.place := by
  cases ends_of_cycle h with
  | idle _ ho =>
    rw [ho] at hcompletion
    cases hcompletion
  | reported _ _ _ _ _ _ _ ho =>
    rw [ho] at hcompletion
    cases hcompletion
  | completed pos start s' new hcursor hle htyped hresume hsize hrotate hstart ho =>
    have hcursor : b.cursor = pos := hcursor
    have hle : pos ≤ b.text.length := hle
    have hstart : start = wordStartAt b.extra b.text pos := hstart
    have hlow : start ≤ pos := hstart ▸ wordStartAt_le b.extra b.text pos
    have hhigh : pos ≤ replacedEnd settings b pos ∧ replacedEnd settings b pos ≤ b.text.length := by
      unfold replacedEnd
      split
      · exact ⟨le_wordEndAt _ _ pos, wordEndAt_le _ _ hle⟩
      · exact ⟨Nat.le_refl pos, hle⟩
    have hbuffer : o.buffer = Buffer.complete (Buffer.dismissPopup b) start
        (replacedEnd settings b pos : Nat) new (start + new.length) := by
      rw [ho]
      rfl
    rw [hbuffer, MemoryBuffer.complete_eq (b := Buffer.dismissPopup b) hdepth (hbalanced.closed hdepth)]
    refine ⟨_, rfl, ?_, rfl, ?_⟩
    · exact Edit.revert_splice b.text new start (replacedEnd settings b pos) (by omega) (by omega)
        (by omega)
    · have hinside : 0 ≤ b.cursor ∧ b.cursor ≤ b.text.length := by omega
      exact hinside

end Session

namespace MemoryBuffer

/-- What a run of completions leaves of a buffer: each has added one group, and these lead back through
the places before each of them, the newest first, to where the run began. -/
structure CompletedFrom (b : MemoryBuffer) (places : List Place) (b' : MemoryBuffer) : Prop where
  balanced : b'.undoStack.Balanced
  depth : b'.undoStack.depth = 0
  added : ∃ new : List EditGroup, new.length = places.length ∧
    b'.undoStack.groups = (new ++ b.undoStack.groups).take 100 ∧ Leads b'.text new places
  origin : places.getLast?.getD b'.place = b.place

theorem completedFrom_refl {b : MemoryBuffer} (hbalanced : b.undoStack.Balanced)
    (hdepth : b.undoStack.depth = 0) : b.CompletedFrom [] b where
  balanced := hbalanced
  depth := hdepth
  added := ⟨[], rfl, (List.take_of_length_le hbalanced.size).symm, trivial⟩
  origin := rfl

theorem CompletedFrom.cons {b b' b'' : MemoryBuffer} {places : List Place} {g : EditGroup}
    (h : b.CompletedFrom places b') (hstack : b''.undoStack = b'.undoStack.push g)
    (hleads : g.LeadsTo b''.text b'.place) : b.CompletedFrom (b'.place :: places) b'' := by
  obtain ⟨new, hlength, hgroups, hnew⟩ := h.added
  refine ⟨?_, ?_, ⟨g :: new, by simp [hlength], ?_, hleads, hnew⟩, ?_⟩
  · rw [hstack]
    exact h.balanced.push g
  · rw [hstack]
    exact h.depth
  · -- of the groups that were cut off before, none comes back
    rw [hstack, UndoStack.groups_push h.balanced.limit, hgroups, List.take_succ_cons,
      List.take_take, List.cons_append, List.take_succ_cons]
    rfl
  · rw [List.getLast?_cons, Option.getD_some]
    exact h.origin

/-- As many of the added groups as are kept can be undone one after the other. -/
theorem CompletedFrom.undone {b b' : MemoryBuffer} {places : List Place}
    (h : b.CompletedFrom places b') :
    (∀ i < min 100 places.length,
      (b'.undone i).undo.1 = true ∧ places[i]? = some (b'.undone (i + 1)).place) ∧
    (places.length ≤ 100 → (b'.undone places.length).place = b.place) := by
  obtain ⟨new, hlength, hgroups, hleads⟩ := h.added
  rw [List.take_append] at hgroups
  have hback : ∀ i < min 100 places.length,
      (b'.undone i).undo.1 = true ∧ places[i]? = some (b'.undone (i + 1)).place := by
    intro i hi
    have hkept : (new.take 100).length = min 100 places.length := by
      rw [List.length_take, hlength]
    obtain ⟨-, -, hall⟩ := undone_leads hgroups (hleads.take 100) _ (Nat.le_refl _)
    exact hall i (hkept ▸ hi)
  refine ⟨hback, ?_⟩
  intro hle
  -- the place before the first completion is that of the run, and the last to be brought back
  have horigin := h.origin
  rcases List.eq_nil_or_concat places with rfl | ⟨later, first, rfl⟩
  · exact horigin
  · rw [List.concat_eq_append] at hle hback horigin ⊢
    rw [List.getLast?_concat, Option.getD_some] at horigin
    rw [List.length_append, List.length_singleton] at hle hback ⊢
    obtain ⟨-, hplace⟩ := hback later.length (by omega)
    rw [List.getElem?_append_right (Nat.le_refl _), Nat.sub_self] at hplace
    rw [← Option.some.inj hplace]
    exact horigin

end MemoryBuffer

namespace Workspace

/-! ## Any requests before -/

def Balanced (w : Workspace) : Prop := ∀ b ∈ w.buffers, b.undoStack.Balanced

theorem Balanced.getD {w : Workspace} (h : w.Balanced) (number : Nat) {b : MemoryBuffer}
    (hb : b.undoStack.Balanced) : (w.buffers.getD number b).undoStack.Balanced := by
  rw [List.getD_eq_getElem?_getD]
  cases hget : w.buffers[number]? with
  | none => exact hb
  | some c => exact h c (List.mem_of_getElem? hget)

theorem Balanced.buffer {w : Workspace} (h : w.Balanced) : w.buffer.undoStack.Balanced :=
  h.getD w.current UndoStack.balanced_empty

theorem Balanced.putBuffer {w : Workspace} (h : w.Balanced) (number : Nat) {b : MemoryBuffer}
    (hb : b.undoStack.Balanced) : (w.putBuffer number b).Balanced := by
  intro c hc
  rcases List.mem_or_eq_of_mem_set hc with hc | rfl
  · exact h c hc
  · exact hb

theorem Balanced.cycle {w w' : Workspace} {direction : Direction} {completion : Option Text}
    {report : Option Report} (h : w.Balanced)
    (hcycle : w.cycle direction = .ok (completion, report, w')) : w'.Balanced := by
  obtain ⟨o, ho, -, -, rfl⟩ := exists_of_cycle hcycle
  refine Balanced.putBuffer h w.current ?_
  rcases Session.buffer_of_cycle ho with hb | ⟨start, stop, caret, new, hb⟩
  · rw [hb]
    exact h.buffer
  · rw [hb]
    exact MemoryBuffer.balanced_complete (b := Buffer.dismissPopup w.buffer) h.buffer start stop caret new

mutual

theorem balanced_run (c : Command) (w : Workspace) (h : w.Balanced) : (run c w).2.Balanced := by
  cases c with
  | cycle direction =>
    rw [run]
    split
    · next hw => exact h.cycle hw
    · exact h
  | reset => exact h
  | use number => exact h
  | configure c =>
    rw [run]
    split
    · exact h
    · exact h
  | edit c => exact h.putBuffer w.current (MemoryBuffer.balanced_run h.buffer c)
  | group inner =>
    have hbegun : (w.putBuffer w.current w.buffer.beginGroup).Balanced :=
      h.putBuffer w.current (h.buffer.beginGroup _)
    have hinner := balanced_runAll inner (w.putBuffer w.current w.buffer.beginGroup) hbegun
    rw [run]
    generalize runAll inner (w.putBuffer w.current w.buffer.beginGroup) = r at hinner ⊢
    obtain ⟨⟨answers, reports⟩, w'⟩ := r
    simp only
    split
    · next b hb =>
      refine Balanced.putBuffer hinner w.current ?_
      have hend := MemoryBuffer.balanced_apply (hinner.getD w.current hinner.buffer) .endGroup
      rw [MemoryBuffer.apply, hb] at hend
      exact hend
    · exact hinner

theorem balanced_runAll (commands : List Command) (w : Workspace) (h : w.Balanced) :
    (runAll commands w).2.Balanced := by
  cases commands with
  | nil => exact h
  | cons c rest =>
    have hc := balanced_run c w h
    rw [runAll]
    split
    · next heq =>
      rw [heq] at hc
      exact hc
    · next heq =>
      rw [heq] at hc
      exact balanced_runAll rest _ hc

end

theorem balanced_after (commands : List Command) (w : Workspace) (h : w.Balanced) :
    (after commands w).Balanced := by
  induction commands generalizing w with
  | nil => exact h
  | cons c commands ih => exact ih _ (balanced_run c w h)

/-! ## Runs of completions -/

/-- Requests each of which completes a word in the current buffer; in between, settings change and the
session is forgotten at will. The places are those of the buffer before each completion, the newest
first. -/
inductive Completes (w : Workspace) : List Place → Workspace → Prop
  | start : Completes w [] w
  | cycle {places : List Place} {w₁ w₂ : Workspace} {direction : Direction} {t : Text}
      {report : Option Report} (h : Completes w places w₁)
      (hcycle : w₁.cycle direction = .ok (some t, report, w₂)) :
      Completes w (w₁.buffer.place :: places) w₂
  | configure {places : List Place} {w₁ : Workspace} (c : Settings.Change) (h : Completes w places w₁) :
      Completes w places (run (.configure c) w₁).2
  | reset {places : List Place} {w₁ : Workspace} (h : Completes w places w₁) :
      Completes w places (run .reset w₁).2

theorem buffer_of_completion {w : Workspace} {direction : Direction}
    {o : Session.Outcome MemoryBuffer} {t : Text}
    (ho : w.session.cycle w.settings w.current w.buffer direction = .ok o)
    (hcompletion : o.completion = some t) :
    ({ w.putBuffer w.current o.buffer with session := o.session } : Workspace).buffer = o.buffer := by
  obtain ⟨_, _, _, _, _, _, -, hcut, hne, -⟩ := Session.exists_inserts_of_completion ho hcompletion
  exact w.buffer_putBuffer o.buffer (w.current_lt_of_inserts hcut hne)

theorem buffer_configure (w : Workspace) (c : Settings.Change) :
    (run (.configure c) w).2.buffer = w.buffer := by
  rw [run]
  split <;> rfl

theorem Completes.completedFrom {w w' : Workspace} {places : List Place} (h : Completes w places w')
    (hbalanced : w.buffer.undoStack.Balanced) (hdepth : w.buffer.undoStack.depth = 0) :
    w.buffer.CompletedFrom places w'.buffer := by
  induction h with
  | start => exact MemoryBuffer.completedFrom_refl hbalanced hdepth
  | cycle _ hcycle ih =>
    obtain ⟨o, ho, hcompletion, -, rfl⟩ := exists_of_cycle hcycle
    obtain ⟨g, hstack, hleads⟩ :=
      Session.exists_group_of_completion ho hcompletion.symm ih.balanced ih.depth
    rw [buffer_of_completion ho hcompletion.symm]
    exact ih.cons hstack hleads
  | configure c _ ih =>
    rw [buffer_configure]
    exact ih
  | reset _ ih => exact ih

/-- Whatever was done to new buffers, outside groups completing a word is one step of undo: it adds one
group to those of the current buffer, of which a hundred are kept, and an undo brings back the text
and the cursor from before. After a run of completions undos go back through the places before each
of them; as many undos as there were completions bring back the place from before the run, if these
are no more than a hundred. -/
theorem cycles_undone (buffers : List MemoryBuffer) (hnew : ∀ b ∈ buffers, b.undoStack = {})
    (current : Nat) (settings : Settings) (commands : List Command) (w : Workspace)
    (hw : after commands { buffers, current, settings } = w)
    (hdepth : w.buffer.undoStack.depth = 0) :
    (∀ direction t report w', w.cycle direction = .ok (some t, report, w') →
      (∃ g, w'.buffer.undoStack.groups = (g :: w.buffer.undoStack.groups).take 100) ∧
      w'.buffer.undoStack.size = min (w.buffer.undoStack.size + 1) 100 ∧
      w'.buffer.undo.1 = true ∧ w'.buffer.undo.2.place = w.buffer.place) ∧
    ∀ places w', w.Completes places w' →
      w'.buffer.undoStack.size = min (w.buffer.undoStack.size + places.length) 100 ∧
      (∀ i < min 100 places.length, (w'.buffer.undone i).undo.1 = true ∧
        places[i]? = some (w'.buffer.undone (i + 1)).place) ∧
      (places.length ≤ 100 → (w'.buffer.undone places.length).place = w.buffer.place) := by
  have hbalanced : w.Balanced := by
    rw [← hw]
    refine balanced_after commands _ fun b hb => ?_
    rw [hnew b hb]
    exact UndoStack.balanced_empty
  refine ⟨?_, ?_⟩
  · intro direction t report w' hcycle
    have hrun := (Completes.start.cycle hcycle).completedFrom hbalanced.buffer hdepth
    obtain ⟨groups, hlength, hgroups, -⟩ := hrun.added
    obtain ⟨g, rfl⟩ := List.length_eq_one_iff.mp hlength
    obtain ⟨hback, hplace⟩ := hrun.undone
    refine ⟨⟨g, hgroups⟩, ?_, (hback 0 (by simp)).1, hplace (by simp)⟩
    rw [UndoStack.size, hgroups, List.length_take, UndoStack.size, List.length_append,
      List.length_singleton]
    omega
  · intro places w' hrun
    have hrun := hrun.completedFrom hbalanced.buffer hdepth
    obtain ⟨groups, hlength, hgroups, -⟩ := hrun.added
    refine ⟨?_, hrun.undone⟩
    rw [UndoStack.size, hgroups, List.length_take, UndoStack.size, List.length_append, hlength]
    omega

/-- Two completions with the session forgotten between them are two steps. -/
theorem cycles_undone_foobar :
    ∃ w w', after [.edit (.setCursor 13)] { buffers := [.ofText "foobar foo fo".toList none []] } = w ∧
      w.Completes [⟨"foobar foo foo".toList, 14⟩, ⟨"foobar foo fo".toList, 13⟩] w' ∧
      w'.buffer.text = "foobar foo foobar".toList ∧ w'.buffer.undoStack.size = 2 ∧
      (w'.buffer.undone 1).place = ⟨"foobar foo foo".toList, 14⟩ ∧
      (w'.buffer.undone 2).place = ⟨"foobar foo fo".toList, 13⟩ := by
  let w : Workspace :=
    after [.edit (.setCursor 13)] { buffers := [.ofText "foobar foo fo".toList none []] }
  let w₁ : Workspace := (run (.cycle .forward) w).2
  let w₂ : Workspace := (run .reset w₁).2
  have hfirst : w.cycle .forward = .ok (some "foo".toList, none, w₁) := by decide +kernel
  have hsecond : w₂.cycle .backward =
      .ok (some "foobar".toList, none, (run (.cycle .backward) w₂).2) := by
    decide +kernel
  have hrun : w.Completes [⟨"foobar foo foo".toList, 14⟩, ⟨"foobar foo fo".toList, 13⟩]
      (run (.cycle .backward) w₂).2 := by
    have hplaces : [w₂.buffer.place, w.buffer.place] =
        [⟨"foobar foo foo".toList, 14⟩, ⟨"foobar foo fo".toList, 13⟩] := by
      decide +kernel
    rw [← hplaces]
    exact .cycle (.reset (.cycle .start hfirst)) hsecond
  obtain ⟨-, hundone⟩ := cycles_undone [.ofText "foobar foo fo".toList none []]
    (by simp [MemoryBuffer.ofText]) 0 {} [.edit (.setCursor 13)] w rfl (by decide +kernel)
  obtain ⟨hsize, hback, hplace⟩ := hundone _ _ hrun
  have hone := (hback 0 (by decide)).2
  exact ⟨w, _, rfl, hrun, by decide +kernel, hsize, (Option.some.inj hone).symm, hplace (by decide)⟩

end Workspace
end WordCycle
