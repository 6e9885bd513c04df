import WordCycle.Proofs.Editor.Frame

/-! The path of the window over a whole run. It is the file that was opened or saved last with success. Only
a window that has had no such file yet can have another path: the first one that a save asked for, even if
nothing could be written there, so the next save asks no more. -/

namespace WordCycle.Editor
set_option autoImplicit false

/-! ## The path after one event -/

/-- What the file dialog names; none if it is cancelled. -/
def namedPath (e : Editor) : Option Path :=
  if e.dialogAnswer.isEmpty then none else some (.ofText e.dialogAnswer)

/-- Where the document is saved: to its own file, or else to the one that the file dialog names. -/
def savePath (e : Editor) : Option Path := e.path.or e.namedPath

/-- The file that an event opens or saves with success. -/
def worksOn (e : Editor) (event : Event) : Option Path :=
  match e.eventEffect event with
  | .opens path => if (e.openFile path).1 = .ok true then some path else none
  | _ => if e.saves event && e.saveFile.1 = .ok true then e.savePath else none

/-- The file that an event asks for in order to save the document, and does not save it to. -/
def namedInVain (e : Editor) (event : Event) : Option Path :=
  if e.path.isNone && e.saves event && e.saveFile.1 ≠ .ok true then e.namedPath else none

theorem saveFile_eq (e : Editor) :
    e.saveFile =
      e.savePath.elim (.ok false, e) fun path => { e with path := some path }.writeFile path := by
  unfold saveFile savePath namedPath
  cases hpath : e.path with
  | none => by_cases hanswer : e.dialogAnswer.isEmpty <;> simp [hanswer]
  | some path =>
    have hsame : { e with path := some path } = e := by rw [← hpath]
    simp [hsame]

theorem path_saveFile (e : Editor) : e.saveFile.2.path = e.savePath := by
  rw [saveFile_eq]
  cases hpath : e.savePath with
  | none => exact (Option.or_eq_none_iff.mp hpath).1
  | some path => exact (changes_writeFile _ path).path (by decide)

theorem path_showFile (e : Editor) (path : Path) (t : Text) : (e.showFile path t).path = some path := by
  unfold showFile
  dsimp only
  split <;> rfl

theorem path_openFile (e : Editor) (path : Path) :
    (e.openFile path).2.path = if (e.openFile path).1 = .ok true then some path else e.path := by
  split
  · next hopened =>
    obtain ⟨t, ht⟩ := openFile_opened hopened
    rw [ht, path_showFile]
  · next hrefused =>
    obtain ⟨boxes, hboxes⟩ := openFile_refused hrefused
    rw [hboxes]

theorem path_next_of_other {e : Editor} {event : Event} (h : e.eventEffect event = .other)
    (hsave : e.saves event = false) : (e.next event).path = e.path := by
  refine (next_changes e event).path ?_
  cases event with
  | files t => simp [eventParts]
  | request c =>
    by_cases hedit : c.edits = true
    · cases c with
      | press button => cases button <;> simp [eventParts, parts, buttonParts]
      | type t | showText t | applyDialog => simp [eventParts, parts]
      | _ => cases hedit
    · intro hmem
      simpa using parts_subset h hsave (Bool.eq_false_iff.mpr hedit) hmem

/-- Only what counts as neither opening nor completing saves. -/
theorem saves_eq_false {e : Editor} {event : Event} (h : e.eventEffect event ≠ .other) :
    e.saves event = false := by
  cases hsaves : e.saves event with
  | false => rfl
  | true => exact absurd (next_of_saves hsaves).2 h

theorem path_next (e : Editor) (event : Event) :
    (e.next event).path = ((e.worksOn event).or e.path).or (e.namedInVain event) := by
  unfold worksOn namedInVain
  cases heffect : e.eventEffect event with
  | opens path =>
    have hsaves : e.saves event = false := saves_eq_false (by simp [heffect])
    rw [next_of_opens heffect, path_openFile]
    by_cases hopened : (e.openFile path).1 = .ok true <;> simp [hsaves, hopened]
  | cycles direction =>
    have hsaves : e.saves event = false := saves_eq_false (by simp [heffect])
    rw [next_of_cycles heffect, (changes_cycle e direction).path (by decide)]
    simp [hsaves]
  | other =>
    cases hsaves : e.saves event with
    | false =>
      rw [path_next_of_other heffect hsaves]
      simp
    | true =>
      rw [(next_of_saves hsaves).1, path_saveFile, savePath]
      cases e.path with
      | none => by_cases hsaved : e.saveFile.1 = .ok true <;> simp [hsaved]
      | some path => by_cases hsaved : e.saveFile.1 = .ok true <;> simp [hsaved]

/-! ## The path after a run -/

/-- The last file that a run opens or saves with success. -/
def lastWorked (e : Editor) : List Event → Option Path
  | [] => none
  | event :: rest => ((e.next event).lastWorked rest).or (e.worksOn event)

/-- The first file that a run asks for and does not save the document to. -/
def firstInVain (e : Editor) : List Event → Option Path
  | [] => none
  | event :: rest => (e.namedInVain event).or ((e.next event).firstInVain rest)

theorem path_after (e : Editor) (events : List Event) :
    (e.after events).path = ((e.lastWorked events).or e.path).or (e.firstInVain events) := by
  induction events generalizing e with
  | nil => simp [after, lastWorked, firstInVain]
  | cons event events ih =>
    calc (e.after (event :: events)).path
        = (((e.next event).lastWorked events).or (e.next event).path).or
            ((e.next event).firstInVain events) := ih (e.next event)
      _ = ((e.lastWorked (event :: events)).or e.path).or (e.firstInVain (event :: events)) := by
        rw [path_next, lastWorked, firstInVain]
        simp only [Option.or_assoc]

/-- The path is that of the last file that was opened or saved with success, exactly unless there is none
and a save asked for a name in vain; then it is the first name that was given so. What fails changes the
path only in such a save. -/
theorem path_worked_or_named (e₀ : Editor) (events : List Event) :
    (e₀.after events).path = ((e₀.lastWorked events).or e₀.path).or (e₀.firstInVain events) ∧
    ((e₀.after events).path = (e₀.lastWorked events).or e₀.path ↔
      ((e₀.lastWorked events).or e₀.path).isSome = true ∨ e₀.firstInVain events = none) ∧
    ∀ event, (e₀.after events).worksOn event = none →
      ((e₀.after events).next event).path =
        (e₀.after events).path.or ((e₀.after events).namedInVain event) := by
  have hpath := path_after e₀ events
  refine ⟨hpath, ?_, ?_⟩
  · rw [hpath]
    cases (e₀.lastWorked events).or e₀.path with
    | none => simp
    | some path => simp
  · intro event hfails
    rw [path_next, hfails, Option.none_or]

/-- A directory cannot be written, yet it stays the path: the next save is refused too, though the file
dialog would name a file that can be written. -/
theorem path_of_refused_save :
    ∃ e₀ e e', e₀ = plain (({} : FileTree).put (freshHome ++ ["d".toList]) .directory) ∧
      e₀.after [.request (.answerFileDialog "d".toList)] = e ∧ e.path = none ∧
      e.saveFile.1 = .ok false ∧ e.saveFile.2.path = some ⟨[], ["d".toList]⟩ ∧
      e₀.lastWorked [.request (.answerFileDialog "d".toList), .request .saveFile] = none ∧
      e.after [.request .saveFile, .request (.answerFileDialog "a.txt".toList)] = e' ∧
      e'.saveFile.1 = .ok false ∧
      (e.after [.request (.answerFileDialog "a.txt".toList)]).saveFile.1 = .ok true := by
  exact ⟨_, _, _, rfl, rfl, rfl, by decide +kernel, by decide +kernel, by decide +kernel, rfl,
    by decide +kernel, by decide +kernel⟩

end WordCycle.Editor
