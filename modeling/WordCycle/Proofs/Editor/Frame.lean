import WordCycle.Proofs.Editor.Switch

/-! Which requests leave the document, its path and the files alone. Besides opening a file and asking for
a completion these are to be told apart from the rest: saving, which the path depends on, and editing,
which is all else that changes the document or the files. -/

namespace WordCycle.Editor
set_option autoImplicit false

/-! ## Saving and editing -/

/-- Whether the first action with a property saves the document. -/
def triggersSave (e : Editor) (p : Action → Bool) : Bool :=
  match (e.menus.flatMap Menu.actions).filter p with
  | [] => false
  | a :: _ => a.operation = .save

/-- Whether a request saves the document, by itself or through an action. -/
def requestSaves (e : Editor) : Command → Bool
  | .saveFile => true
  | .menu text => e.triggersSave (·.text = text)
  | .key shortcut => e.triggersSave (·.shortcut = some shortcut)
  | _ => false

def saves (e : Editor) : Event → Bool
  | .request c => e.requestSaves c
  | .files _ => false

/-- Whether a request changes the document, or may write the settings file. -/
def Command.edits : Command → Bool
  | .type _ | .showText _ | .applyDialog => true
  | .press button => button ≠ .cancel
  | _ => false

def Event.edits : Event → Bool
  | .request c => c.edits
  | .files _ => true

theorem trigger_of_save {e : Editor} {p : Action → Bool} (h : e.triggersSave p = true) :
    (e.trigger p).2 = e.saveFile.2 ∧ e.triggerEffect p = .other := by
  unfold triggersSave at h
  unfold trigger triggerEffect
  generalize (e.menus.flatMap Menu.actions).filter p = found at h ⊢
  cases found with
  | nil => cases h
  | cons a others =>
    have hsave : a.operation = .save := of_decide_eq_true h
    simp [hsave, perform, operationEffect]

theorem next_of_saves {e : Editor} {event : Event} (h : e.saves event = true) :
    e.next event = e.saveFile.2 ∧ e.eventEffect event = .other := by
  cases event with
  | files t => cases h
  | request c =>
    cases c with
    | saveFile => exact ⟨rfl, rfl⟩
    | menu text => exact trigger_of_save h
    | key shortcut => exact trigger_of_save h
    | _ => cases h

/-! ## What stays -/

theorem triggerParts_subset {e : Editor} {p : Action → Bool} (h : e.triggerEffect p = .other)
    (hsave : e.triggersSave p = false) : e.triggerParts p ⊆ [.settings, .dialog] := by
  unfold triggerEffect at h
  unfold triggersSave at hsave
  unfold triggerParts
  generalize (e.menus.flatMap Menu.actions).filter p = found at h hsave ⊢
  cases found with
  | nil => exact List.nil_subset _
  | cons a others =>
    cases hoperation : a.operation with
    | openDialog =>
      simp only [hoperation, operationEffect] at h
      split at h
      · next hanswer => simp [hoperation, operationParts, hanswer]
      · cases h
    | save => simp [hoperation] at hsave
    | cycle direction => simp [hoperation, operationEffect] at h
    | close | configure => simp [hoperation, operationParts]

/-- A request of none of these sorts changes no more than the settings and the dialog. -/
theorem parts_subset {e : Editor} {c : Command} (h : e.effect c = .other)
    (hsave : e.requestSaves c = false) (hedit : c.edits = false) :
    e.parts c ⊆ [.settings, .dialog] := by
  cases c with
  | openFile path => cases h
  | cycle direction => cases h
  | saveFile => cases hsave
  | type t => cases hedit
  | showText t => cases hedit
  | applyDialog => cases hedit
  | menu text => exact triggerParts_subset h hsave
  | key shortcut => exact triggerParts_subset h hsave
  | press button =>
    obtain rfl : button = .cancel := by simpa [Command.edits] using hedit
    simp [parts, buttonParts]
  | _ => simp [parts]

/-! ## Runs that touch nothing -/

/-- Whether an event opens a file, asks for a completion, saves or edits. A file that is refused counts as
not opened. -/
def touches (e : Editor) (event : Event) : Bool :=
  e.opens event || e.asks event || e.saves event || event.edits

/-- Whether one of several events touches the document or the files when it is its turn. -/
def anyTouches (e : Editor) : List Event → Bool
  | [] => false
  | event :: rest => e.touches event || (e.next event).anyTouches rest

theorem stays_next {e : Editor} {event : Event} (h : e.touches event = false) :
    ChangesOnly [.settings, .dialog] e (e.next event) := by
  simp only [touches, Bool.or_eq_false_iff] at h
  obtain ⟨⟨⟨hopens, hasks⟩, hsaves⟩, hedits⟩ := h
  cases heffect : e.eventEffect event with
  | opens path =>
    rw [opens, heffect] at hopens
    obtain ⟨boxes, hboxes⟩ := openFile_refused (of_decide_eq_false hopens)
    rw [next_of_opens heffect, hboxes]
    exact changes_nothing rfl rfl rfl rfl rfl rfl
  | cycles direction =>
    rw [asks, heffect] at hasks
    cases hasks
  | other =>
    cases event with
    | request c => exact (run_changes e c).mono (parts_subset heffect hsaves hedits)
    | files t => cases hedits

theorem stays_after {e : Editor} {events : List Event} (h : e.anyTouches events = false) :
    ChangesOnly [.settings, .dialog] e (e.after events) := by
  induction events generalizing e with
  | nil => exact changes_same _ e
  | cons event events ih =>
    rw [anyTouches, Bool.or_eq_false_iff] at h
    exact (stays_next h.1).trans (ih h.2)

end WordCycle.Editor
