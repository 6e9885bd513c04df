import WordCycle.Editor.Command

/-! What a request to the editor means for the completion session: it opens a file, asks for a completion,
or does neither. Actions count as what they are for, however they are triggered. -/

namespace WordCycle.Editor
set_option autoImplicit false

/-- The session of the plugin, which is empty if there is none. -/
def session (e : Editor) : Session := (e.plugin.map Plugin.session).getD {}

def document (e : Editor) : Text := e.buffer.widget.text

inductive Effect
  | opens (path : Path)
  | cycles (direction : Direction)
  | other
  deriving DecidableEq

def operationEffect (e : Editor) : Operation → Effect
  | .openDialog => if e.dialogAnswer.isEmpty then .other else .opens (.ofText e.dialogAnswer)
  | .cycle direction => .cycles direction
  | .save | .close | .configure => .other

/-- The effect of the first action with a property. -/
def triggerEffect (e : Editor) (p : Action → Bool) : Effect :=
  match (e.menus.flatMap Menu.actions).filter p with
  | [] => .other
  | a :: _ => e.operationEffect a.operation

def effect (e : Editor) : Command → Effect
  | .openFile path => .opens path
  | .cycle direction => .cycles direction
  | .menu text => e.triggerEffect (·.text = text)
  | .key shortcut => e.triggerEffect (·.shortcut = some shortcut)
  | _ => .other

theorem perform_of_opens {e : Editor} {o : Operation} {path : Path}
    (h : e.operationEffect o = .opens path) : (e.perform o).2 = (e.openFile path).2 := by
  cases o with
  | openDialog =>
    rw [operationEffect] at h
    split at h
    · cases h
    · next hanswer =>
      rw [Effect.opens.injEq] at h
      rw [perform, openChosen, if_neg hanswer, h]
  | cycle direction => cases h
  | save | close | configure => cases h

theorem perform_of_cycles {e : Editor} {o : Operation} {direction : Direction}
    (h : e.operationEffect o = .cycles direction) : (e.perform o).2 = (e.cycle direction).2 := by
  cases o with
  | openDialog =>
    rw [operationEffect] at h
    split at h <;> cases h
  | cycle d =>
    rw [operationEffect, Effect.cycles.injEq] at h
    rw [perform, h]
  | save | close | configure => cases h

theorem trigger_of_opens {e : Editor} {p : Action → Bool} {path : Path}
    (h : e.triggerEffect p = .opens path) : (e.trigger p).2 = (e.openFile path).2 := by
  unfold triggerEffect at h
  unfold trigger
  generalize (e.menus.flatMap Menu.actions).filter p = found at h ⊢
  cases found with
  | nil => cases h
  | cons a others => exact perform_of_opens h

theorem trigger_of_cycles {e : Editor} {p : Action → Bool} {direction : Direction}
    (h : e.triggerEffect p = .cycles direction) : (e.trigger p).2 = (e.cycle direction).2 := by
  unfold triggerEffect at h
  unfold trigger
  generalize (e.menus.flatMap Menu.actions).filter p = found at h ⊢
  cases found with
  | nil => cases h
  | cons a others => exact perform_of_cycles h

theorem run_of_opens {e : Editor} {c : Command} {path : Path} (h : e.effect c = .opens path) :
    (e.run c).2 = (e.openFile path).2 := by
  cases c with
  | openFile path' =>
    rw [effect, Effect.opens.injEq] at h
    rw [run, h]
  | menu text => exact trigger_of_opens h
  | key shortcut => exact trigger_of_opens h
  | _ => cases h

theorem run_of_cycles {e : Editor} {c : Command} {direction : Direction}
    (h : e.effect c = .cycles direction) : (e.run c).2 = (e.cycle direction).2 := by
  cases c with
  | cycle d =>
    rw [effect, Effect.cycles.injEq] at h
    rw [run, h]
  | menu text => exact trigger_of_cycles h
  | key shortcut => exact trigger_of_cycles h
  | _ => cases h

end WordCycle.Editor
