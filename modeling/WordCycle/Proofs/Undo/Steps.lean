import WordCycle.Buffer.Memory

/-! Requests to a buffer in memory as steps. A block of requests comes down to the steps inside it, up
to the first refusal, between the begin and the end of a group; what only reads takes no step. So a
run of requests is a run of steps without nesting. -/

namespace WordCycle.MemoryBuffer
set_option autoImplicit false

/-- What a request can do to a buffer. -/
inductive Step
  | insert (new : Text)
  | replace (start stop : Int) (new : Text)
  | setCursor (pos : Int)
  | beginGroup
  | endGroup
  | undo
  | showPopup (visible : Bool)
  deriving DecidableEq

/-- The buffer after a step. The end of a group that was not begun changes nothing. -/
def apply (b : MemoryBuffer) : Step → MemoryBuffer
  | .insert new => b.insert new
  | .replace start stop new => b.replace start stop new
  | .setCursor pos => b.setCursor pos
  | .beginGroup => b.beginGroup
  | .endGroup => b.endGroup.toOption.getD b
  | .undo => b.undo.2
  | .showPopup visible => { b with popupVisible := visible }

def applyAll (b : MemoryBuffer) (steps : List Step) : MemoryBuffer := steps.foldl apply b

theorem applyAll_append (b : MemoryBuffer) (steps more : List Step) :
    b.applyAll (steps ++ more) = (b.applyAll steps).applyAll more := List.foldl_append

mutual

/-- The steps of one request. -/
def steps : BufferCommand → MemoryBuffer → List Step
  | .insert new, _ => [.insert new]
  | .replace start stop new, _ => [.replace start stop new]
  | .setCursor pos, _ => [.setCursor pos]
  | .beginGroup, _ => [.beginGroup]
  | .endGroup, _ => [.endGroup]
  | .undo, _ => [.undo]
  | .setPopup visible, _ => [.showPopup visible]
  | .dismissPopup, _ => [.showPopup false]
  | .group inner, b => .beginGroup :: (stepsAll inner b.beginGroup ++ [.endGroup])
  | .cursor, _ => []
  | .text, _ => []
  | .wordStart _, _ => []
  | .wordEnd _, _ => []
  | .length, _ => []
  | .range _ _, _ => []
  | .find _ _ _, _ => []
  | .isWordChar _, _ => []
  | .fail _, _ => []

/-- The steps of requests up to the first that is refused. -/
def stepsAll : List BufferCommand → MemoryBuffer → List Step
  | [], _ => []
  | c :: rest, b =>
    steps c b ++
      match run c b with
      | (.error _, _) => []
      | (.ok _, b) => stepsAll rest b

end

mutual

theorem run_eq_applyAll (c : BufferCommand) (b : MemoryBuffer) :
    (run c b).2 = b.applyAll (steps c b) := by
  cases c with
  | group inner =>
    have hinner := runAll_eq_applyAll inner b.beginGroup
    have hsteps : b.applyAll (steps (.group inner) b) =
        ((b.beginGroup).applyAll (stepsAll inner b.beginGroup)).apply .endGroup := by
      rw [steps, ← List.cons_append, applyAll_append]
      rfl
    rw [hsteps, ← hinner, run]
    generalize runAll inner b.beginGroup = r
    obtain ⟨answers, b'⟩ := r
    simp only [apply]
    cases b'.endGroup with
    | ok b'' => rfl
    | error e => rfl
  | endGroup =>
    simp only [run, steps, applyAll, List.foldl_cons, List.foldl_nil, apply]
    cases b.endGroup with
    | ok b' => rfl
    | error e => rfl
  | _ => rfl

theorem runAll_eq_applyAll (commands : List BufferCommand) (b : MemoryBuffer) :
    (runAll commands b).2 = b.applyAll (stepsAll commands b) := by
  cases commands with
  | nil => rfl
  | cons c rest =>
    have hc := run_eq_applyAll c b
    rw [runAll, stepsAll, applyAll_append, ← hc]
    split
    · next heq => rw [heq]; rfl
    · next heq => rw [heq]; exact runAll_eq_applyAll rest _

end

/-! ## Any requests -/

/-- Requests one after the other, whether they are refused or not. -/
def after (b : MemoryBuffer) (commands : List BufferCommand) : MemoryBuffer :=
  commands.foldl (fun b c => (run c b).2) b

/-- The steps of requests, whether these are refused or not. -/
def trace : List BufferCommand → MemoryBuffer → List Step
  | [], _ => []
  | c :: rest, b => steps c b ++ trace rest (run c b).2

theorem after_eq_applyAll (commands : List BufferCommand) (b : MemoryBuffer) :
    b.after commands = b.applyAll (trace commands b) := by
  induction commands generalizing b with
  | nil => rfl
  | cons c rest ih =>
    have hrest := ih (run c b).2
    rw [trace, applyAll_append, ← run_eq_applyAll, ← hrest]
    rfl

end WordCycle.MemoryBuffer
