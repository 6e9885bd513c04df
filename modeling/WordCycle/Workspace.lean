import WordCycle.Buffer.Memory
import WordCycle.Session
import WordCycle.Settings.Key

/-! Several buffers in memory under one completion session. -/

namespace WordCycle
set_option autoImplicit false

/-- Buffers, of which one is current, with the settings and the session that serve them all. -/
structure Workspace where
  buffers : List MemoryBuffer
  current : Nat := 0
  settings : Settings := {}
  session : Session := {}
  deriving DecidableEq

namespace Workspace

inductive Error
  | edit (e : EditError)
  | settings (e : SettingsError)
  deriving DecidableEq

inductive Command
  | cycle (direction : Direction)
  | reset
  | use (number : Nat)
  | configure (c : Settings.Change)
  | edit (c : BufferCommand)
  /-- Carries out requests as one step of undo of the buffer that was current before. -/
  | group (inner : List Command)

inductive Answer
  | nothing
  | completion (text : Option Text)
  | buffer (answer : BufferAnswer)
  | each (answers : List Answer)

/-- The current buffer; an empty one stands in if there is none of the number. -/
def buffer (w : Workspace) : MemoryBuffer := w.buffers.getD w.current (.ofText [] none [])

def putBuffer (w : Workspace) (number : Nat) (b : MemoryBuffer) : Workspace :=
  { w with buffers := w.buffers.set number b }

def cycle (w : Workspace) (direction : Direction) :
    Except EditError (Option Text × Option Report × Workspace) := do
  let o ← w.session.cycle w.settings w.current w.buffer direction
  return (o.completion, o.report, { w.putBuffer w.current o.buffer with session := o.session })

mutual

/-- Carries out one request, with what is reported meanwhile. -/
def run : Command → Workspace → (Except Error Answer × List Report) × Workspace
  | .cycle direction, w =>
    match w.cycle direction with
    | .ok (completion, report, w) => ((.ok (.completion completion), report.toList), w)
    | .error e => ((.error (.edit e), []), w)
  | .reset, w => ((.ok .nothing, []), { w with session := {} })
  | .use number, w => ((.ok .nothing, []), { w with current := number })
  | .configure c, w =>
    match w.settings.change c with
    | .ok (settings, _) => ((.ok .nothing, []), { w with settings })
    | .error e => ((.error (.settings e), []), w)
  | .edit c, w =>
    let (r, b) := w.buffer.run c
    (((r.map .buffer).mapError .edit, []), w.putBuffer w.current b)
  | .group inner, w =>
    let number := w.current
    let ((answers, reports), w) := runAll inner (w.putBuffer number w.buffer.beginGroup)
    match (w.buffers.getD number w.buffer).endGroup with
    | .ok b => ((answers.map .each, reports), w.putBuffer number b)
    | .error e => ((.error (.edit e), reports), w)

/-- Carries out requests up to the first that is refused. -/
def runAll : List Command → Workspace → (Except Error (List Answer) × List Report) × Workspace
  | [], w => ((.ok [], []), w)
  | c :: rest, w =>
    match run c w with
    | ((.error e, reports), w) => ((.error e, reports), w)
    | ((.ok answer, reports), w) =>
      let ((answers, more), w) := runAll rest w
      ((answers.map (answer :: ·), reports ++ more), w)

end

end Workspace
end WordCycle
