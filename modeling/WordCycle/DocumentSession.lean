import WordCycle.Buffer.Document
import WordCycle.Session

/-! Completing words in the document of a text widget: one buffer, one session. -/

namespace WordCycle
set_option autoImplicit false

/-- A buffer over a widget with its session. -/
structure DocumentSession where
  buffer : DocumentBuffer
  settings : Settings := {}
  session : Session := {}
  deriving DecidableEq

namespace DocumentSession

/-- Completes the word before the selection. -/
def cycle (d : DocumentSession) (direction : Direction) :
    Except EditError (Option Text × Option Report × DocumentSession) := do
  let o ← d.session.cycle d.settings 0 d.buffer direction
  return (o.completion, o.report, { d with buffer := o.buffer, session := o.session })

inductive Command
  | cycle (direction : Direction)
  | reset
  | buffer (c : DocumentBuffer.Command)
  deriving DecidableEq

inductive Answer
  | nothing
  | completion (text : Option Text)
  | buffer (answer : BufferAnswer)

/-- Carries out one request, with what is reported meanwhile. -/
def run (d : DocumentSession) :
    Command → (Except EditError Answer × Option Report) × DocumentSession
  | .cycle direction =>
    match d.cycle direction with
    | .ok (completion, report, d) => ((.ok (.completion completion), report), d)
    | .error e => ((.error e, none), d)
  | .reset => ((.ok .nothing, none), { d with session := {} })
  | .buffer c =>
    let (r, buffer) := d.buffer.run c
    ((r.map .buffer, none), { d with buffer })

end DocumentSession
end WordCycle
