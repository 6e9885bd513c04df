import WordCycle.Buffer.Basic
import WordCycle.Rotation
import WordCycle.Scan

/-! Completion sessions. The first request for a word scans the text and offers the first candidate;
as long as the word before the caret is the candidate inserted last, in the same document, further
requests go round the same candidates. Anything else begins anew. -/

namespace WordCycle
set_option autoImplicit false

/-- What is remembered from one request to the next. -/
structure Session where
  /-- What was typed when the candidates were collected. -/
  typed : Option Text := none
  /-- The candidate inserted last. -/
  selection : Option Text := none
  candidates : CandidateStore := {}
  /-- The number of the document the candidates come from. -/
  document : Option Nat := none
  deriving DecidableEq

inductive Report
  /-- No word completes what was typed. -/
  | noCompletions (typed : Text)
  deriving DecidableEq

def Report.message : Report → Text
  | noCompletions typed => "No completions found for \"".toList ++ typed ++ ['"', '.']

namespace Session

/-- Whether the word before the caret is the one that the session inserted into the document. -/
def continues (s : Session) (document : Nat) (typed : Text) : Bool :=
  s.selection = some typed && s.document = some document

structure Outcome (β : Type) where
  session : Session
  buffer : β
  completion : Option Text := none
  report : Option Report := none
  deriving DecidableEq

/-- The session that answers for a word: the present one if it goes on, else one with the
candidates of a new scan. -/
def resume (s : Session) (settings : Settings) (document : Nat) (scan : Scan) (word : Text) :
    Except EditError Session :=
  if s.continues document scan.typed then .ok s
  else do
    let candidates ← scan.candidates settings word
    return { typed := some scan.typed, candidates, document := some document }

/-- What the session answers for the word typed from `start` on: it puts the next candidate in place
of what stands up to `stop`. Without candidates this is reported and the session forgotten. -/
def answer {β : Type} [Buffer β] (s : Session) (buffer : β) (typed : Text) (start stop : Int)
    (direction : Direction) : Except EditError (Outcome β) :=
  if s.candidates.size = 0 then
    .ok { session := {}, buffer, report := some (.noCompletions typed) }
  else
    (rotate s.candidates.texts s.selection direction).map fun completion =>
      { session := { s with selection := some completion }
        buffer := Buffer.complete (Buffer.dismissPopup buffer) start stop completion
          (start + completion.length)
        completion := some completion }

/-- Replaces the word before the caret by the next candidate. Without a word there nothing
happens. -/
def cycle {β : Type} [Buffer β] (s : Session) (settings : Settings) (document : Nat) (buffer : β)
    (direction : Direction) : Except EditError (Outcome β) := do
  let buffer := Buffer.remember buffer
  let text := Buffer.text buffer
  let extra := Buffer.extra buffer
  let pos := Buffer.cursor buffer
  let start ← wordStart extra text pos
  let stop ← wordEnd extra text pos
  if pos ≤ start then return { session := s, buffer }
  let typed := text.slice start pos
  let s ← s.resume settings document { text, extra, typed, pos } (text.slice start stop)
  s.answer buffer typed start (if settings.removeTrailingWordPart then stop else pos) direction

end Session
end WordCycle
