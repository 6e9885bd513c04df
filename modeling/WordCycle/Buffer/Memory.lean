import WordCycle.Buffer.Basic
import WordCycle.Undo

/-! A buffer held in memory: its text, a cursor, an undo stack, and whether a popup is shown. -/

namespace WordCycle
set_option autoImplicit false

structure MemoryBuffer where
  text : Text
  cursor : Int
  extra : Text := []
  undoStack : UndoStack := {}
  popupVisible : Bool := false
  deriving DecidableEq

namespace MemoryBuffer

/-- A buffer with the cursor at a position, or at the end of the text. -/
def ofText (text : Text) (cursor : Option Int) (extra : Text) : MemoryBuffer :=
  { text, extra, cursor := cursor.getD text.length }

/-! ## Editing -/

/-- Places the cursor, within the text. -/
def setCursor (b : MemoryBuffer) (pos : Int) : MemoryBuffer :=
  { b with cursor := max 0 (min pos b.text.length) }

/-- Where a cursor goes when a part of the text is replaced: behind that part it moves with the text
behind, inside it goes to the end of the new part. -/
def movedCursor (cursor start stop : Int) (new : Text) : Int :=
  if stop < cursor then cursor + (new.length - (stop - start))
  else if start < cursor then start + new.length
  else cursor

def replace (b : MemoryBuffer) (start stop : Int) (new : Text) : MemoryBuffer :=
  { b with
    text := b.text.splice start stop new
    cursor := movedCursor b.cursor start stop new
    undoStack := b.undoStack.record ⟨start, b.text.slice start stop, new⟩ b.cursor }

/-- Types a text at the cursor. -/
def insert (b : MemoryBuffer) (new : Text) : MemoryBuffer :=
  { b.replace b.cursor b.cursor new with cursor := b.cursor + new.length }

/-! ## Undo -/

def beginGroup (b : MemoryBuffer) : MemoryBuffer :=
  { b with undoStack := b.undoStack.beginGroup b.cursor }

/-- Ends a group of edits; without its begin this is refused. -/
def endGroup (b : MemoryBuffer) : Except EditError MemoryBuffer :=
  b.undoStack.endGroup.map fun s => { b with undoStack := s }

def closeGroup (b : MemoryBuffer) : MemoryBuffer := { b with undoStack := b.undoStack.closeGroup }

/-- Takes the newest group of edits back, and says whether there was one. -/
def undo (b : MemoryBuffer) : Bool × MemoryBuffer :=
  match b.undoStack.pop with
  | (none, _) => (false, b)
  | (some g, s) =>
    (true, { b with text := g.revert b.text, cursor := g.cursorBefore, undoStack := s })

def dismissPopup (b : MemoryBuffer) : MemoryBuffer := { b with popupVisible := false }

instance : Buffer MemoryBuffer where
  text := text
  extra := extra
  cursor := cursor
  remember := id
  dismissPopup := dismissPopup
  complete b start stop new caret :=
    ((b.beginGroup.replace start stop new).setCursor caret).closeGroup

/-! ## Requests -/

mutual

/-- Carries out one request. What a refused group had done before the refusal stays done. -/
def run : BufferCommand → MemoryBuffer → Except EditError BufferAnswer × MemoryBuffer
  | .insert new, b => (.ok .nothing, b.insert new)
  | .replace start stop new, b => (.ok .nothing, b.replace start stop new)
  | .setCursor pos, b => (.ok .nothing, b.setCursor pos)
  | .cursor, b => (.ok (.position b.cursor), b)
  | .text, b => (.ok (.text b.text), b)
  | .beginGroup, b => (.ok .nothing, b.beginGroup)
  | .endGroup, b =>
    match b.endGroup with
    | .ok b => (.ok .nothing, b)
    | .error e => (.error e, b)
  | .undo, b => (.ok (.flag b.undo.1), b.undo.2)
  | .wordStart pos, b => ((wordStart b.extra b.text pos).map .position, b)
  | .wordEnd pos, b => ((wordEnd b.extra b.text pos).map .position, b)
  | .length, b => (.ok (.position b.text.length), b)
  | .range start stop, b => (.ok (.text (b.text.slice start stop)), b)
  | .find pattern start stop, b =>
    ((Search.first? { pattern, extra := b.extra } b.text start stop).map .found, b)
  | .isWordChar s, b => (.ok (.flag (isWordText b.extra s)), b)
  | .setPopup visible, b => (.ok .nothing, { b with popupVisible := visible })
  | .dismissPopup, b => (.ok .nothing, b.dismissPopup)
  | .group inner, b =>
    let (answers, b) := runAll inner b.beginGroup
    match b.endGroup with
    | .ok b => (answers.map .each, b)
    | .error e => (.error e, b)
  | .fail message, b => (.error (.raised message), b)

/-- Carries out requests up to the first that is refused. -/
def runAll : List BufferCommand → MemoryBuffer → Except EditError (List BufferAnswer) × MemoryBuffer
  | [], b => (.ok [], b)
  | c :: rest, b =>
    match run c b with
    | (.error e, b) => (.error e, b)
    | (.ok answer, b) =>
      let (answers, b) := runAll rest b
      (answers.map (answer :: ·), b)

end

end MemoryBuffer
end WordCycle
