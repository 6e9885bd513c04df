import WordCycle.EditError

/-! Undo: edits are kept in groups, each of which is undone as one step. Nested begins and ends
collapse into the outermost group, and a full stack lets go of its oldest groups. -/

namespace WordCycle
set_option autoImplicit false

/-- One replacement of a part of a text. -/
structure Edit where
  start : Int
  removed : Text
  inserted : Text
  deriving DecidableEq

/-- Edits that are undone together, in the order in which they were made. -/
structure EditGroup where
  edits : List Edit := []
  /-- The cursor to go back to. -/
  cursorBefore : Int
  deriving DecidableEq

def Edit.revert (e : Edit) (t : Text) : Text :=
  t.splice e.start (e.start + e.inserted.length) e.removed

/-- Takes the edits of a group back, the last one first. -/
def EditGroup.revert (g : EditGroup) (t : Text) : Text := g.edits.foldr Edit.revert t

/-- The groups that can be undone and the group that is open. -/
structure UndoStack where
  /-- The most groups that are kept; none for any number. -/
  limit : Option Nat := some 100
  /-- The kept groups, the newest first. -/
  groups : List EditGroup := []
  /-- How many begins wait for their ends. -/
  depth : Nat := 0
  /-- The group that takes the edits while a begin waits. -/
  current : Option EditGroup := none
  deriving DecidableEq

namespace UndoStack

/-- An empty stack of a size that may be unlimited. -/
def ofSize : Option Int → Except EditError UndoStack
  | none => .ok { limit := none }
  | some n =>
    if fitsWord n then
      if n < 0 then .error .negativeLimit else .ok { limit := some n.toNat }
    else .error .boundTooLarge

def size (s : UndoStack) : Nat := s.groups.length

/-- Keeps a group; the oldest ones beyond the limit are let go. -/
def push (s : UndoStack) (g : EditGroup) : UndoStack :=
  { s with groups := match s.limit with
    | none => g :: s.groups
    | some n => (g :: s.groups).take n }

/-- Opens a group, or goes one level deeper in the open one. -/
def beginGroup (s : UndoStack) (cursor : Int) : UndoStack :=
  { s with
    depth := s.depth + 1
    current := if s.depth = 0 then some { cursorBefore := cursor } else s.current }

/-- Goes one level up. The end of the outermost level keeps the group, unless it is empty. -/
def closeGroup (s : UndoStack) : UndoStack :=
  if s.depth = 1 then
    let s' := { s with depth := 0, current := none }
    match s.current with
    | some g => if g.edits.isEmpty then s' else s'.push g
    | none => s'
  else { s with depth := s.depth - 1 }

/-- The end of a group; without its begin it is refused. -/
def endGroup (s : UndoStack) : Except EditError UndoStack :=
  if s.depth = 0 then .error .unmatchedEnd else .ok s.closeGroup

/-- Adds an edit to the open group, or keeps it as a group of its own. -/
def record (s : UndoStack) (e : Edit) (cursor : Int) : UndoStack :=
  match s.current with
  | some g => { s with current := some { g with edits := g.edits ++ [e] } }
  | none => s.push { edits := [e], cursorBefore := cursor }

def pop (s : UndoStack) : Option EditGroup × UndoStack :=
  match s.groups with
  | [] => (none, s)
  | g :: rest => (some g, { s with groups := rest })

/-! ## Requests -/

inductive Command
  | beginGroup (cursor : Int)
  | endGroup
  | record (edit : Edit) (cursor : Int)
  | pop
  deriving DecidableEq

/-- Carries out one request. Only a pop answers with a group, if it has one; a refused request
changes nothing. -/
def run (s : UndoStack) : Command → Except EditError (Option EditGroup × UndoStack)
  | .beginGroup cursor => .ok (none, s.beginGroup cursor)
  | .endGroup => s.endGroup.map (none, ·)
  | .record e cursor => .ok (none, s.record e cursor)
  | .pop => .ok s.pop

end UndoStack
end WordCycle
