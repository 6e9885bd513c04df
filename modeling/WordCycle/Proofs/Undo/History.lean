import WordCycle.Proofs.Text.Splice
import WordCycle.Proofs.Undo.Steps

/-! What undo is to bring back. Beside the steps of a buffer runs a history of the places at which the
groups of edits were begun that are not undone yet. The undo stack keeps the newest of them: taking
back one group after the other leads from one of these places to the next. -/

namespace WordCycle
set_option autoImplicit false

/-- A text with a cursor. -/
structure Place where
  text : Text
  cursor : Int
  deriving DecidableEq

def Place.Inside (p : Place) : Prop := 0 ≤ p.cursor ∧ p.cursor ≤ p.text.length

def MemoryBuffer.place (b : MemoryBuffer) : Place := ⟨b.text, b.cursor⟩

namespace MemoryBuffer
variable {b : MemoryBuffer}

theorem inside_insert (h : b.place.Inside) (new : Text) : (b.insert new).place.Inside := by
  obtain ⟨hlow, hhigh⟩ : 0 ≤ b.cursor ∧ b.cursor ≤ b.text.length := h
  have hlength := b.text.length_splice new b.cursor b.cursor hlow (Int.le_refl _) hhigh
  constructor
  · show 0 ≤ b.cursor + new.length
    omega
  · show b.cursor + new.length ≤ (b.text.splice b.cursor b.cursor new).length
    omega

theorem inside_replace (h : b.place.Inside) (new : Text) {start stop : Int} (hstart : 0 ≤ start)
    (hle : start ≤ stop) (hstop : stop ≤ b.text.length) : (b.replace start stop new).place.Inside := by
  obtain ⟨hlow, hhigh⟩ : 0 ≤ b.cursor ∧ b.cursor ≤ b.text.length := h
  have hlength := b.text.length_splice new start stop hstart hle hstop
  constructor
  · show 0 ≤ movedCursor b.cursor start stop new
    unfold movedCursor
    split
    · omega
    · split <;> omega
  · show movedCursor b.cursor start stop new ≤ (b.text.splice start stop new).length
    unfold movedCursor
    split
    · omega
    · split <;> omega

/-- The cursor can be placed inside the text from anywhere. -/
theorem inside_setCursor (b : MemoryBuffer) (pos : Int) : (b.setCursor pos).place.Inside := by
  constructor
  · show 0 ≤ max 0 (min pos b.text.length)
    omega
  · show max 0 (min pos b.text.length) ≤ b.text.length
    omega

end MemoryBuffer

/-- Where the open group was begun. -/
structure Pending where
  place : Place
  /-- Whether the group holds an edit. -/
  edited : Bool
  deriving DecidableEq

/-- What happened to a text, as far as it is not undone. -/
structure History where
  /-- Where the groups were begun that hold an edit, and the edits outside groups were made; the newest
  place first. -/
  begun : List Place := []
  depth : Nat := 0
  pending : Option Pending := none
  deriving DecidableEq

namespace History
open MemoryBuffer (Step)

def opened (h : History) (p : Place) : History :=
  { h with
    depth := h.depth + 1
    pending := if h.depth = 0 then some ⟨p, false⟩ else h.pending }

/-- The place of a group counts when the group ends, if it holds an edit. -/
def closed (h : History) : History :=
  if h.depth = 1 then
    { begun := match h.pending with
        | some ⟨p, true⟩ => p :: h.begun
        | _ => h.begun }
  else { h with depth := h.depth - 1 }

/-- An edit belongs to the open group; without one the place before the edit counts. -/
def edited (h : History) (p : Place) : History :=
  match h.pending with
  | some o => { h with pending := some { o with edited := true } }
  | none => { h with begun := p :: h.begun }

/-- The history after a step of a buffer. -/
def next (h : History) (b : MemoryBuffer) : Step → History
  | .insert _ => h.edited b.place
  | .replace _ _ _ => h.edited b.place
  | .setCursor _ => h
  | .beginGroup => h.opened b.place
  | .endGroup => h.closed
  | .undo => if b.undo.1 then { h with begun := h.begun.tail } else h
  | .showPopup _ => h

/-- The text to which the newest closed group leads: that of the buffer, or that at which the open
group was begun. -/
def base (h : History) (t : Text) : Text := (h.pending.map (·.place.text)).getD t

theorem base_of_closed (h : History) (hpending : h.pending = none) (t : Text) : h.base t = t := by
  rw [base, hpending]
  rfl

theorem base_of_open (h : History) {o : Pending} (hpending : h.pending = some o) (t : Text) :
    h.base t = o.place.text := by
  rw [base, hpending]
  rfl

theorem closed_of_depth_zero (h : History) (hdepth : h.depth = 0) : h.closed = h := by
  cases h with
  | mk begun depth pending =>
    obtain rfl : depth = 0 := hdepth
    rfl

end History

/-! ## Taking back -/

theorem Edit.revert_splice (t new : Text) (start stop : Int) (hstart : 0 ≤ start)
    (hle : start ≤ stop) (hstop : stop ≤ t.length) :
    Edit.revert ⟨start, t.slice start stop, new⟩ (t.splice start stop new) = t := by
  obtain ⟨before, old, behind, rfl, rfl, rfl⟩ := t.exists_parts start stop hstart hle hstop
  rw [Edit.revert, Text.splice_parts, Text.slice_parts]
  exact Text.splice_parts before new behind old

theorem EditGroup.revert_append (edits : List Edit) (e : Edit) (cursor : Int) (t : Text) :
    EditGroup.revert ⟨edits ++ [e], cursor⟩ t = EditGroup.revert ⟨edits, cursor⟩ (e.revert t) := by
  simp [EditGroup.revert]

/-- Taking back a group of edits of a text brings back a place. -/
structure EditGroup.LeadsTo (g : EditGroup) (t : Text) (p : Place) : Prop where
  text : g.revert t = p.text
  cursor : g.cursorBefore = p.cursor
  inside : p.Inside

/-- Taking back groups one after the other brings back one place after the other. -/
def Leads : Text → List EditGroup → List Place → Prop
  | _, [], _ => True
  | _, _ :: _, [] => False
  | t, g :: groups, p :: places => g.LeadsTo t p ∧ Leads p.text groups places

theorem Leads.take {t : Text} {groups : List EditGroup} {places : List Place}
    (h : Leads t groups places) (n : Nat) : Leads t (groups.take n) places := by
  induction groups generalizing t places n with
  | nil =>
    rw [List.take_nil]
    exact h
  | cons g groups ih =>
    cases n with
    | zero => trivial
    | succ n =>
      cases places with
      | nil => exact h.elim
      | cons p places => exact ⟨h.1, ih h.2 n⟩

/-- An edit at the end of a group, taken back first. -/
theorem EditGroup.LeadsTo.record {g : EditGroup} {t : Text} {p : Place} (h : g.LeadsTo t p)
    (new : Text) (start stop : Int) (hstart : 0 ≤ start) (hle : start ≤ stop)
    (hstop : stop ≤ t.length) :
    EditGroup.LeadsTo { g with edits := g.edits ++ [⟨start, t.slice start stop, new⟩] }
      (t.splice start stop new) p where
  text := by
    rw [EditGroup.revert_append, Edit.revert_splice t new start stop hstart hle hstop]
    exact h.text
  cursor := h.cursor
  inside := h.inside

/-! ## The stack follows the history -/

/-- Either no group is open, or the one that the stack keeps open leads to where the history says it
was begun. -/
inductive OpenedAt (t : Text) (depth : Nat) (current : Option EditGroup) (pending : Option Pending) :
    Prop
  | closed (hcurrent : current = none) (hpending : pending = none) (hdepth : depth = 0)
  | opened (g : EditGroup) (o : Pending) (hcurrent : current = some g) (hpending : pending = some o)
      (hdepth : depth ≠ 0) (hleads : g.LeadsTo t o.place) (hedited : o.edited = !g.edits.isEmpty)

/-- A buffer whose undo stack agrees with a history. -/
structure Tracks (b : MemoryBuffer) (h : History) : Prop where
  inside : b.place.Inside
  limit : b.undoStack.limit = some 100
  size : b.undoStack.size ≤ 100
  depth : b.undoStack.depth = h.depth
  pending : OpenedAt b.text h.depth b.undoStack.current h.pending
  groups : Leads (h.base b.text) b.undoStack.groups h.begun

/-- Between two moments without an undo: the places of the groups that were added, the number of kept
groups, and where the first of the added groups led to. -/
structure Gains (b : MemoryBuffer) (h : History) (b' : MemoryBuffer) (h' : History)
    (new : List Place) : Prop where
  begun : h'.begun = new ++ h.begun
  size : b'.undoStack.size = min 100 (new.length + b.undoStack.size)
  base : (new.getLast?.map Place.text).getD (h'.base b'.text) = h.base b.text

def Advances (b : MemoryBuffer) (h : History) (b' : MemoryBuffer) (h' : History) : Prop :=
  Tracks b' h' ∧ ∃ new, Gains b h b' h' new

end WordCycle
