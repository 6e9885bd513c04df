import WordCycle.Text.Units16

/-! A text widget: a document of UTF-16 units with edit blocks, and the user's selection in it. It
announces a change of its document at once, or, inside edit blocks, when the outermost one ends.
Edits leave the selection where it is. -/

namespace WordCycle
set_option autoImplicit false

/-- A cursor of a document: the text between anchor and position is selected. -/
structure TextCursor where
  anchor : Int := 0
  position : Int := 0
  deriving DecidableEq

def TextCursor.start (c : TextCursor) : Int := min c.anchor c.position

def TextCursor.stop (c : TextCursor) : Int := max c.anchor c.position

structure Widget where
  units : Units := []
  selection : TextCursor := {}
  /-- The number of edit blocks that are open. -/
  blocks : Nat := 0
  /-- Whether a change inside the blocks is yet to be announced. -/
  changed : Bool := false
  deriving DecidableEq

inductive WidgetCall
  | setPosition (pos : Int) (keepAnchor : Bool)
  | insertText (t : Text)
  | beginEditBlock
  | endEditBlock
  | setTextCursor
  deriving DecidableEq

namespace Widget

/-- The widget with a text in which the selection lies at the end. -/
def ofText (t : Text) : Widget :=
  let stop := Units16.length t
  { units := Units16.encode t, selection := ⟨stop, stop⟩ }

def text (w : Widget) : Text := Units16.decode w.units

/-- Moves a cursor, with or without its anchor. A position outside the document is ignored. -/
def moved (w : Widget) (c : TextCursor) (pos : Int) (keepAnchor : Bool) : TextCursor :=
  if 0 ≤ pos && pos ≤ w.units.length then ⟨if keepAnchor then c.anchor else pos, pos⟩ else c

/-- Gives the document new units, and says whether the change is announced at once. -/
def replaceUnits (w : Widget) (units : Units) : Bool × Widget :=
  if w.blocks = 0 then (true, { w with units }) else (false, { w with units, changed := true })

/-- Puts a text in place of what a cursor selects, and the cursor behind it. -/
def insertText (w : Widget) (c : TextCursor) (t : Text) : Bool × TextCursor × Widget :=
  let new := Units16.encode t
  let start := c.start.toNat
  let stop : Int := start + new.length
  let (announced, w) := w.replaceUnits (w.units.take start ++ new ++ w.units.drop c.stop.toNat)
  (announced, ⟨stop, stop⟩, w)

def beginBlock (w : Widget) : Widget := { w with blocks := w.blocks + 1 }

/-- Ends an edit block, and says whether changes are announced. -/
def endBlock (w : Widget) : Bool × Widget :=
  if w.blocks ≤ 1 then (w.changed, { w with blocks := 0, changed := false })
  else (false, { w with blocks := w.blocks - 1 })

/-! ## The user's part -/

/-- A position brought into the document, and before a surrogate pair if it points into one. -/
def placed (w : Widget) (pos : Int) : Int :=
  let p := (max 0 (min pos w.units.length)).toNat
  match p with
  | 0 => 0
  | q + 1 =>
    if (w.units[q]?).any Units16.isHigh && (w.units[q + 1]?).any Units16.isLow then q else p

/-- Selects what lies between two positions, each brought to its place. -/
def select (w : Widget) (anchor position : Int) : Widget :=
  { w with selection := ⟨w.placed anchor, w.placed position⟩ }

def type (w : Widget) (t : Text) : Bool × Widget :=
  let (announced, c, w) := w.insertText w.selection t
  (announced, w.select c.anchor c.position)

/-- Shows another text, with the selection at its beginning. -/
def setText (w : Widget) (t : Text) : Bool × Widget :=
  { w with selection := {} }.replaceUnits (Units16.encode t)

end Widget
end WordCycle
