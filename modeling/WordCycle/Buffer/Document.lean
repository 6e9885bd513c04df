import WordCycle.Buffer.Basic
import WordCycle.Widget

/-! A buffer over the document of a text widget. The widget counts UTF-16 units, the buffer counts
characters, and positions are converted on the way. The text is kept at hand until the widget
announces a change; an edit of the buffer's own puts the edited text there itself, since inside an
edit block the announcement is held back. -/

namespace WordCycle
set_option autoImplicit false

structure DocumentBuffer where
  widget : Widget
  extra : Text := []
  /-- Whether the popup is shown; none if there is no popup. -/
  popup : Option Bool := none
  /-- The text at hand. -/
  cache : Option Text := none
  /-- The cursor of the open edit block. -/
  editCursor : Option TextCursor := none
  /-- What the widget was sent, the first request first. -/
  calls : List WidgetCall := []
  deriving DecidableEq

namespace DocumentBuffer

/-! ## Reading -/

/-- The text, as it is at hand or else as the widget holds it. -/
def text (b : DocumentBuffer) : Text := b.cache.getD b.widget.text

def remember (b : DocumentBuffer) : DocumentBuffer := { b with cache := some b.text }

/-- The units before a position. -/
def toUnits (b : DocumentBuffer) (pos : Int) : Nat := Units16.ofPosition b.text pos

/-- The position of a number of units. -/
def fromUnits (b : DocumentBuffer) (units : Int) : Nat := Units16.toPosition b.text units

/-- Where the user's selection begins. -/
def cursor (b : DocumentBuffer) : Int := b.fromUnits b.widget.selection.start

/-! ## Requests to the widget -/

def sent (b : DocumentBuffer) (c : WidgetCall) : DocumentBuffer :=
  { b with calls := b.calls ++ [c] }

/-- Takes the widget as a request left it. An announced change puts the text out of hand. -/
def received (b : DocumentBuffer) (announced : Bool) (w : Widget) : DocumentBuffer :=
  { b with widget := w, cache := if announced then none else b.cache }

def move (b : DocumentBuffer) (c : TextCursor) (units : Nat) (keepAnchor : Bool) :
    TextCursor × DocumentBuffer :=
  (b.widget.moved c units keepAnchor, b.sent (.setPosition units keepAnchor))

/-! ## Editing -/

def setCursor (b : DocumentBuffer) (pos : Int) : DocumentBuffer :=
  let b := b.remember
  let (c, b) := b.move b.widget.selection (b.toUnits pos) false
  { b.sent .setTextCursor with widget := { b.widget with selection := c } }

/-- Replaces a part of the text, with the cursor of the open block or one of its own. -/
def replace (b : DocumentBuffer) (start stop : Int) (new : Text) : DocumentBuffer :=
  let b := b.remember
  let old := b.text
  let (c, b) := b.move (b.editCursor.getD {}) (b.toUnits start) false
  let (c, b) := b.move c (b.toUnits stop) true
  let (announced, c, w) := b.widget.insertText c new
  let b := (b.sent (.insertText new)).received announced w
  { b with editCursor := b.editCursor.map fun _ => c, cache := some (old.splice start stop new) }

/-- Opens an edit block, unless one is open. -/
def beginGroup (b : DocumentBuffer) : DocumentBuffer :=
  if b.editCursor.isSome then b
  else { b.sent .beginEditBlock with editCursor := some {}, widget := b.widget.beginBlock }

/-- Ends the edit block, if one is open. -/
def endGroup (b : DocumentBuffer) : DocumentBuffer :=
  if b.editCursor.isSome then
    let (announced, w) := b.widget.endBlock
    { (b.sent .endEditBlock).received announced w with editCursor := none }
  else b

def dismissPopup (b : DocumentBuffer) : DocumentBuffer :=
  { b with popup := b.popup.map fun _ => false }

instance : Buffer DocumentBuffer where
  text := text
  extra := extra
  cursor := cursor
  remember := remember
  dismissPopup := dismissPopup
  complete b start stop new caret :=
    ((b.beginGroup.replace start stop new).setCursor caret).endGroup

/-! ## The user's part -/

def select (b : DocumentBuffer) (anchor position : Int) : DocumentBuffer :=
  { b with widget := { b.widget with selection := ⟨anchor, position⟩ } }

/-- Puts another text into the document and leaves the selection alone. -/
def changeText (b : DocumentBuffer) (t : Text) : DocumentBuffer :=
  let (announced, w) := b.widget.replaceUnits (Units16.encode t)
  b.received announced w

/-- Selects a part of the document that is first brought into it. -/
def place (b : DocumentBuffer) (anchor position : Int) : DocumentBuffer :=
  { b with widget := b.widget.select anchor position }

/-- Types a text over the selection. -/
def type (b : DocumentBuffer) (t : Text) : DocumentBuffer :=
  let (announced, w) := b.widget.type t
  b.received announced w

/-- Shows another text, with the selection at its beginning. -/
def showText (b : DocumentBuffer) (t : Text) : DocumentBuffer :=
  let (announced, w) := b.widget.setText t
  b.received announced w

/-! ## Requests -/

/-- The requests to a buffer over a widget, and what the user does to the widget. -/
inductive Command
  | toUnits (pos : Int)
  | fromUnits (units : Int)
  | replace (start stop : Int) (new : Text)
  | setCursor (pos : Int)
  | cursor
  | beginGroup
  | endGroup
  | find (pattern : Text) (start stop : Int)
  | wordStart (pos : Int)
  | wordEnd (pos : Int)
  | range (start stop : Int)
  | length
  | dismissPopup
  | select (anchor position : Int)
  | changeText (t : Text)
  | setPopup (visible : Bool)
  deriving DecidableEq

def run (b : DocumentBuffer) : Command → Except EditError BufferAnswer × DocumentBuffer
  | .toUnits pos => (.ok (.position (b.toUnits pos)), b.remember)
  | .fromUnits units => (.ok (.position (b.fromUnits units)), b.remember)
  | .replace start stop new => (.ok .nothing, b.replace start stop new)
  | .setCursor pos => (.ok .nothing, b.setCursor pos)
  | .cursor => (.ok (.position b.cursor), b.remember)
  | .beginGroup => (.ok .nothing, b.beginGroup)
  | .endGroup => (.ok .nothing, b.endGroup)
  | .find pattern start stop =>
    ((Search.first? { pattern, extra := b.extra } b.text start stop).map .found, b.remember)
  | .wordStart pos => ((wordStart b.extra b.text pos).map .position, b.remember)
  | .wordEnd pos => ((wordEnd b.extra b.text pos).map .position, b.remember)
  | .range start stop => (.ok (.text (b.text.slice start stop)), b.remember)
  | .length => (.ok (.position b.text.length), b.remember)
  | .dismissPopup => (.ok .nothing, b.dismissPopup)
  | .select anchor position => (.ok .nothing, b.select anchor position)
  | .changeText t => (.ok .nothing, b.changeText t)
  | .setPopup visible => (.ok .nothing, { b with popup := b.popup.map fun _ => visible })

end DocumentBuffer
end WordCycle
