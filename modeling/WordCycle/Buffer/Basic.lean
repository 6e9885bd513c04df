import WordCycle.Search

/-! Buffers: what completing a word needs from a text with a caret, and the requests that buffers
answer. -/

namespace WordCycle
set_option autoImplicit false

/-- A text with a caret in which a word can be replaced. -/
class Buffer (β : Type) where
  /-- The text as the buffer shows it. -/
  text : β → Text
  /-- The characters that form words besides letters, digits and the underscore. -/
  extra : β → Text
  /-- The caret, or the beginning of the selection. -/
  cursor : β → Int
  /-- The buffer after its text was read. -/
  remember : β → β
  /-- Hides a popup that is in the way. -/
  dismissPopup : β → β
  /-- Replaces a part of the text and places the caret, as one step of undo. -/
  complete : β → (start stop : Int) → (new : Text) → (caret : Int) → β

inductive BufferCommand
  /-- Types a text at the caret. -/
  | insert (new : Text)
  | replace (start stop : Int) (new : Text)
  | setCursor (pos : Int)
  | cursor
  | text
  | beginGroup
  | endGroup
  | undo
  | wordStart (pos : Int)
  | wordEnd (pos : Int)
  | length
  | range (start stop : Int)
  | find (pattern : Text) (start stop : Int)
  | isWordChar (s : Text)
  | setPopup (visible : Bool)
  | dismissPopup
  /-- Carries out requests as one step of undo, which ends even if one of them is refused. -/
  | group (inner : List BufferCommand)
  /-- Fails in the words given. -/
  | fail (message : Text)

inductive BufferAnswer
  | nothing
  | flag (b : Bool)
  | position (pos : Int)
  | found (pos : Option Nat)
  | text (t : Text)
  | each (answers : List BufferAnswer)

end WordCycle
