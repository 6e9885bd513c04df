import WordCycle.Text.Slice

/-! Why a request to a buffer, a candidate store or an undo stack is refused, and the range of the
positions that can be counted at all. -/

namespace WordCycle
set_option autoImplicit false

/-- The causes for which editing and completing refuse a request. -/
inductive EditError
  /-- A character outside the text was asked for. -/
  | outsideText
  /-- The position asked for is beyond what an index can hold. -/
  | positionTooLarge
  /-- A bound of a search or of a stack is beyond what a count can hold. -/
  | boundTooLarge
  /-- A word was offered to a store that is closed by its trailing entry. -/
  | storeFinalized
  /-- A number that stands for no kind of match. -/
  | unknownMatchKind (number : Int)
  | nothingToCycle
  | unmatchedEnd
  | negativeLimit
  /-- The buffer has no document to answer from. -/
  | notProvided
  /-- A failure raised by the user of the buffer, in its own words. -/
  | raised (message : Text)
  deriving DecidableEq

def EditError.message : EditError → String
  | outsideText => "string index out of range"
  | positionTooLarge => "cannot fit 'int' into an index-sized integer"
  | boundTooLarge => "Python int too large to convert to C ssize_t"
  | storeFinalized => "cannot add candidates to a finalized store"
  | unknownMatchKind n => toString n ++ " is not a valid MatchType"
  | nothingToCycle => "no candidates to cycle through"
  | unmatchedEnd => "end_group() without matching begin_group()"
  | negativeLimit => "maxlen must be non-negative"
  | notProvided => ""
  | raised message => String.ofList message

/-- Whether a number fits a signed machine word of 64 bits. -/
def fitsWord (n : Int) : Bool := -0x8000000000000000 ≤ n && n < 0x8000000000000000

end WordCycle
