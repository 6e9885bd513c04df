import WordCycle.EditError

/-! Going round a list of texts, forward and backward. -/

namespace WordCycle
set_option autoImplicit false

/-- The two ways round. -/
inductive Direction
  | forward
  | backward
  deriving DecidableEq

/-- The change of index of one step. -/
def Direction.step : Direction → Int
  | forward => 1
  | backward => -1

/-- The text one step from the previous one. The round begins at the first text if there is no
previous one or it is not in the list. -/
def rotate (texts : List Text) (previous : Option Text) (direction : Direction) :
    Except EditError Text :=
  match texts with
  | [] => .error .nothingToCycle
  | first :: _ =>
    match previous.bind fun p => texts.idxOf? p with
    | none => .ok first
    | some i => .ok (texts.getD ((i + direction.step) % texts.length).toNat first)

/-- The texts of several steps, each from the one before it. -/
def rotations (texts : List Text) : Option Text → List Direction → Except EditError (List Text)
  | _, [] => .ok []
  | previous, d :: directions => do
    let next ← rotate texts previous d
    return next :: (← rotations texts (some next) directions)

end WordCycle
