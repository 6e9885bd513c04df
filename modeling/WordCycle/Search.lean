import WordCycle.Text.LetterCase
import WordCycle.Word

/-! Searching a text for a pattern, with or without regard to letter case, anywhere or at word
starts only. One search answers with the first position (`Search.first?`), the other with all words
that a repeated search meets (`Search.occurrences`), each begun again behind the word just met. -/

namespace WordCycle
set_option autoImplicit false

structure Search where
  pattern : Text
  extra : Text := []
  /-- Accept a match only if no word character stands before it. -/
  wordStartOnly : Bool := true
  matchCase : Bool := true

namespace Search

/-! ## What one position has to show -/

/-- Whether a character of the text satisfies a character of the pattern. -/
def accepts (s : Search) (p c : Char) : Bool :=
  if s.matchCase then c == p else sameLetter p c

/-- Whether the text begins with the pattern. -/
def beginsWith (same : Char → Char → Bool) : Text → Text → Bool
  | [], _ => true
  | _ :: _, [] => false
  | p :: pattern, c :: text => same p c && beginsWith same pattern text

/-- The characters that an extra word character stands for when case is ignored: all lower case
forms of its letter, or itself alone beyond the basic plane. -/
def foldedExtra (e : Char) : List Char :=
  if 0xffff < (lowerChar e).toNat then [e] else lowerForms (lowerChar e)

/-- Whether the extra characters make the search compare the character before a match in lower
case: one of them has case or lies beyond the basic plane. -/
def lowersBefore (s : Search) : Bool :=
  s.extra.any fun e => isCased e || 0xffff < (lowerChar e).toNat

/-- Whether a character before a match counts as a word character. -/
def wordBefore (s : Search) (c : Char) : Bool :=
  if s.matchCase then isWordChar s.extra c
  else isWordChar (s.extra.flatMap foldedExtra) (if s.lowersBefore then lowerChar c else c)

/-- Whether a match begins between the character before, if any, and the rest of the text. -/
def matchesAt (s : Search) (before : Option Char) (rest : Text) : Bool :=
  beginsWith s.accepts s.pattern rest && !(s.wordStartOnly && before.any s.wordBefore)

/-! ## Bounds -/

/-- The character that stands before a position. -/
def charBefore (text : Text) : Nat → Option Char
  | 0 => none
  | pos + 1 => text[pos]?

/-- Whether a bound of a search in a text of the given length can be counted: every position of the
text can be, any other if it fits a machine word. -/
def isCountable (length : Nat) (bound : Int) : Bool :=
  (0 ≤ bound && bound ≤ length) || fitsWord bound

/-- The bounds of a search in a text of the given length. The lower one is first raised to the
beginning of the text; bounds beyond the end are moved to the end. -/
def bounds (length : Nat) (start stop : Int) : Except EditError (Nat × Nat) :=
  let start := max start 0
  if isCountable length start && isCountable length stop then
    .ok (min start.toNat length, min stop.toNat length)
  else .error .boundTooLarge

/-- How many positions from `start` on leave room for the pattern before `stop`. -/
def room (s : Search) (start stop : Nat) : Nat := stop + 1 - s.pattern.length - start

/-! ## The first match -/

/-- The first match among the next `tries` positions, of which `pos` is the first. -/
def firstFrom (s : Search) : Nat → Nat → Option Char → Text → Option Nat
  | 0, _, _, _ => none
  | _ + 1, _, _, [] => none
  | tries + 1, pos, before, c :: rest =>
    if s.matchesAt before (c :: rest) then some pos
    else firstFrom s tries (pos + 1) (some c) rest

/-- The first position at which a match begins and ends within the bounds. The character before it
may lie before the bounds. -/
def firstWithin (s : Search) (text : Text) (start stop : Nat) : Option Nat :=
  s.firstFrom (s.room start stop) start (charBefore text start) (text.drop start)

/-- The first match within signed bounds. The empty pattern is found nowhere. -/
def first? (s : Search) (text : Text) (start stop : Int) : Except EditError (Option Nat) :=
  if s.pattern.isEmpty then .ok none
  else do
    let (start, stop) ← bounds text.length start stop
    return s.firstWithin text start stop

/-! ## All words met -/

/-- A word of the text that begins with a match, and where it begins. -/
structure Occurrence where
  start : Nat
  word : Text
  deriving DecidableEq

/-- The match at the beginning of the rest of a text, with the word characters behind it. -/
def wordHere (s : Search) (rest : Text) : Text :=
  rest.take s.pattern.length
    ++ (rest.drop s.pattern.length).takeWhile (isWordChar s.extra)

/-- The words met among the next `tries` positions, of which `pos` is the first. Positions before
`resume` lie in the word met last and are passed over. -/
def occurrencesFrom (s : Search) : Nat → Nat → Nat → Option Char → Text → List Occurrence
  | 0, _, _, _, _ => []
  | _ + 1, _, _, _, [] => []
  | tries + 1, pos, resume, before, c :: rest =>
    if resume ≤ pos && s.matchesAt before (c :: rest) then
      let word := s.wordHere (c :: rest)
      ⟨pos, word⟩ :: occurrencesFrom s tries (pos + 1) (pos + word.length) (some c) rest
    else occurrencesFrom s tries (pos + 1) resume (some c) rest

/-- The words met within bounds, in the order of the text. -/
def occurrencesWithin (s : Search) (text : Text) (start stop : Nat) : List Occurrence :=
  s.occurrencesFrom (s.room start stop) start 0 (charBefore text start) (text.drop start)

/-- The words met within signed bounds. The empty pattern meets none. -/
def occurrences (s : Search) (text : Text) (start stop : Int) :
    Except EditError (List Occurrence) :=
  if s.pattern.isEmpty then .ok []
  else do
    let (start, stop) ← bounds text.length start stop
    return s.occurrencesWithin text start stop

end Search
end WordCycle
