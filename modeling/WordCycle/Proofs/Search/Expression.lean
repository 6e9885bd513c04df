import WordCycle.Proofs.Scan.Occurrence

/-! Searches in the notation of regular expressions. A search is written as its pattern, behind the
condition that no member of a class stands before the match; every character that means something in
the notation is escaped. Reading what was written gives the pattern and the class back, whatever
characters they are made of, and a search finds what its expression matches first. -/

namespace WordCycle
set_option autoImplicit false

/-- A member of a class of characters. -/
inductive ClassMember
  | char (c : Char)
  /-- Every letter, every digit and the underscore. -/
  | wordChar
  deriving DecidableEq

/-- A text to be matched letter by letter, with the class of which no member may stand before it. -/
structure Expression where
  notBehind : Option (List ClassMember) := none
  letters : Text
  deriving DecidableEq

namespace Expression

/-! ## Writing -/

/-- What is escaped: the signs of the notation, inside of classes or outside, and blanks. -/
def escaped : List Char := "()[]\x7b\x7d?*+-|^$\\.&~# \t\n\r\x0b\x0c".toList

def escape (c : Char) : Text := if c ∈ escaped then ['\\', c] else [c]

/-- The class of the word characters, without its brackets. -/
def writtenClass (extra : Text) : Text := '\\' :: 'w' :: extra.flatMap escape

def written (s : Search) : Text :=
  if s.wordStartOnly then
    "(?<![".toList ++ writtenClass s.extra ++ "])".toList ++ s.pattern.flatMap escape
  else s.pattern.flatMap escape

/-! ## Reading -/

/-- What means something outside of classes unless it is escaped. -/
def signs : List Char := "()[\x7b?*+|^$\\.".toList

/-- The character that an escaped one stands for. Letters and digits have other meanings there. -/
def unescape (c : Char) : Option Char := if c.isAlphanum then none else some c

def readLetters : Text → Option Text
  | [] => some []
  | '\\' :: c :: rest => do return (← unescape c) :: (← readLetters rest)
  | c :: rest => if c ∈ signs then none else do return c :: (← readLetters rest)

/-- Reads members up to the bracket that closes their class. A bare hyphen would make a range. -/
def readMembers : Text → Option (List ClassMember × Text)
  | [] => none
  | ']' :: rest => some ([], rest)
  | '\\' :: 'w' :: rest => do
    let (members, rest) ← readMembers rest
    return (.wordChar :: members, rest)
  | '\\' :: c :: rest => do
    let c ← unescape c
    let (members, rest) ← readMembers rest
    return (.char c :: members, rest)
  | c :: rest =>
    if c = '-' ∨ c = '\\' then none
    else do
      let (members, rest) ← readMembers rest
      return (.char c :: members, rest)

/-- The class that begins behind its bracket. A bracket or a caret there would not close it. -/
def readClass : Text → Option (List ClassMember × Text)
  | ']' :: _ | '^' :: _ => none
  | t => readMembers t

/-- Reads the expressions that searches are written as; other parts of the notation are refused. -/
def read : Text → Option Expression
  | '(' :: '?' :: '<' :: '!' :: '[' :: rest => do
    let (members, rest) ← readClass rest
    match rest with
    | ')' :: rest => return ⟨some members, ← readLetters rest⟩
    | _ => none
  | t => do return ⟨none, ← readLetters t⟩

/-! ## What was written is read -/

theorem mem_escaped_of_mem_signs : ∀ c ∈ signs, c ∈ escaped := by
  have hall : signs.all escaped.contains = true := by decide
  exact fun c hc => List.contains_iff_mem.mp (List.all_eq_true.mp hall c hc)

theorem unescape_of_mem_escaped : ∀ c ∈ escaped, unescape c = some c := by
  have hall : (escaped.all fun c => unescape c = some c) = true := by decide
  exact fun c hc => of_decide_eq_true (List.all_eq_true.mp hall c hc)

theorem readLetters_escape (t : Text) : readLetters (t.flatMap escape) = some t := by
  induction t with
  | nil => rfl
  | cons c t ih =>
    rw [List.flatMap_cons]
    by_cases hc : c ∈ escaped
    · simp [escape, hc, readLetters, unescape_of_mem_escaped c hc, ih]
    · have hsign : c ∉ signs := fun h => hc (mem_escaped_of_mem_signs c h)
      have hne : c ≠ '\\' := by rintro rfl; exact hc (by decide)
      simp [escape, hc, readLetters.eq_3, hsign, hne, ih]

theorem readMembers_escape (t rest : Text) :
    readMembers (t.flatMap escape ++ ']' :: rest) = some (t.map .char, rest) := by
  induction t with
  | nil => rfl
  | cons c t ih =>
    rw [List.flatMap_cons]
    by_cases hc : c ∈ escaped
    · have hw : c ≠ 'w' := by rintro rfl; exact absurd hc (by decide)
      simp [escape, hc, readMembers.eq_4 c _ hw, unescape_of_mem_escaped c hc, ih]
    · have hbracket : c ≠ ']' := by rintro rfl; exact hc (by decide)
      have hbackslash : c ≠ '\\' := by rintro rfl; exact hc (by decide)
      have hhyphen : c ≠ '-' := by rintro rfl; exact hc (by decide)
      simp [escape, hc, readMembers.eq_5 c _ hbracket, hbackslash, hhyphen, ih]

/-- The expression that a search is written as. -/
def ofSearch (s : Search) : Expression where
  notBehind := if s.wordStartOnly then some (.wordChar :: s.extra.map .char) else none
  letters := s.pattern

theorem read_escape (t : Text) : read (t.flatMap escape) = some ⟨none, t⟩ := by
  have hread := readLetters_escape t
  generalize ht : t.flatMap escape = u at hread
  unfold read
  split
  · -- no parenthesis is written without its escape
    cases t with
    | nil => cases ht
    | cons c t =>
      rw [List.flatMap_cons, escape] at ht
      split at ht
      · cases ht
      · next hc =>
        obtain rfl : c = '(' := by simpa using congrArg List.head? ht
        exact absurd (by decide) hc
  · simp [hread]

theorem read_written (s : Search) : read (written s) = some (ofSearch s) := by
  by_cases hstart : s.wordStartOnly = true
  · have hmembers := readMembers_escape s.extra (')' :: s.pattern.flatMap escape)
    simp [written, hstart, writtenClass, read, readClass, readMembers, hmembers, readLetters_escape,
      ofSearch]
  · simp [written, hstart, read_escape, ofSearch]

end Expression

/-! ## Meaning -/

namespace ClassMember

def holds (c : Char) : ClassMember → Bool
  | char e => c == e
  | wordChar => isAlphanumeric c || c == '_'

/-- What a member stands for where case is ignored: all lower case forms of its letter. -/
def folded : ClassMember → List ClassMember
  | char e => (Search.foldedExtra e).map char
  | wordChar => [wordChar]

/-- Whether a class with this member is compared in lower case where case is ignored. -/
def lowers : ClassMember → Bool
  | char e => isCased e || 0xffff < (lowerChar e).toNat
  | wordChar => false

/-- Whether a character is one of the members of a class. -/
def anyHolds (matchCase : Bool) (members : List ClassMember) (c : Char) : Bool :=
  if matchCase then members.any (holds c)
  else (members.flatMap folded).any (holds (if members.any lowers then lowerChar c else c))

end ClassMember

namespace Expression

def matchesAt (x : Expression) (matchCase : Bool) (before : Option Char) (rest : Text) : Bool :=
  !(before.any fun c => x.notBehind.any fun members => ClassMember.anyHolds matchCase members c) &&
    x.letters.length ≤ rest.length &&
    (x.letters.zip rest).all fun (p, c) => if matchCase then c == p else sameLetter p c

/-- The first place within the bounds at which the expression matches, the text being cut off at the
upper one; the character before a match may stand before the lower one. Bounds outside the text stand
for its ends. -/
def first? (x : Expression) (matchCase : Bool) (text : Text) (start stop : Int) : Option Nat :=
  let first := min start.toNat text.length
  let last := min stop.toNat text.length
  (List.range' first (last + 1 - first)).find? fun pos =>
    x.matchesAt matchCase (Search.charBefore text pos) ((text.take last).drop pos)

end Expression

/-! ## A search finds what its expression matches -/

namespace Search

theorem contains_eq_any (extra : Text) (c : Char) :
    extra.contains c = (extra.map ClassMember.char).any (ClassMember.holds c) := by
  rw [List.contains_eq_any_beq, List.any_map]
  rfl

theorem wordBefore_eq_anyHolds (s : Search) (c : Char) :
    s.wordBefore c = ClassMember.anyHolds s.matchCase (.wordChar :: s.extra.map .char) c := by
  have hlowers : (ClassMember.wordChar :: s.extra.map ClassMember.char).any ClassMember.lowers =
      s.lowersBefore := by
    rw [List.any_cons, List.any_map]
    rfl
  have hfolded : (s.extra.map ClassMember.char).flatMap ClassMember.folded =
      (s.extra.flatMap foldedExtra).map ClassMember.char := by
    simp [List.map_flatMap, List.flatMap_map, ClassMember.folded]
  unfold wordBefore ClassMember.anyHolds
  rw [hlowers]
  split
  · simp only [isWordChar, contains_eq_any, List.any_cons, ClassMember.holds]
  · simp only [isWordChar, contains_eq_any, List.flatMap_cons, hfolded, ClassMember.folded,
      List.singleton_append, List.any_cons, ClassMember.holds]

theorem beginsWith_eq (same : Char → Char → Bool) (pattern rest : Text) :
    beginsWith same pattern rest =
      (decide (pattern.length ≤ rest.length) && (pattern.zip rest).all fun x => same x.1 x.2) := by
  fun_induction beginsWith same pattern rest with
  | case1 => simp
  | case2 => simp
  | case3 p pattern c rest ih => simp [ih, Bool.and_left_comm]

theorem matchesAt_eq (s : Search) (before : Option Char) (rest : Text) :
    s.matchesAt before rest = (Expression.ofSearch s).matchesAt s.matchCase before rest := by
  have hbefore : s.wordBefore =
      ClassMember.anyHolds s.matchCase (.wordChar :: s.extra.map .char) :=
    funext s.wordBefore_eq_anyHolds
  unfold matchesAt Expression.matchesAt Expression.ofSearch
  rw [beginsWith_eq, hbefore, Bool.and_comm, Bool.and_assoc]
  cases s.wordStartOnly <;> simp [accepts]

/-- Cutting a text off leaves the matches that end before. -/
theorem beginsWith_take (same : Char → Char → Bool) (pattern rest : Text) (n : Nat) :
    beginsWith same pattern (rest.take n) =
      (beginsWith same pattern rest && decide (pattern.length ≤ n)) := by
  induction pattern generalizing rest n with
  | nil => simp [beginsWith]
  | cons p pattern ih =>
    cases rest with
    | nil => simp [beginsWith]
    | cons c rest =>
      cases n with
      | zero => simp [beginsWith]
      | succ n => simp [beginsWith, ih, Bool.and_assoc]

/-- The first match is the first of the positions tried that fits. -/
theorem firstFrom_eq (s : Search) (hne : s.pattern ≠ []) (text : Text) (tries pos : Nat) :
    s.firstFrom tries pos (charBefore text pos) (text.drop pos) =
      (List.range' pos tries).find? (s.fitsAt text) := by
  induction tries generalizing pos with
  | zero => rfl
  | succ tries ih =>
    cases hdrop : text.drop pos with
    | nil =>
      have hlen : text.length ≤ pos := List.drop_eq_nil_iff.mp hdrop
      symm
      rw [firstFrom, List.find?_range'_eq_none]
      intro i hi _
      simp [s.fitsAt_eq_false_of_length_le hne text i (by omega)]
    | cons c rest =>
      have hrest : text.drop (pos + 1) = rest := by
        rw [← List.drop_drop, hdrop, List.drop_one, List.tail_cons]
      have hlater := ih (pos + 1)
      rw [charBefore_succ text pos c rest hdrop, hrest] at hlater
      rw [firstFrom, List.range'_succ, List.find?_cons, fitsAt, hdrop, hlater]
      cases s.matchesAt (charBefore text pos) (c :: rest) <;> rfl

theorem first?_ok (s : Search) (hne : s.pattern ≠ []) (text : Text) {start stop : Int}
    (hstart : isCountable text.length (max start 0) = true)
    (hstop : isCountable text.length stop = true) :
    s.first? text start stop =
      .ok (s.firstWithin text (min start.toNat text.length) (min stop.toNat text.length)) := by
  have hempty : s.pattern.isEmpty = false := by simpa using hne
  have htoNat : (max start 0).toNat = start.toNat := by omega
  simp [first?, hempty, bounds, hstart, hstop, htoNat]

theorem firstWithin_eq_first? (s : Search) (hne : s.pattern ≠ []) (text : Text) (start stop : Int) :
    s.firstWithin text (min start.toNat text.length) (min stop.toNat text.length) =
      (Expression.ofSearch s).first? s.matchCase text start stop := by
  have hlen : 0 < s.pattern.length := List.length_pos_iff.mpr hne
  have hcut (pos last : Nat) : (Expression.ofSearch s).matchesAt s.matchCase (charBefore text pos)
      ((text.take last).drop pos) = (s.fitsAt text pos && decide (s.pattern.length ≤ last - pos)) := by
    rw [← matchesAt_eq, List.drop_take, matchesAt, beginsWith_take, fitsAt, matchesAt]
    simp only [Bool.and_assoc, Bool.and_comm]
  unfold Expression.first? firstWithin
  rw [firstFrom_eq s hne, room]
  simp only [hcut]
  generalize min start.toNat text.length = first, min stop.toNat text.length = last
  ext i
  simp only [List.find?_range'_eq_some, List.mem_range'_1, Bool.and_eq_true, decide_eq_true_eq,
    Bool.not_and, Bool.or_eq_true, Bool.not_eq_true', decide_eq_false_iff_not]
  constructor
  · rintro ⟨hfits, ⟨hlow, hhigh⟩, hleast⟩
    exact ⟨⟨hfits, by omega⟩, ⟨hlow, by omega⟩, fun j hj hlt => Or.inl (hleast j hj hlt)⟩
  · rintro ⟨⟨hfits, hroom⟩, ⟨hlow, hhigh⟩, hleast⟩
    -- an earlier position has room as well
    exact ⟨hfits, ⟨hlow, by omega⟩, fun j hj hlt => (hleast j hj hlt).resolve_right (by omega)⟩

end Search
end WordCycle
