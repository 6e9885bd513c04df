import WordCycle.Proofs.Json.Printed
import WordCycle.Proofs.Json.Reading
import WordCycle.Proofs.Text.CodePoint

/-! A scalar that was written is read back, and the rest of the text is left. What follows it is a
comma, a new line or nothing, so an integer ends where its digits end. -/

namespace WordCycle.Json
set_option autoImplicit false

/-- What stands behind a value that was written. -/
def Closes (tail : Text) : Prop := ∀ c, tail.head? = some c → c = ',' ∨ c = '\n'

theorem closes_nil : Closes [] := nofun

theorem closes_cons {c : Char} (tail : Text) (h : c = ',' ∨ c = '\n') : Closes (c :: tail) := by
  intro d hd
  obtain rfl := Option.some.inj hd
  exact h

/-! ## Integers -/

theorem digitsValue_naturalText (n : Nat) : digitsValue (Number.naturalText n) = n := by
  have hfold : digitsValue (Number.naturalText n) = Nat.ofDigitChars 10 (Number.naturalText n) 0 := by
    have hstep : (fun (n : Nat) (c : Char) => n * 10 + (c.toNat - 48)) =
        fun n c => 10 * n + (c.toNat - '0'.toNat) := by
      funext n c
      rw [Nat.mul_comm]
      rfl
    rw [digitsValue, Nat.ofDigitChars, hstep]
  rw [hfold]
  exact Nat.ofDigitChars_toDigits (by decide) (by decide)

theorem isDigit_of_mem_naturalText {n : Nat} {c : Char} (h : c ∈ Number.naturalText n) :
    c.isDigit = true :=
  Nat.isDigit_of_mem_toDigits (by decide) (by decide) h

theorem ne_of_isDigit {c d : Char} (hc : c.isDigit = true) (hd : d.isDigit = false) : c ≠ d := by
  rintro rfl
  rw [hc] at hd
  cases hd

theorem digitChar_ne_zero {n : Nat} (hpos : 0 < n) (hlt : n < 10) : n.digitChar ≠ '0' := by
  have hall : ∀ n < 10, 0 < n → n.digitChar ≠ '0' := by decide
  exact hall n hlt hpos

/-- Only zero is written with a zero in front. -/
theorem naturalText_head {n : Nat} (h : 0 < n) :
    ∃ c digits, Number.naturalText n = c :: digits ∧ c ≠ '0' := by
  induction n using Nat.strongRecOn with
  | ind n ih =>
    rw [Number.naturalText, Nat.toDigits_eq_if (by decide)]
    split
    · next hlt => exact ⟨n.digitChar, [], rfl, digitChar_ne_zero h hlt⟩
    · next hge =>
      obtain ⟨c, digits, hdigits, hc⟩ := ih (n / 10) (by omega) (by omega)
      rw [Number.naturalText] at hdigits
      rw [hdigits]
      exact ⟨c, digits ++ [(n % 10).digitChar], rfl, hc⟩

/-- The text does not go on with a digit. -/
def NoDigitNext (t : Text) : Prop := ∀ c, t.head? = some c → c.isDigit = false

theorem noDigitNext_cons {c : Char} (rest : Text) (h : c.isDigit = false) : NoDigitNext (c :: rest) := by
  intro d hd
  obtain rfl := Option.some.inj hd
  exact h

theorem Closes.noDigitNext {tail : Text} (h : Closes tail) : NoDigitNext tail := by
  intro c hc
  rcases h c hc with rfl | rfl <;> decide

/-- Digits are read up to where there are no more. -/
theorem takeWhile_digits_append {digits tail : Text} (hdigits : ∀ c ∈ digits, c.isDigit = true)
    (htail : NoDigitNext tail) :
    (digits ++ tail).takeWhile Char.isDigit = digits ∧
      (digits ++ tail).dropWhile Char.isDigit = tail := by
  rw [List.takeWhile_append_of_pos hdigits, List.dropWhile_append_of_pos hdigits]
  cases tail with
  | nil => exact ⟨List.append_nil digits, rfl⟩
  | cons c tail =>
    have hc : c.isDigit = false := htail c rfl
    simp [hc]

/-- Digits that a number may begin with: a zero in front stands alone. -/
inductive IsWhole : Text → Prop
  | zero : IsWhole ['0']
  | digits {c : Char} {rest : Text} (hc : c ≠ '0') (h : ∀ d ∈ c :: rest, d.isDigit = true) :
    IsWhole (c :: rest)

theorem isWhole_naturalText (n : Nat) : IsWhole (Number.naturalText n) := by
  rcases Nat.eq_zero_or_pos n with rfl | hpos
  · exact .zero
  · obtain ⟨c, digits, htext, hc⟩ := naturalText_head hpos
    rw [htext]
    exact .digits hc fun d hd => isDigit_of_mem_naturalText (htext ▸ hd)

theorem IsWhole.exists_digit {whole : Text} (h : IsWhole whole) :
    ∃ c rest, whole = c :: rest ∧ c.isDigit = true := by
  cases h with
  | zero => exact ⟨'0', [], rfl, rfl⟩
  | digits _ h => exact ⟨_, _, rfl, h _ List.mem_cons_self⟩

theorem IsWhole.readWhole_append {whole tail : Text} (h : IsWhole whole) (htail : NoDigitNext tail) :
    readWhole (whole ++ tail) = some (whole, tail) := by
  cases h with
  | zero => rfl
  | digits hc hdigits =>
    have hparts := takeWhile_digits_append hdigits htail
    rw [List.cons_append] at hparts ⊢
    unfold readWhole
    split
    · next heq => exact absurd (List.cons.inj heq).1 hc
    · dsimp only
      rw [hparts.1, hparts.2]
      rfl

/-- How numbers begin, the names of some among them. -/
def OpensNumber (c : Char) : Prop := c = '-' ∨ c = 'N' ∨ c = 'I' ∨ c.isDigit = true

/-- Nothing else begins as a number does: no blank, no string and no bracket. -/
theorem OpensNumber.apart {c : Char} (h : OpensNumber c) :
    isSpace c = false ∧ c ≠ ']' ∧ c ≠ '"' ∧ c ≠ '[' ∧ c ≠ '\x7b' := by
  rcases h with rfl | rfl | rfl | h
  · decide
  · decide
  · decide
  · have hblank : c ≠ ' ' ∧ c ≠ '\t' ∧ c ≠ '\n' ∧ c ≠ '\r' :=
      ⟨ne_of_isDigit h rfl, ne_of_isDigit h rfl, ne_of_isDigit h rfl, ne_of_isDigit h rfl⟩
    exact ⟨by simp [isSpace, hblank], ne_of_isDigit h rfl, ne_of_isDigit h rfl, ne_of_isDigit h rfl,
      ne_of_isDigit h rfl⟩

theorem integerText_head (n : Int) :
    ∃ c text, Number.integerText n = c :: text ∧ OpensNumber c := by
  obtain ⟨c, digits, htext, hc⟩ := (isWhole_naturalText n.natAbs).exists_digit
  rw [Number.integerText, htext]
  split
  · exact ⟨'-', c :: digits, rfl, .inl rfl⟩
  · exact ⟨c, digits, rfl, .inr (.inr (.inr hc))⟩

theorem readFraction_closes {tail : Text} (h : Closes tail) : readFraction tail = (none, tail) := by
  unfold readFraction
  split
  · rcases h '.' rfl with h | h <;> cases h
  · rfl

theorem readExponent_closes {tail : Text} (h : Closes tail) : readExponent tail = (none, tail) := by
  cases tail with
  | nil => rfl
  | cons c tail => rcases h c rfl with rfl | rfl <;> rfl

theorem readNumber_naturalText (negative : Bool) {n : Nat} (hn : n < 10 ^ maxDigits) {tail : Text}
    (htail : Closes tail) :
    readNumber negative (Number.naturalText n ++ tail) =
      .ok (.int (if negative then -n else n), tail) := by
  have hlength : (Number.naturalText n).length ≤ maxDigits :=
    (Nat.length_toDigits_le_iff (by decide) (by decide)).mpr hn
  rw [readNumber, (isWhole_naturalText n).readWhole_append htail.noDigitNext]
  dsimp only
  rw [readFraction_closes htail, readExponent_closes htail]
  simp only [Option.isNone_none, Bool.and_self, if_true]
  rw [if_neg (Nat.not_lt.mpr hlength), digitsValue_naturalText]

theorem names_find?_none {c : Char} (hc : c.isDigit = true) (rest : Text) :
    names.find? (fun (name, _) => name.isPrefixOf (c :: rest)) = none ∧
      names.find? (fun (name, _) => name.isPrefixOf ('-' :: c :: rest)) = none := by
  have hn : 'n' ≠ c := (ne_of_isDigit hc rfl).symm
  have ht : 't' ≠ c := (ne_of_isDigit hc rfl).symm
  have hf : 'f' ≠ c := (ne_of_isDigit hc rfl).symm
  have hN : 'N' ≠ c := (ne_of_isDigit hc rfl).symm
  have hI : 'I' ≠ c := (ne_of_isDigit hc rfl).symm
  have hminus : '-' ≠ c := (ne_of_isDigit hc rfl).symm
  constructor <;> simp [names, List.isPrefixOf, hn, ht, hf, hN, hI, hminus]

theorem readScalar_number {c : Char} (hc : c.isDigit = true) (rest : Text) :
    readScalar (c :: rest) = readNumber false (c :: rest) ∧
      readScalar ('-' :: c :: rest) = readNumber true (c :: rest) := by
  obtain ⟨hplain, hsigned⟩ := names_find?_none hc rest
  constructor
  · rw [readScalar.eq_def, hplain]
    dsimp only
    split
    · next heq =>
      rw [(List.cons.inj heq).1] at hc
      cases hc
    · rfl
  · rw [readScalar.eq_def, hsigned]
    rfl

theorem readScalar_integerText {n : Int} (hn : n.natAbs < 10 ^ maxDigits) {tail : Text}
    (htail : Closes tail) :
    readScalar (Number.integerText n ++ tail) = .ok (.int n, tail) := by
  obtain ⟨c, digits, htext, hc⟩ := (isWhole_naturalText n.natAbs).exists_digit
  obtain ⟨hplain, hsigned⟩ := readScalar_number hc (digits ++ tail)
  rw [Number.integerText, htext]
  split
  · next hneg =>
    have hread := readNumber_naturalText true hn htail
    have hvalue : -(n.natAbs : Int) = n := by omega
    rw [if_pos rfl, hvalue, htext] at hread
    exact hsigned.trans hread
  · next hpos =>
    have hread := readNumber_naturalText false hn htail
    have hvalue : (n.natAbs : Int) = n := by omega
    rw [if_neg (by decide), hvalue, htext] at hread
    exact hplain.trans hread

/-! ## Strings -/

theorem joinHalves_letters (t : Text) : joinHalves (letters t) = letters t := by
  induction t with
  | nil => rfl
  | cons c t ih =>
    rw [letters, List.map_cons, joinHalves]
    · exact congrArg (_ :: ·) ih
    · intro h l rest heq
      cases heq

theorem hexValue?_control {n : Nat} (h : n < 0x20) :
    hexValue? ['0', '0', Nat.digitChar (n / 16), Nat.digitChar (n % 16)] = some n := by
  have hall : ∀ n < 0x20,
      hexValue? ['0', '0', Nat.digitChar (n / 16), Nat.digitChar (n % 16)] = some n := by decide
  exact hall n h

theorem letterOfUnit_toNat (c : Char) : letterOfUnit c.toNat = .char c := by
  have hvalid := CodePoint.valid c
  have hplain : ¬((0xd800 ≤ c.toNat && c.toNat ≤ 0xdfff) = true) := by
    rw [Bool.and_eq_true, decide_eq_true_eq, decide_eq_true_eq]
    omega
  rw [letterOfUnit, if_neg hplain, Char.ofNat_toNat]

theorem readLetters_unescape {c e : Char} {s : List Letter} {rest tail : Text}
    (he : unescape? e = some c) (hu : e ≠ 'u') (h : readLetters rest = some (s, tail)) :
    readLetters ('\\' :: e :: rest) = some (.char c :: s, tail) := by
  rw [readLetters, he, h]
  · rfl
  · exact fun _ _ _ _ _ heq => absurd heq hu

theorem readLetters_escape {c : Char} {s : List Letter} {rest tail : Text}
    (h : readLetters rest = some (s, tail)) :
    readLetters (escape c ++ rest) = some (.char c :: s, tail) := by
  unfold escape
  split
  · next hc => subst hc; exact readLetters_unescape rfl (by decide) h
  split
  · next hc => subst hc; exact readLetters_unescape rfl (by decide) h
  split
  · next hc => subst hc; exact readLetters_unescape rfl (by decide) h
  split
  · next hc => subst hc; exact readLetters_unescape rfl (by decide) h
  split
  · next hc => subst hc; exact readLetters_unescape rfl (by decide) h
  split
  · next hc => subst hc; exact readLetters_unescape rfl (by decide) h
  split
  · next hc => subst hc; exact readLetters_unescape rfl (by decide) h
  split
  · next hcontrol =>
    have htext : controlEscape c.toNat ++ rest =
        '\\' :: 'u' :: '0' :: '0' :: Nat.digitChar (c.toNat / 16) :: Nat.digitChar (c.toNat % 16) ::
          rest := rfl
    rw [htext, readLetters, hexValue?_control hcontrol, h]
    exact congrArg (fun l => some (l :: s, tail)) (letterOfUnit_toNat c)
  · next hquote hslash _ _ _ _ _ hcontrol =>
    have hother : ¬((c.toNat < 0x20 || c = '\\') = true) := by
      simp [hslash]
      omega
    rw [List.cons_append, List.nil_append, readLetters, if_neg hother, h]
    · rfl
    · exact fun heq => hquote heq
    · exact fun _ _ _ _ _ heq => absurd heq hslash
    · exact fun _ _ heq => absurd heq hslash

theorem readLetters_flatMap_escape (t rest : Text) :
    readLetters (t.flatMap escape ++ '"' :: rest) = some (letters t, rest) := by
  induction t with
  | nil => rw [List.flatMap_nil, List.nil_append, readLetters]; rfl
  | cons c t ih =>
    rw [List.flatMap_cons, List.append_assoc]
    exact readLetters_escape ih

theorem chars_quoted (t : Text) :
    chars (quoted (letters t)) = '"' :: (t.flatMap escape ++ ['"']) := by
  have hbody : chars (t.flatMap fun c => letters (escape c)) = t.flatMap escape := by
    induction t with
    | nil => rfl
    | cons c t ih => rw [List.flatMap_cons, chars_append, chars_letters, ih, List.flatMap_cons]
  rw [quoted, letters, List.flatMap_map, List.cons_append, chars_char_cons, chars_append]
  exact congrArg (fun body => '"' :: (body ++ ['"'])) hbody

theorem readString_quoted (t rest : Text) :
    readString ((t.flatMap escape ++ ['"']) ++ rest) = .ok (letters t, rest) := by
  rw [List.append_assoc, List.singleton_append, readString, readLetters_flatMap_escape]
  dsimp only
  rw [joinHalves_letters]

end WordCycle.Json
