import WordCycle.Proofs.Json.Scalars
import WordCycle.Proofs.Number.Shortest

/-! A float that was written is read as a float, and the rest of the text is left. It is written by a name,
or with a fraction or an exponent behind its whole digits, so it is never taken for an integer. Nothing is
said of which float is read. -/

namespace WordCycle.Json
set_option autoImplicit false

/-! ## Fractions and exponents -/

theorem readFraction_digits {digits tail : Text} (hne : digits ≠ [])
    (hdigits : ∀ c ∈ digits, c.isDigit = true) (htail : NoDigitNext tail) :
    readFraction ('.' :: (digits ++ tail)) = (some digits, tail) := by
  obtain ⟨htake, hdrop⟩ := takeWhile_digits_append hdigits htail
  rw [readFraction, htake, hdrop, if_neg (by simpa using hne)]

/-- The digits of an exponent, at least two. -/
def exponentDigits (e : Int) : Text :=
  if e.natAbs < 10 then '0' :: Number.naturalText e.natAbs else Number.naturalText e.natAbs

theorem exponentText_eq (e : Int) :
    Number.exponentText e = (if e < 0 then '-' else '+') :: exponentDigits e := rfl

theorem isDigit_of_mem_exponentDigits {e : Int} {c : Char} (h : c ∈ exponentDigits e) :
    c.isDigit = true := by
  rw [exponentDigits] at h
  split at h
  · rcases List.mem_cons.mp h with rfl | h
    · rfl
    · exact isDigit_of_mem_naturalText h
  · exact isDigit_of_mem_naturalText h

theorem exponentDigits_ne_nil (e : Int) : exponentDigits e ≠ [] := by
  rw [exponentDigits]
  split
  · exact List.cons_ne_nil _ _
  · exact Nat.toDigits_ne_nil

theorem digitsValue_exponentDigits (e : Int) : digitsValue (exponentDigits e) = e.natAbs := by
  rw [exponentDigits]
  split
  · exact digitsValue_naturalText e.natAbs
  · exact digitsValue_naturalText e.natAbs

theorem readExponent_exponentText (e : Int) {tail : Text} (htail : Closes tail) :
    readExponent ('e' :: (Number.exponentText e ++ tail)) = (some e, tail) := by
  obtain ⟨htake, hdrop⟩ := takeWhile_digits_append
    (fun c (hc : c ∈ exponentDigits e) => isDigit_of_mem_exponentDigits hc) htail.noDigitNext
  have hsome : (exponentDigits e).isEmpty = false := by simpa using exponentDigits_ne_nil e
  have hsign : readSign (Number.exponentText e ++ tail) =
      (decide (e < 0), exponentDigits e ++ tail) := by
    rw [exponentText_eq]
    split
    · next h => rw [decide_eq_true h]; rfl
    · next h => rw [decide_eq_false h]; rfl
  rw [readExponent, if_pos (by decide), hsign]
  simp only [htake, hdrop, hsome, Bool.false_eq_true, if_false, digitsValue_exponentDigits,
    decide_eq_true_eq]
  have hvalue : (if e < 0 then -(e.natAbs : Int) else e.natAbs) = e := by
    split <;> omega
  rw [hvalue]

/-! ## Numbers -/

/-- What makes a number a float: a fraction, an exponent, or both. -/
inductive FloatMark : Text → Prop
  | fraction {digits : Text} (hne : digits ≠ []) (h : ∀ c ∈ digits, c.isDigit = true) :
    FloatMark ('.' :: digits)
  | exponent (e : Int) : FloatMark ('e' :: Number.exponentText e)
  | both {digits : Text} (hne : digits ≠ []) (h : ∀ c ∈ digits, c.isDigit = true) (e : Int) :
    FloatMark ('.' :: (digits ++ 'e' :: Number.exponentText e))

theorem FloatMark.noDigitNext {mark : Text} (h : FloatMark mark) (tail : Text) :
    NoDigitNext (mark ++ tail) := by
  cases h with
  | fraction => exact noDigitNext_cons _ rfl
  | exponent => exact noDigitNext_cons _ rfl
  | both => exact noDigitNext_cons _ rfl

/-- A fraction or an exponent is read, and then nothing of the mark is left. -/
theorem FloatMark.reads {mark : Text} (h : FloatMark mark) :
    ∃ fraction exponent, (fraction.isNone && exponent.isNone) = false ∧
      ∀ tail, Closes tail → ∃ rest, readFraction (mark ++ tail) = (fraction, rest) ∧
        readExponent rest = (exponent, tail) := by
  cases h with
  | @fraction digits hne h =>
    refine ⟨some digits, none, rfl, fun tail htail => ⟨tail, ?_, readExponent_closes htail⟩⟩
    exact readFraction_digits hne h htail.noDigitNext
  | exponent e =>
    exact ⟨none, some e, rfl, fun tail htail => ⟨_, rfl, readExponent_exponentText e htail⟩⟩
  | @both digits hne h e =>
    refine ⟨some digits, some e, rfl, fun tail htail => ⟨_, ?_, readExponent_exponentText e htail⟩⟩
    rw [List.cons_append, List.append_assoc]
    exact readFraction_digits hne h (noDigitNext_cons _ rfl)

theorem exists_readNumber {whole mark : Text} (hwhole : IsWhole whole) (hmark : FloatMark mark)
    (negative : Bool) :
    ∃ x, ∀ tail, Closes tail →
      readNumber negative (whole ++ mark ++ tail) = .ok (.float x, tail) := by
  obtain ⟨fraction, exponent, hfloat, hreads⟩ := hmark.reads
  apply Exists.intro
  intro tail htail
  obtain ⟨rest, hfraction, hexponent⟩ := hreads tail htail
  rw [List.append_assoc, readNumber, hwhole.readWhole_append (hmark.noDigitNext tail)]
  dsimp only
  rw [hfraction]
  dsimp only
  rw [hexponent]
  dsimp only
  rw [hfloat]
  rfl

/-! ## Decimals -/

theorem significantDigits_head {d : Number.Decimal} (h : 0 < d.digits) :
    ∃ c rest, Number.significantDigits d = c :: rest ∧ c ≠ '0' ∧
      ∀ x ∈ c :: rest, x.isDigit = true := by
  obtain ⟨c, digits, htext, hc⟩ := naturalText_head h
  obtain ⟨zeros, hsplit⟩ : Number.significantDigits d <+: Number.naturalText d.digits := by
    have hsuffix := List.dropWhile_suffix (fun x => decide (x = '0'))
      (l := (Number.naturalText d.digits).reverse)
    rw [← List.reverse_prefix, List.reverse_reverse] at hsuffix
    exact hsuffix
  have hne : Number.significantDigits d ≠ [] := by
    rw [Number.significantDigits, Ne, List.reverse_eq_nil_iff, List.dropWhile_eq_nil_iff, htext]
    intro hall
    exact hc (of_decide_eq_true (hall c (by simp)))
  obtain ⟨c', rest, hdigits⟩ := List.exists_cons_of_ne_nil hne
  rw [hdigits, htext, List.cons_append] at hsplit
  obtain rfl := (List.cons.inj hsplit).1
  refine ⟨c', rest, hdigits, hc, fun x hx => isDigit_of_mem_naturalText (n := d.digits) ?_⟩
  rw [htext, ← hsplit]
  rcases List.mem_cons.mp hx with rfl | hx
  · exact List.mem_cons_self
  · exact List.mem_cons_of_mem _ (List.mem_append_left _ hx)

theorem isDigit_of_mem_zeros {n : Nat} {c : Char} (h : c ∈ List.replicate n '0') :
    c.isDigit = true := by
  rw [List.eq_of_mem_replicate h]
  rfl

theorem decimalText_parts {d : Number.Decimal} (h : 0 < d.digits ∨ d = ⟨0, 0⟩) :
    ∃ whole mark, Number.decimalText d = whole ++ mark ∧ IsWhole whole ∧ FloatMark mark := by
  rcases h with h | rfl
  · obtain ⟨c, rest, hdigits, hc, hall⟩ := significantDigits_head h
    obtain ⟨hfirst, hrest⟩ := List.forall_mem_cons.mp hall
    rw [Number.decimalText, hdigits]
    generalize ((Number.naturalText d.digits).length : Int) - 1 + d.exponent = leading
    dsimp only
    split
    · -- One digit before the point, and the exponent.
      refine ⟨[c], _, List.append_assoc _ _ _, .digits hc (by simpa using hfirst), ?_⟩
      cases rest with
      | nil => exact .exponent leading
      | cons r rest =>
        exact .both (List.cons_ne_nil r rest) hrest leading
    · split
      · -- A zero before the point, and further zeros behind it.
        refine ⟨['0'], '.' :: (List.replicate (-leading - 1).toNat '0' ++ c :: rest), rfl, .zero,
          .fraction (by simp) ?_⟩
        intro x hx
        rcases List.mem_append.mp hx with hx | hx
        · exact isDigit_of_mem_zeros hx
        · exact hall x hx
      · -- The digits are cut at the point, or filled up with zeros to it.
        refine ⟨_, _, rfl, ?_, .fraction ?_ ?_⟩
        · rw [List.take_succ_cons, List.cons_append]
          refine .digits hc ?_
          intro x hx
          rw [List.mem_cons, List.mem_append] at hx
          rcases hx with rfl | hx | hx
          · exact hfirst
          · exact hrest x (List.mem_of_mem_take hx)
          · exact isDigit_of_mem_zeros hx
        · split
          · exact List.cons_ne_nil _ _
          · next hlong => exact fun hnil => hlong (List.drop_eq_nil_iff.mp hnil)
        · intro x hx
          split at hx
          · rw [List.mem_singleton.mp hx]
            rfl
          · exact hall x (List.mem_of_mem_drop hx)
  · exact ⟨['0'], ['.', '0'], by decide, .zero, .fraction (by simp) (by simp)⟩

/-! ## Floats -/

theorem finite_parts {b : Number.Binary} :
    ∃ whole mark, (if b.significand = 0 then "0.0".toList else Number.decimalText b.shortest) =
      whole ++ mark ∧ IsWhole whole ∧ FloatMark mark := by
  split
  · exact ⟨['0'], ['.', '0'], rfl, .zero, .fraction (by simp) (by simp)⟩
  · next h => exact decimalText_parts (Number.Binary.shortest_digits h)

theorem floatText_reads (x : Float) :
    ∃ c text y, Number.floatText x = c :: text ∧ OpensNumber c ∧
      ∀ tail, Closes tail → readScalar (c :: text ++ tail) = .ok (.float y, tail) := by
  rw [Number.floatText]
  split
  · exact ⟨'N', "aN".toList, _, rfl, .inr (.inl rfl), fun _ _ => rfl⟩
  · next negative _ =>
    cases negative with
    | false => exact ⟨'I', "nfinity".toList, _, rfl, .inr (.inr (.inl rfl)), fun _ _ => rfl⟩
    | true => exact ⟨'-', "Infinity".toList, _, rfl, .inl rfl, fun _ _ => rfl⟩
  · next b _ =>
    obtain ⟨whole, mark, htext, hwhole, hmark⟩ := finite_parts (b := b)
    obtain ⟨c, rest, hhead, hc⟩ := hwhole.exists_digit
    obtain ⟨y, hread⟩ := exists_readNumber hwhole hmark b.negative
    rw [htext]
    rw [hhead] at hread ⊢
    cases hsign : b.negative with
    | false =>
      refine ⟨c, rest ++ mark, y, rfl, .inr (.inr (.inr hc)), fun tail htail => ?_⟩
      rw [hsign] at hread
      exact (readScalar_number hc _).1.trans (hread tail htail)
    | true =>
      refine ⟨'-', c :: rest ++ mark, y, rfl, .inl rfl, fun tail htail => ?_⟩
      rw [hsign] at hread
      exact (readScalar_number hc _).2.trans (hread tail htail)

end WordCycle.Json
