import WordCycle.Proofs.Json.Value
import Mathlib.Data.List.Induction
import Mathlib.Data.List.TakeWhile

/-! What reading promises of any text: a value that is read is readable where it stands, and each
error but that of malformed text can be seen in the text, as a long run of digits or as many opening
brackets. -/

namespace WordCycle.Json
set_option autoImplicit false

def isOpening (c : Char) : Bool := c == '[' || c == '\x7b'

/-- What a text inside `depth` containers holds if reading it ends in an error. -/
inductive Explains (depth : Nat) (t : Text) : ReadError → Prop
  | malformed : Explains depth t .malformed
  | integerTooLong {run : Text} (hrun : run <:+: t) (hdigits : ∀ c ∈ run, c.isDigit = true)
    (hlong : maxDigits < run.length) : Explains depth t (.integerTooLong run.length)
  | nestedTooDeeply (container : Container) (h : maxDepth < depth + t.countP isOpening) :
    Explains depth t (.nestedTooDeeply container)

/-- The outcome of reading at the beginning of a text: something with a property and the rest of the
text, or an error that the text explains. -/
inductive Reads {α : Type} (depth : Nat) (t : Text) (P : α → Prop) :
    Except ReadError (α × Text) → Prop
  | ok {a : α} {rest : Text} (h : P a) (hrest : rest <:+ t) : Reads depth t P (.ok (a, rest))
  | error {e : ReadError} (h : Explains depth t e) : Reads depth t P (.error e)

variable {α β : Type} {depth : Nat} {t t' : Text} {P : α → Prop} {Q : β → Prop}

theorem Explains.of_suffix {e : ReadError} (h : Explains depth t e) (hsuffix : t <:+ t') :
    Explains depth t' e := by
  cases h with
  | malformed => exact .malformed
  | integerTooLong hrun hdigits hlong =>
    exact .integerTooLong (hrun.trans hsuffix.isInfix) hdigits hlong
  | nestedTooDeeply container h =>
    have hcount := hsuffix.sublist.countP_le (p := isOpening)
    exact .nestedTooDeeply container (by omega)

/-- A bracket that opens a container leaves room for one less. -/
theorem Explains.of_opening {c : Char} {e : ReadError} (h : Explains (depth + 1) t e)
    (hc : isOpening c = true) : Explains depth (c :: t) e := by
  cases h with
  | malformed => exact .malformed
  | integerTooLong hrun hdigits hlong =>
    exact .integerTooLong (hrun.trans (List.suffix_cons c t).isInfix) hdigits hlong
  | nestedTooDeeply container h =>
    have hcount : (c :: t).countP isOpening = t.countP isOpening + 1 := List.countP_cons_of_pos hc
    exact .nestedTooDeeply container (by omega)

namespace Reads

theorem malformed : Reads depth t P (.error .malformed) := .error .malformed

theorem of_suffix {r : Except ReadError (α × Text)} (h : Reads depth t P r) (hsuffix : t <:+ t') :
    Reads depth t' P r := by
  cases h with
  | ok h hrest => exact .ok h (hrest.trans hsuffix)
  | error h => exact .error (h.of_suffix hsuffix)

theorem of_opening {c : Char} {r : Except ReadError (α × Text)} (h : Reads (depth + 1) t P r)
    (hc : isOpening c = true) : Reads depth (c :: t) P r := by
  cases h with
  | ok h hrest => exact .ok h (hrest.trans (List.suffix_cons c t))
  | error h => exact .error (h.of_opening hc)

theorem bind {r : Except ReadError (α × Text)} {next : α × Text → Except ReadError (β × Text)}
    (h : Reads depth t P r)
    (hnext : ∀ a rest, P a → rest <:+ t → Reads depth rest Q (next (a, rest))) :
    Reads depth t Q (r >>= next) := by
  cases h with
  | ok h hrest => exact (hnext _ _ h hrest).of_suffix hrest
  | error h => exact .error h

theorem map {r : Except ReadError (α × Text)} {f : α → β} (h : Reads depth t P r)
    (hf : ∀ a, P a → Q (f a)) : Reads depth t Q (r.map fun (a, rest) => (f a, rest)) := by
  cases h with
  | ok h hrest => exact .ok (hf _ h) hrest
  | error h => exact .error h

end Reads

/-! ## Strings -/

theorem skipSpace_suffix (t : Text) : skipSpace t <:+ t := List.dropWhile_suffix _

theorem suffix_of_skipSpace {c : Char} {rest : Text} (h : skipSpace t = c :: rest) : rest <:+ t :=
  (List.suffix_cons c rest).trans (h ▸ skipSpace_suffix t)

theorem exists_of_letter_cons {l : Letter} {r : Option (List Letter × Text)} {s : List Letter}
    {rest : Text} (h : (do let (s, rest) ← r; return (l :: s, rest)) = some (s, rest)) :
    ∃ s', r = some (s', rest) := by
  cases r with
  | none => cases h
  | some a =>
    obtain ⟨s', rest'⟩ := a
    obtain ⟨-, rfl⟩ := Prod.mk.inj (Option.some.inj h)
    exact ⟨s', rfl⟩

theorem readLetters_suffix {s : List Letter} {rest : Text} (h : readLetters t = some (s, rest)) :
    rest <:+ t := by
  fun_induction readLetters t generalizing s with
  | case1 | case5 => cases h
  | case2 =>
    obtain ⟨-, rfl⟩ := Prod.mk.inj (Option.some.inj h)
    exact List.suffix_cons _ _
  | case3 a b c d rest' ih =>
    obtain ⟨unit, -, h⟩ := Option.bind_eq_some_iff.mp h
    obtain ⟨s', h⟩ := exists_of_letter_cons h
    exact (ih h).trans (List.suffix_append ['\\', 'u', a, b, c, d] rest')
  | case4 e rest' _ ih =>
    obtain ⟨c, -, h⟩ := Option.bind_eq_some_iff.mp h
    obtain ⟨s', h⟩ := exists_of_letter_cons h
    exact (ih h).trans (List.suffix_append ['\\', e] rest')
  | case6 c rest' _ _ _ _ ih =>
    obtain ⟨s', h⟩ := exists_of_letter_cons h
    exact (ih h).trans (List.suffix_cons c rest')

theorem readString_reads (depth : Nat) (t : Text) :
    Reads depth t (fun _ => True) (readString t) := by
  rw [readString]
  split
  · next h => exact .ok trivial (readLetters_suffix h)
  · exact .malformed

/-! ## Numbers -/

theorem toNat_of_isDigit {c : Char} (h : c.isDigit = true) : 48 ≤ c.toNat ∧ c.toNat ≤ 57 := by
  rw [Char.isDigit, Bool.and_eq_true, decide_eq_true_eq, decide_eq_true_eq] at h
  exact ⟨UInt32.le_iff_toNat_le.mp h.1, UInt32.le_iff_toNat_le.mp h.2⟩

theorem digitsValue_lt {digits : Text} (h : ∀ c ∈ digits, c.isDigit = true) :
    digitsValue digits < 10 ^ digits.length := by
  induction digits using List.reverseRecOn with
  | nil => exact Nat.one_pos
  | append_singleton digits c ih =>
    have hinit := ih fun d hd => h d (List.mem_append_left _ hd)
    have hlast := toNat_of_isDigit (h c (by simp))
    have hsplit : digitsValue (digits ++ [c]) = digitsValue digits * 10 + (c.toNat - 48) :=
      List.foldl_append
    rw [hsplit, List.length_append, List.length_singleton, Nat.pow_succ]
    omega

theorem readWhole_parts {whole rest : Text} (h : readWhole t = some (whole, rest)) :
    whole ++ rest = t ∧ ∀ c ∈ whole, c.isDigit = true := by
  rw [readWhole.eq_def] at h
  split at h
  · obtain ⟨rfl, rfl⟩ := Prod.mk.inj (Option.some.inj h)
    exact ⟨rfl, List.forall_mem_singleton.mpr rfl⟩
  · dsimp only at h
    split at h
    · cases h
    · obtain ⟨rfl, rfl⟩ := Prod.mk.inj (Option.some.inj h)
      exact ⟨List.takeWhile_append_dropWhile, fun c hc => List.mem_takeWhile_imp hc⟩

theorem readFraction_suffix (t : Text) : (readFraction t).2 <:+ t := by
  rw [readFraction.eq_def]
  split
  · dsimp only
    split
    · exact List.suffix_rfl
    · exact (List.dropWhile_suffix _).trans (List.suffix_cons _ _)
  · exact List.suffix_rfl

theorem readSign_suffix (t : Text) : (readSign t).2 <:+ t := by
  rw [readSign.eq_def]
  split
  · exact List.suffix_cons _ _
  · exact List.suffix_cons _ _
  · exact List.suffix_rfl

theorem readExponent_suffix (t : Text) : (readExponent t).2 <:+ t := by
  rw [readExponent.eq_def]
  split
  · exact List.suffix_rfl
  · next mark rest =>
    split
    · dsimp only
      split
      · exact List.suffix_rfl
      · have hdigits := List.dropWhile_suffix (l := (readSign rest).2) Char.isDigit
        exact hdigits.trans ((readSign_suffix rest).trans (List.suffix_cons mark rest))
    · exact List.suffix_rfl

theorem readNumber_reads (depth room : Nat) (negative : Bool) (t : Text) :
    Reads depth t (Value.Readable room) (readNumber negative t) := by
  rw [readNumber]
  split
  · exact .malformed
  · next whole rest hwhole =>
    obtain ⟨rfl, hdigits⟩ := readWhole_parts hwhole
    have hrest : (readExponent (readFraction rest).2).2 <:+ whole ++ rest :=
      (readExponent_suffix _).trans ((readFraction_suffix rest).trans (List.suffix_append _ _))
    dsimp only
    split
    · split
      · next hlong =>
        exact .error (.integerTooLong (List.prefix_append whole rest).isInfix hdigits hlong)
      · next hshort =>
        have hvalue := digitsValue_lt hdigits
        have hpow := Nat.pow_le_pow_right (by decide : 0 < 10) (Nat.not_lt.mp hshort)
        refine .ok (.int room ?_) hrest
        cases negative <;> simp <;> omega
    · exact .ok (.float room _) hrest

theorem readScalar_reads (depth room : Nat) (t : Text) :
    Reads depth t (Value.Readable room) (readScalar t) := by
  unfold readScalar
  split
  · next name value hfind =>
    have hmem := List.mem_of_find?_eq_some hfind
    have hreadable : value.Readable room := by
      simp only [names, List.mem_cons, List.not_mem_nil, Prod.mk.injEq, or_false] at hmem
      rcases hmem with ⟨-, rfl⟩ | ⟨-, rfl⟩ | ⟨-, rfl⟩ | ⟨-, rfl⟩ | ⟨-, rfl⟩ | ⟨-, rfl⟩
      · exact .null room
      · exact .bool room true
      · exact .bool room false
      all_goals exact .float room _
    exact .ok hreadable (List.drop_suffix _ t)
  · split
    · next rest _ => exact (readNumber_reads depth room true rest).of_suffix (List.suffix_cons _ rest)
    · exact readNumber_reads depth room false t

/-! ## Values -/

mutual

theorem readValue_reads (depth : Nat) :
    (fuel : Nat) → (t : Text) →
      Reads depth t (Value.Readable (maxDepth - depth)) (readValue depth fuel t)
  | 0, t => by
    rw [readValue]
    exact .malformed
  | fuel + 1, t => by
    rw [readValue.eq_def]
    dsimp only
    split
    · next rest =>
      have hstring := readString_reads depth rest
      exact (hstring.map fun s _ => .str _ s).of_suffix (List.suffix_cons _ rest)
    · next rest =>
      split
      · next hdeep =>
        refine .error (.nestedTooDeeply .array ?_)
        rw [List.countP_cons_of_pos rfl]
        omega
      · next hdeep =>
        have hroom : maxDepth - depth = maxDepth - (depth + 1) + 1 := by omega
        rw [hroom]
        split
        · next rest' hskip =>
          exact .ok (.arr nofun) ((suffix_of_skipSpace hskip).trans (List.suffix_cons _ rest))
        · next rest' hskip =>
          have hitems := readItems_reads (depth + 1) fuel (skipSpace rest)
          have hopened := (hitems.of_suffix (skipSpace_suffix rest)).of_opening (c := '[') rfl
          exact hopened.map fun items h => .arr h
    · next rest =>
      split
      · next hdeep =>
        refine .error (.nestedTooDeeply .object ?_)
        rw [List.countP_cons_of_pos rfl]
        omega
      · next hdeep =>
        have hroom : maxDepth - depth = maxDepth - (depth + 1) + 1 := by omega
        rw [hroom]
        split
        · next rest' hskip =>
          exact .ok (.obj List.nodup_nil nofun)
            ((suffix_of_skipSpace hskip).trans (List.suffix_cons _ rest))
        · next rest' hskip =>
          have hfields := readFields_reads (depth + 1) fuel (skipSpace rest)
          have hopened := (hfields.of_suffix (skipSpace_suffix rest)).of_opening (c := '\x7b') rfl
          refine hopened.map (f := fun fields => Value.obj (Fields.ofWritten fields)) fun fields h => ?_
          exact .obj (Fields.nodup_keys_ofWritten fields) fun f hf =>
            h f (Fields.mem_of_mem_ofWritten hf)
    · exact readScalar_reads depth _ t

theorem readItems_reads (depth : Nat) :
    (fuel : Nat) → (t : Text) →
      Reads depth t (fun items => ∀ v ∈ items, Value.Readable (maxDepth - depth) v)
        (readItems depth fuel t)
  | 0, t => by
    rw [readItems]
    exact .malformed
  | fuel + 1, t => by
    rw [readItems]
    refine (readValue_reads depth fuel t).bind fun v rest hv _ => ?_
    dsimp only
    split
    · next rest' hskip =>
      have hitems := readItems_reads depth fuel (skipSpace rest')
      have hsuffix := (skipSpace_suffix rest').trans (suffix_of_skipSpace hskip)
      refine (hitems.of_suffix hsuffix).bind fun items rest'' h _ => ?_
      exact .ok (List.forall_mem_cons.mpr ⟨hv, h⟩) List.suffix_rfl
    · next rest' hskip =>
      exact .ok (List.forall_mem_singleton.mpr hv) (suffix_of_skipSpace hskip)
    · exact .malformed

theorem readFields_reads (depth : Nat) :
    (fuel : Nat) → (t : Text) →
      Reads depth t (fun fields => ∀ f ∈ fields, Value.Readable (maxDepth - depth) f.2)
        (readFields depth fuel t)
  | 0, t => by
    rw [readFields]
    exact .malformed
  | fuel + 1, t => by
    rw [readFields.eq_def]
    dsimp only
    split
    · next rest =>
      refine Reads.of_suffix ?_ (List.suffix_cons _ rest)
      refine (readString_reads depth rest).bind fun key rest _ _ => ?_
      dsimp only
      split
      · next rest' hskip =>
        have hvalue := readValue_reads depth fuel (skipSpace rest')
        have hsuffix := (skipSpace_suffix rest').trans (suffix_of_skipSpace hskip)
        refine (hvalue.of_suffix hsuffix).bind fun v rest hv _ => ?_
        dsimp only
        split
        · next rest' hskip =>
          have hfields := readFields_reads depth fuel (skipSpace rest')
          have hsuffix := (skipSpace_suffix rest').trans (suffix_of_skipSpace hskip)
          refine (hfields.of_suffix hsuffix).bind fun fields rest'' h _ => ?_
          exact .ok (List.forall_mem_cons.mpr ⟨hv, h⟩) List.suffix_rfl
        · next rest' hskip =>
          exact .ok (List.forall_mem_singleton.mpr hv) (suffix_of_skipSpace hskip)
        · exact .malformed
      · exact .malformed
    · exact .malformed

end

/-- A whole text gives a readable value, or an error that it explains. -/
theorem read_explained (t : Text) :
    (∃ v, read t = .ok v ∧ v.Readable maxDepth) ∨ ∃ e, read t = .error e ∧ Explains 0 t e := by
  have hvalue := readValue_reads 0 (2 * t.length + 2) (skipSpace t)
  rw [read]
  cases hread : readValue 0 (2 * t.length + 2) (skipSpace t) with
  | error e =>
    rw [hread] at hvalue
    cases hvalue with
    | error h => exact .inr ⟨e, rfl, h.of_suffix (skipSpace_suffix t)⟩
  | ok a =>
    obtain ⟨v, rest⟩ := a
    rw [hread] at hvalue
    cases hvalue with
    | ok h hrest =>
      by_cases hend : (skipSpace rest).isEmpty = true
      · exact .inl ⟨v, if_pos hend, h⟩
      · exact .inr ⟨.malformed, if_neg hend, .malformed⟩

end WordCycle.Json
