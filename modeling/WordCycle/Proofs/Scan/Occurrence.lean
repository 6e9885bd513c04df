import WordCycle.Proofs.Word.Extent

/-! A search that is begun again behind each word it meets leaves out no match: the positions passed
over stand behind word characters. So what it meets are the words at all matching positions, in
their order. -/

namespace WordCycle
set_option autoImplicit false

namespace Search

/-- Whether a match begins at a position. -/
def fitsAt (s : Search) (text : Text) (pos : Nat) : Bool :=
  s.matchesAt (charBefore text pos) (text.drop pos)

/-- The word characters from a position on, as what is met there. -/
def occurrenceAt (s : Search) (text : Text) (pos : Nat) : Occurrence :=
  ⟨pos, (text.drop pos).takeWhile (isWordChar s.extra)⟩

/-- A search that keeps to the word characters of its text: it accepts no other ones for those of
its pattern, and takes exactly them for word characters before a match. -/
structure RespectsWords (s : Search) : Prop where
  accepted : ∀ p ∈ s.pattern, ∀ c, s.accepts p c = true → isWordChar s.extra c = true
  before : ∀ c, s.wordBefore c = isWordChar s.extra c

/-! ## One match -/

theorem mem_take_of_beginsWith (same : Char → Char → Bool) (pattern rest : Text)
    (h : beginsWith same pattern rest = true) :
    ∀ c ∈ rest.take pattern.length, ∃ p ∈ pattern, same p c = true := by
  fun_induction beginsWith same pattern rest with
  | case1 => simp
  | case2 => cases h
  | case3 p pattern d rest ih =>
    simp only [Bool.and_eq_true] at h
    intro c hc
    rw [List.length_cons, List.take_succ_cons, List.mem_cons] at hc
    rcases hc with rfl | hc
    · exact ⟨p, List.mem_cons_self, h.1⟩
    · obtain ⟨q, hq, hqc⟩ := ih h.2 c hc
      exact ⟨q, List.mem_cons_of_mem p hq, hqc⟩

theorem wordHere_of_word (s : Search) (rest : Text)
    (h : ∀ c ∈ rest.take s.pattern.length, isWordChar s.extra c = true) :
    s.wordHere rest = rest.takeWhile (isWordChar s.extra) :=
  calc s.wordHere rest
      = (rest.take s.pattern.length ++ rest.drop s.pattern.length).takeWhile
          (isWordChar s.extra) := by
        rw [wordHere, List.takeWhile_append_of_pos h]
    _ = rest.takeWhile (isWordChar s.extra) := by rw [List.take_append_drop]

theorem wordHere_eq_takeWhile (s : Search) (hs : s.RespectsWords) (rest : Text)
    (h : beginsWith s.accepts s.pattern rest = true) :
    s.wordHere rest = rest.takeWhile (isWordChar s.extra) := by
  refine s.wordHere_of_word rest ?_
  intro c hc
  obtain ⟨p, hp, hpc⟩ := mem_take_of_beginsWith s.accepts s.pattern rest h c hc
  exact hs.accepted p hp c hpc

theorem fitsAt_eq_false_of_word_before (s : Search) (hs : s.RespectsWords)
    (hstart : s.wordStartOnly = true) (text : Text) (pos : Nat)
    (h : (charBefore text pos).any (isWordChar s.extra) = true) : s.fitsAt text pos = false := by
  have hbefore : s.wordBefore = isWordChar s.extra := funext hs.before
  simp [fitsAt, matchesAt, hstart, hbefore, h]

theorem fitsAt_eq_false_of_length_le (s : Search) (hne : s.pattern ≠ []) (text : Text) (pos : Nat)
    (h : text.length ≤ pos) : s.fitsAt text pos = false := by
  rw [fitsAt, List.drop_eq_nil_of_le h, matchesAt]
  cases hp : s.pattern with
  | nil => exact absurd hp hne
  | cons => rfl

/-! ## All matches -/

theorem charBefore_succ (text : Text) (pos : Nat) (c : Char) (rest : Text)
    (h : text.drop pos = c :: rest) : charBefore text (pos + 1) = some c := by
  have hget : (text.drop pos)[0]? = some c := by rw [h]; rfl
  rwa [List.getElem?_drop, Nat.add_zero] at hget

/-- Whatever the search keeps to, all that it meets begins with a match among the positions tried. -/
theorem fitsAt_of_mem_occurrencesFrom (s : Search) (text : Text) (tries pos resume : Nat)
    {o : Occurrence}
    (ho : o ∈ s.occurrencesFrom tries pos resume (charBefore text pos) (text.drop pos)) :
    pos ≤ o.start ∧ o.start < pos + tries ∧ s.fitsAt text o.start = true ∧
      o.word = s.wordHere (text.drop o.start) := by
  induction tries generalizing pos resume with
  | zero => cases ho
  | succ tries ih =>
    cases hdrop : text.drop pos with
    | nil =>
      rw [hdrop] at ho
      cases ho
    | cons c rest =>
      have hrest : text.drop (pos + 1) = rest := by
        rw [← List.drop_drop, hdrop, List.drop_one, List.tail_cons]
      rw [hdrop, occurrencesFrom, ← charBefore_succ text pos c rest hdrop, ← hrest] at ho
      have hlater (resume : Nat) (ho : o ∈ s.occurrencesFrom tries (pos + 1) resume
          (charBefore text (pos + 1)) (text.drop (pos + 1))) :
          pos ≤ o.start ∧ o.start < pos + (tries + 1) ∧ s.fitsAt text o.start = true ∧
            o.word = s.wordHere (text.drop o.start) := by
        obtain ⟨hle, hlt, hfits, hword⟩ := ih (pos + 1) resume ho
        exact ⟨by omega, by omega, hfits, hword⟩
      split at ho
      · next hmatch =>
        rcases List.mem_cons.mp ho with rfl | ho
        · rw [Bool.and_eq_true] at hmatch
          rw [hrest, ← hdrop] at hmatch ⊢
          exact ⟨Nat.le_refl pos, by simp only; omega, hmatch.2, rfl⟩
        · exact hlater _ ho
      · exact hlater _ ho

theorem charBefore_in_run (p : Char → Bool) (text : Text) (pos q : Nat) (hpos : pos < q)
    (hq : q ≤ pos + ((text.drop pos).takeWhile p).length) :
    (charBefore text q).any p = true := by
  obtain ⟨k, rfl⟩ : ∃ k, q = pos + k + 1 := ⟨q - pos - 1, by omega⟩
  have hk : k < ((text.drop pos).takeWhile p).length := by omega
  have hget : text[pos + k]? = some ((text.drop pos).takeWhile p)[k] := by
    rw [← List.getElem?_drop]
    exact (List.prefix_iff_getElem?.mp (List.takeWhile_prefix p)) k hk
  have hword : p ((text.drop pos).takeWhile p)[k] = true :=
    List.mem_takeWhile_imp (List.getElem_mem hk)
  rw [charBefore, hget, Option.any_some, hword]

/-- The induction is on the positions still to try. Its invariant: a position that is passed over
because it lies before `resume` stands behind a word character, so nothing matches there anyway. -/
theorem occurrencesFrom_eq (s : Search) (hs : s.RespectsWords) (hstart : s.wordStartOnly = true)
    (hne : s.pattern ≠ []) (text : Text) (tries pos resume : Nat)
    (hres : ∀ q, pos ≤ q → q < resume → (charBefore text q).any (isWordChar s.extra) = true) :
    s.occurrencesFrom tries pos resume (charBefore text pos) (text.drop pos) =
      ((List.range' pos tries).filter (s.fitsAt text)).map (s.occurrenceAt text) := by
  induction tries generalizing pos resume with
  | zero => simp [occurrencesFrom]
  | succ tries ih =>
    cases hdrop : text.drop pos with
    | nil =>
      have hlen : text.length ≤ pos := List.drop_eq_nil_iff.mp hdrop
      have hnone : (List.range' pos (tries + 1)).filter (s.fitsAt text) = [] := by
        rw [List.filter_eq_nil_iff]
        intro q hq
        have hle : pos ≤ q := (List.mem_range'_1.mp hq).1
        simp [fitsAt_eq_false_of_length_le s hne text q (by omega)]
      rw [hnone]
      rfl
    | cons c rest =>
      have hrest : text.drop (pos + 1) = rest := by
        rw [← List.drop_drop, hdrop, List.drop_one, List.tail_cons]
      have hbefore : charBefore text (pos + 1) = some c := charBefore_succ text pos c rest hdrop
      have hfits : s.fitsAt text pos = s.matchesAt (charBefore text pos) (c :: rest) := by
        rw [fitsAt, hdrop]
      rw [occurrencesFrom, ← hfits, List.range'_succ, List.filter_cons]
      by_cases hpos : s.fitsAt text pos = true
      · have hresume : resume ≤ pos := by
          by_contra hlt
          have hword := hres pos (Nat.le_refl pos) (by omega)
          rw [fitsAt_eq_false_of_word_before s hs hstart text pos hword] at hpos
          cases hpos
        have hmatch : beginsWith s.accepts s.pattern (c :: rest) = true := by
          rw [hfits, matchesAt, Bool.and_eq_true] at hpos
          exact hpos.1
        have hword : s.wordHere (c :: rest) = (text.drop pos).takeWhile (isWordChar s.extra) := by
          rw [wordHere_eq_takeWhile s hs _ hmatch, hdrop]
        have htail := ih (pos + 1) (pos + ((text.drop pos).takeWhile (isWordChar s.extra)).length)
          (fun q hle hlt => charBefore_in_run _ text pos q (by omega) (by omega))
        rw [hbefore, hrest] at htail
        simp only [hpos, hresume, decide_true, Bool.and_self, ↓reduceIte, List.map_cons, hword,
          htail]
        rfl
      · have htail := ih (pos + 1) resume (fun q hle hlt => hres q (by omega) hlt)
        rw [hbefore, hrest] at htail
        simp only [Bool.not_eq_true] at hpos
        simp only [hpos, Bool.and_false, Bool.false_eq_true, ↓reduceIte, htail]

/-- The words met within bounds are those at the matching positions that leave room for the pattern
before the upper bound. -/
theorem mem_occurrencesWithin (s : Search) (hs : s.RespectsWords) (hstart : s.wordStartOnly = true)
    (hne : s.pattern ≠ []) (text : Text) (start stop : Nat) (o : Occurrence) :
    o ∈ s.occurrencesWithin text start stop ↔
      start ≤ o.start ∧ o.start + s.pattern.length ≤ stop ∧ s.fitsAt text o.start = true ∧
        o.word = (text.drop o.start).takeWhile (isWordChar s.extra) := by
  have hall := occurrencesFrom_eq s hs hstart hne text (s.room start stop) start 0
    (fun q _ hq => absurd hq (Nat.not_lt_zero q))
  rw [occurrencesWithin, hall, List.mem_map]
  constructor
  · rintro ⟨pos, hpos, rfl⟩
    obtain ⟨hrange, hfits⟩ := List.mem_filter.mp hpos
    obtain ⟨hle, hlt⟩ := List.mem_range'_1.mp hrange
    rw [room] at hlt
    exact ⟨hle, by simp only [occurrenceAt]; omega, hfits, rfl⟩
  · rintro ⟨hle, hroom, hfits, hword⟩
    refine ⟨o.start, List.mem_filter.mpr ⟨List.mem_range'_1.mpr ⟨hle, ?_⟩, hfits⟩, ?_⟩
    · rw [room]
      omega
    · cases o
      simp only at hword
      rw [occurrenceAt, hword]

end Search
end WordCycle
