import WordCycle.Proofs.Scan.Completeness
import WordCycle.Proofs.Text.WordCase

/-! Candidates as words of the text. What the exact pass meets are whole words. The fuzzy pass looks for
the first letter in either case, and a letter may be a word character while its other case is none;
what it meets is a whole word if it begins with a word character. -/

namespace WordCycle
set_option autoImplicit false

namespace Search

/-! ## What stands at a match -/

theorem wordHere_prefix (s : Search) (rest : Text) : s.wordHere rest <+: rest := by
  have hrun := List.takeWhile_prefix (isWordChar s.extra) (l := rest.drop s.pattern.length)
  have hall := (List.prefix_append_right_inj (rest.take s.pattern.length)).mpr hrun
  rwa [List.take_append_drop] at hall

/-- What is met at a match is a whole word if the part compared with the pattern holds word characters
only: before it stands none, whether case counts or not. -/
theorem isWholeWord_of_fitsAt (s : Search) (hstart : s.wordStartOnly = true) (hne : s.pattern ≠ [])
    (text : Text) (start : Nat) (hfits : s.fitsAt text start = true)
    (hword : ∀ c ∈ (text.drop start).take s.pattern.length, isWordChar s.extra c = true) :
    IsWholeWord s.extra text start (s.wordHere (text.drop start)) := by
  rw [fitsAt, matchesAt, hstart, Bool.true_and, Bool.and_eq_true, Bool.not_eq_true'] at hfits
  obtain ⟨hbegins, hbefore⟩ := hfits
  rw [isWholeWord_iff]
  refine ⟨?_, ?_, (s.wordHere_of_word _ hword).symm⟩
  · obtain ⟨p, pattern, hpattern⟩ := List.exists_cons_of_ne_nil hne
    rw [hpattern] at hbegins
    cases hdrop : text.drop start with
    | nil =>
      rw [hdrop] at hbegins
      cases hbegins
    | cons c rest => simp [wordHere, hpattern]
  · rw [Option.any_eq_false] at hbefore ⊢
    intro c hc
    rw [Bool.eq_false_iff]
    intro hword
    have hcounts := s.wordBefore_of_isWordChar c hword
    rw [hbefore c hc] at hcounts
    cases hcounts

end Search

namespace Scan

/-! ## Candidates and what the passes met -/

theorem candidates_met (s : Scan) (settings : Settings) (word : Text) (pos : Nat)
    (hpos : s.pos = pos) (hle : pos ≤ s.text.length) :
    ∃ store, s.candidates settings word = .ok store ∧
      ∀ c ∈ store.regular, ∃ found, s.occurrences settings c.kind = .ok found ∧
        s.fits c.kind c.text = true ∧ ∃ o ∈ found, o.word = c.text := by
  obtain ⟨found, found', count, store, count', store', hfound, hfound', hexact, hfuzzy, hok⟩ :=
    s.candidates_passes settings word pos hpos hle
  refine ⟨_, hok, ?_⟩
  intro c hc
  have hmem : c ∈ store'.regular := (Candidate.ranked_perm _ _ store'.regular).mem_iff.mp hc
  have hlabel : (c.text, c.kind) ∈ store'.labels := (store'.mem_labels _ _).mpr ⟨c, hmem, rfl, rfl⟩
  obtain ⟨new, hlabels, -, hnew⟩ := hexact.news
  have hfirst : (c.text, c.kind) ∈ store.labels → ∃ found, s.occurrences settings c.kind = .ok found ∧
      s.fits c.kind c.text = true ∧ ∃ o ∈ found, o.word = c.text := by
    intro hlabel
    rw [hlabels] at hlabel
    obtain ⟨t, ht, heq⟩ := List.mem_map.mp hlabel
    obtain ⟨rfl, hkind⟩ := Prod.mk.inj heq
    exact ⟨found, hkind ▸ hfound, hkind ▸ hnew _ ht⟩
  split at hfuzzy
  · obtain ⟨new', hlabels', -, hnew'⟩ := hfuzzy.news
    rw [hlabels', List.mem_append] at hlabel
    rcases hlabel with hlabel | hlabel
    · exact hfirst hlabel
    · obtain ⟨t, ht, heq⟩ := List.mem_map.mp hlabel
      obtain ⟨rfl, hkind⟩ := Prod.mk.inj heq
      exact ⟨found', hkind ▸ hfound', hkind ▸ hnew' _ ht⟩
  · exact hfirst (hfuzzy ▸ hlabel)

theorem isWholeWord_of_met (s : Scan) (settings : Settings) (kind : MatchKind) (pos : Nat)
    (hpos : s.pos = pos) (hle : pos ≤ s.text.length) (hne : s.typed ≠ [])
    (htyped : ∀ c ∈ s.typed, isWordChar s.extra c = true) {found : List Search.Occurrence}
    (hfound : s.occurrences settings kind = .ok found) {o : Search.Occurrence} (ho : o ∈ found) :
    (s.window settings).1 ≤ o.start ∧ o.start < (s.window settings).2 ∧
      o.word <+: s.text.drop o.start ∧
      (kind = .exact ∨ (∃ d ∈ o.word.head?, isWordChar s.extra d = true) →
        IsWholeWord s.extra s.text o.start o.word) := by
  obtain ⟨start, stop, hwin, hfound'⟩ := s.occurrences_within settings kind pos hpos hle hne
  obtain rfl := Except.ok.inj (hfound.symm.trans hfound')
  obtain ⟨hlow, hhigh, hfits, hword⟩ := (s.search kind).fitsAt_of_mem_occurrencesFrom s.text _ _ _ ho
  have hpattern := s.search_pattern_ne_nil kind hne
  have hlen := List.length_pos_iff.mpr hpattern
  rw [Search.room] at hhigh
  rw [hwin, hword]
  refine ⟨Int.ofNat_le.mpr hlow, Int.ofNat_lt.mpr (by omega), Search.wordHere_prefix _ _, ?_⟩
  intro hbegins
  refine (s.search kind).isWholeWord_of_fitsAt (by cases kind <;> rfl) hpattern s.text o.start hfits ?_
  intro c hc
  cases kind with
  | exact =>
    rw [Search.fitsAt, Search.matchesAt, Bool.and_eq_true] at hfits
    obtain ⟨p, hp, hpc⟩ := Search.mem_take_of_beginsWith _ _ _ hfits.1 c hc
    exact (s.exact_respectsWords htyped).accepted p hp c hpc
  | fuzzy =>
    obtain ⟨d, hd, hdword⟩ := hbegins.resolve_left (by simp)
    obtain ⟨p, behind, hp⟩ := List.exists_cons_of_ne_nil hne
    have hone : (s.search .fuzzy).pattern.length = 1 := by simp [search, hp]
    rw [hone] at hc
    -- The one character compared is the first of what is met.
    cases hdrop : s.text.drop o.start with
    | nil =>
      rw [hdrop] at hc
      cases hc
    | cons c' rest =>
      rw [Search.wordHere, hone, hdrop] at hd
      rw [hdrop] at hc
      obtain rfl : c' = d := Option.some.inj hd
      obtain rfl := List.mem_singleton.mp hc
      exact hdword

/-! ## The candidates of a scan -/

/-- Every candidate for the word before a position stands in the text, from inside the window on. The
exact ones are whole words, between a start and an end that the extents find from each other, and so
are the fuzzy ones that begin with a word character. -/
theorem candidates_whole_words (extra text : Text) (pos : Nat) (settings : Settings)
    (hpos : pos ≤ text.length) (htyped : typedAt extra text pos ≠ []) :
    ∃ store, (atCaret extra text pos).candidates settings (wordAt extra text pos) = .ok store ∧
      ∀ c ∈ store.regular, ∃ start stop : Nat,
        ((atCaret extra text pos).window settings).1 ≤ start ∧
        start < ((atCaret extra text pos).window settings).2 ∧
        start < stop ∧ c.text = text.slice start stop ∧
        (c.kind = .exact ∨ (∃ d ∈ c.text.head?, isWordChar extra d = true) →
          wordStartAt extra text stop = start ∧ wordEndAt extra text start = stop) := by
  have hwords : ∀ c ∈ typedAt extra text pos, isWordChar extra c = true := by
    obtain ⟨before, typed, rest, behind, hcut⟩ := exists_wordCut extra text pos hpos
    rw [hcut.typedAt_eq]
    exact hcut.typed_word
  obtain ⟨store, hok, hmet⟩ := (atCaret extra text pos).candidates_met settings
    (wordAt extra text pos) pos rfl hpos
  obtain ⟨store', hok', hwell, -⟩ := (atCaret extra text pos).candidates_ok settings
    (wordAt extra text pos) pos rfl hpos
  obtain rfl := Except.ok.inj (hok.symm.trans hok')
  refine ⟨store, hok, ?_⟩
  intro c hc
  obtain ⟨found, hfound, -, o, ho, hword⟩ := hmet c hc
  obtain ⟨hlow, hhigh, hprefix, hwhole⟩ := (atCaret extra text pos).isWholeWord_of_met settings c.kind
    pos rfl hpos htyped hwords hfound ho
  have hne := (hwell.admitted c.text (List.mem_map_of_mem hc)).1
  have hlen := List.length_pos_iff.mpr hne
  rw [hword] at hprefix hwhole
  refine ⟨o.start, o.start + c.text.length, hlow, hhigh, by omega, ?_, ?_⟩
  · rw [Text.slice_natCast, Nat.add_sub_cancel_left]
    exact List.prefix_iff_eq_take.mp hprefix
  · exact fun hbegins => (hwhole hbegins).extents

theorem candidates_whole_words_fo :
    ∃ store, (atCaret [] "foo FOX fo".toList 10).candidates {} (wordAt [] "foo FOX fo".toList 10) =
        .ok store ∧
      store.regular.map Candidate.text = ["foo".toList, "FOX".toList] ∧
      ∀ c ∈ store.regular, ∃ start stop : Nat, start < stop ∧
        c.text = Text.slice "foo FOX fo".toList start stop ∧
        wordStartAt [] "foo FOX fo".toList stop = start ∧
        wordEndAt [] "foo FOX fo".toList start = stop := by
  obtain ⟨store, hstore, hwhole⟩ := candidates_whole_words [] "foo FOX fo".toList 10 {}
    (by decide) (by decide)
  have hscan : (atCaret [] "foo FOX fo".toList 10).candidates {}
      (wordAt [] "foo FOX fo".toList 10) = .ok
        { word := "fo".toList, trailing := "fo".toList, finalized := true,
          regular := [⟨"foo".toList, 10, .exact⟩, ⟨"FOX".toList, 6, .fuzzy⟩] } := by
    decide +kernel
  obtain rfl := Except.ok.inj (hstore.symm.trans hscan)
  refine ⟨_, hstore, rfl, ?_⟩
  intro c hc
  have hbegins : c.text.head?.any (isWordChar []) = true := by
    revert c
    decide +kernel
  obtain ⟨start, stop, -, -, hlt, htext, hextents⟩ := hwhole c hc
  exact ⟨start, stop, hlt, htext, hextents (Or.inr ((Option.any_eq_true _ _).mp hbegins))⟩

/-- Without regard to case the small iota below a letter is an iota, but it is no word character: with
an iota typed, the scan offers it together with the word behind it, which is no word of the text. -/
theorem candidates_not_whole_words :
    ∃ store, (atCaret [] "\u0345α ι".toList 4).candidates {} (wordAt [] "\u0345α ι".toList 4) =
        .ok store ∧
      ∃ c ∈ store.regular, ¬∃ start stop : Nat, start < stop ∧
        c.text = Text.slice "\u0345α ι".toList start stop ∧
        wordStartAt [] "\u0345α ι".toList stop = start ∧
        wordEndAt [] "\u0345α ι".toList start = stop := by
  have hscan : (atCaret [] "\u0345α ι".toList 4).candidates {} (wordAt [] "\u0345α ι".toList 4) = .ok
      { word := "ι".toList, trailing := "ι".toList, finalized := true,
        regular := [⟨"\u0345α".toList, 4, .fuzzy⟩] } := by
    decide +kernel
  refine ⟨_, hscan, _, List.mem_singleton_self _, ?_⟩
  rintro ⟨start, stop, -, htext, -, rfl⟩
  have htext : "\u0345α".toList = _ := htext
  rw [slice_wordEndAt] at htext
  have hmem : Char.ofNat 0x345 ∈ "\u0345α".toList := by decide
  rw [htext] at hmem
  have hword : isWordChar [] (Char.ofNat 0x345) = true := List.mem_takeWhile_imp hmem
  exact absurd hword (by decide +kernel)

end Scan
end WordCycle
