import WordCycle.Proofs.Scan.Pass

/-! Scans that differ in their limit only. Under a higher limit one pass collects the same texts and then
others. Over both passes the order is another one, as the exact pass takes words that the fuzzy pass
would have taken, but no text is lost. -/

namespace WordCycle
set_option autoImplicit false

namespace Scan
variable {s : Scan} {settings : Settings} {kind : MatchKind} {small large count count' : Nat}
  {store store' first second : CandidateStore} {offers offers' : List Candidate}

/-! ## One pass -/

theorem PassOffers.exists_offersUntil
    (h : s.PassOffers { settings with candidatesLimit := small } kind store offers count first)
    (h' : s.PassOffers { settings with candidatesLimit := large } kind store' offers' count' second) :
    ∃ words taken taken', CandidateStore.OffersUntil small words store taken count first ∧
      CandidateStore.OffersUntil large words store' taken' count' second := by
  obtain ⟨found, taken, hfound, -, hoffers⟩ := h.made
  obtain ⟨found', taken', hfound', -, hoffers'⟩ := h'.made
  have hsame : found' = found := Except.ok.inj (hfound'.symm.trans hfound)
  rw [hsame] at hoffers'
  exact ⟨_, taken, taken', hoffers, hoffers'⟩

theorem PassOffers.labels_prefix (hle : small ≤ large) (hopen : store.finalized = false)
    (h : s.PassOffers { settings with candidatesLimit := small } kind store offers count first)
    (h' : s.PassOffers { settings with candidatesLimit := large } kind store offers' count' second) :
    first.labels <+: second.labels := by
  obtain ⟨words, taken, taken', hoffers, hoffers'⟩ := h.exists_offersUntil h'
  exact hoffers.labels_prefix hle hopen hoffers'

theorem PassOffers.count_eq_zero_iff (hle : small ≤ large) (hsmall : 1 ≤ small)
    (hopen : store.finalized = false)
    (h : s.PassOffers { settings with candidatesLimit := small } kind store offers count first)
    (h' : s.PassOffers { settings with candidatesLimit := large } kind store offers' count' second) :
    count = 0 ↔ count' = 0 := by
  obtain ⟨words, taken, taken', hoffers, hoffers'⟩ := h.exists_offersUntil h'
  have hgained := hoffers.gained
  have hgained' := hoffers'.gained
  constructor
  · rintro rfl
    rw [hoffers.eq_of_room hle hopen hoffers' hsmall] at hgained'
    omega
  · rintro rfl
    have hlength := (hoffers.labels_prefix hle hopen hoffers').length_le
    rw [CandidateStore.labels, CandidateStore.labels, List.length_map, List.length_map] at hlength
    omega

theorem PassOffers.mem_texts_of_limit_le (hle : small ≤ large) (hopen : store.finalized = false)
    (hopen' : store'.finalized = false) (hadmits : ∀ t, store'.Admits t ↔ store.Admits t)
    (hsub : ∀ t ∈ store.regular.map Candidate.text, t ∈ store'.regular.map Candidate.text)
    (h : s.PassOffers { settings with candidatesLimit := small } kind store offers count first)
    (h' : s.PassOffers { settings with candidatesLimit := large } kind store' offers' count' second) :
    ∀ t ∈ first.regular.map Candidate.text, t ∈ second.regular.map Candidate.text := by
  obtain ⟨words, taken, taken', hoffers, hoffers'⟩ := h.exists_offersUntil h'
  exact hoffers.mem_texts_of_limit_le hle hopen hopen' hadmits hsub hoffers'

/-! ## The whole scan -/

/-- The fuzzy pass runs under both limits or under none. If it does, under the higher one it begins with a
store that holds more. -/
theorem ScanOffers.mem_texts_of_limit_le {word : Text} {middle middle' last last' : CandidateStore}
    {fuzzyOffers fuzzyOffers' : List Candidate} {more more' : Nat} (hle : small ≤ large)
    (hsmall : 1 ≤ small)
    (h : s.ScanOffers { settings with candidatesLimit := small } word offers count middle fuzzyOffers
      more last)
    (h' : s.ScanOffers { settings with candidatesLimit := large } word offers' count' middle'
      fuzzyOffers' more' last') :
    ∀ t ∈ last.regular.map Candidate.text, t ∈ last'.regular.map Candidate.text := by
  have hcount := h.exact.count_eq_zero_iff hle hsmall rfl h'.exact
  have hexact := h.exact.mem_texts_of_limit_le hle rfl rfl (fun _ => Iff.rfl) (fun _ => id) h'.exact
  have hfuzzy := h.fuzzy
  have hfuzzy' := h'.fuzzy
  simp only [← hcount] at hfuzzy'
  split at hfuzzy
  · next hgoes =>
    rw [if_pos hgoes] at hfuzzy'
    obtain ⟨hmiddle, -⟩ := h.eq_insertAll
    obtain ⟨hmiddle', -⟩ := h'.eq_insertAll
    refine hfuzzy.mem_texts_of_limit_le hle ?_ ?_ ?_ hexact hfuzzy'
    · rw [hmiddle, CandidateStore.insertAll_finalized]
    · rw [hmiddle', CandidateStore.insertAll_finalized]
    · intro t
      rw [hmiddle, hmiddle', CandidateStore.insertAll_admits, CandidateStore.insertAll_admits]
      rfl
  · next hgoes =>
    rw [if_neg hgoes] at hfuzzy'
    rw [hfuzzy.2, hfuzzy'.2]
    exact hexact

/-- A higher limit loses no text that a scan inside a text offers, the way back included; and what one
pass collects under the lower limit is, in its order, the beginning of what it collects under the higher
one, in a store that is empty or not. The limit of valid settings is at least one. -/
theorem candidates_of_limit_le (extra text : Text) (pos : Nat) (settings : Settings)
    (hpos : pos ≤ text.length) (small large : Nat) (hsmall : 1 ≤ small) (hle : small ≤ large) :
    (∃ store store',
      (atCaret extra text pos).candidates { settings with candidatesLimit := small }
        (wordAt extra text pos) = .ok store ∧
      (atCaret extra text pos).candidates { settings with candidatesLimit := large }
        (wordAt extra text pos) = .ok store' ∧
      ∀ t ∈ store.texts, t ∈ store'.texts) ∧
    ∀ (kind : MatchKind) (store : CandidateStore), store.finalized = false →
      ∃ count first count' second,
        (atCaret extra text pos).pass { settings with candidatesLimit := small } kind store =
          .ok (count, first) ∧
        (atCaret extra text pos).pass { settings with candidatesLimit := large } kind store =
          .ok (count', second) ∧
        first.regular.map Candidate.text <+: second.regular.map Candidate.text := by
  generalize hs : atCaret extra text pos = s
  have hspos : s.pos = pos := by rw [← hs, atCaret]
  have hsle : pos ≤ s.text.length := by rw [← hs]; exact hpos
  have hlarge : 1 ≤ large := by omega
  refine ⟨?_, ?_⟩
  · generalize wordAt extra text pos = word
    obtain ⟨_, _, _, _, _, last, hscan⟩ :=
      s.exists_scanOffers { settings with candidatesLimit := small } word pos hspos hsle hsmall
    obtain ⟨_, _, _, _, _, last', hscan'⟩ :=
      s.exists_scanOffers { settings with candidatesLimit := large } word pos hspos hsle hlarge
    obtain ⟨-, hlast⟩ := hscan.eq_insertAll
    obtain ⟨-, hlast'⟩ := hscan'.eq_insertAll
    have hsub := hscan.mem_texts_of_limit_le hle hsmall hscan'
    refine ⟨_, _, hscan.ranked, hscan'.ranked, ?_⟩
    intro t ht
    rw [CandidateStore.mem_texts_closed _ _ _ (by rw [hlast, CandidateStore.insertAll_finalized])] at ht
    rw [CandidateStore.mem_texts_closed _ _ _ (by rw [hlast', CandidateStore.insertAll_finalized])]
    rcases ht with ht | ⟨hsome, rfl⟩
    · exact Or.inl (hsub t ht)
    · refine Or.inr ⟨?_, ?_⟩
      · obtain ⟨c, hc⟩ := List.exists_mem_of_ne_nil _ hsome
        intro hnone
        have hlost := hsub _ (List.mem_map_of_mem hc)
        rw [hnone] at hlost
        cases hlost
      · rw [hlast, hlast', CandidateStore.insertAll_trailing, CandidateStore.insertAll_trailing]
        rfl
  · intro kind store hopen
    obtain ⟨offers, count, first, hfirst⟩ := s.exists_passOffers
      { settings with candidatesLimit := small } kind store pos hspos hsle hopen hsmall
    obtain ⟨offers', count', second, hsecond⟩ := s.exists_passOffers
      { settings with candidatesLimit := large } kind store pos hspos hsle hopen hlarge
    refine ⟨count, first, count', second, hfirst.result, hsecond.result, ?_⟩
    rw [← CandidateStore.map_fst_labels, ← CandidateStore.map_fst_labels]
    exact (hfirst.labels_prefix hle hopen hsecond).map Prod.fst

/-- With room for one, the second word that begins as typed is left to the fuzzy pass, which then finds no
other; with room for two, it does. -/
theorem candidates_of_limit_le_fo :
    ∃ store store',
      (atCaret [] "foa fob Fox fo".toList 14).candidates { candidatesLimit := 1 }
        (wordAt [] "foa fob Fox fo".toList 14) = .ok store ∧
      (atCaret [] "foa fob Fox fo".toList 14).candidates { candidatesLimit := 2 }
        (wordAt [] "foa fob Fox fo".toList 14) = .ok store' ∧
      store.regular = [⟨"foa".toList, 14, .exact⟩, ⟨"fob".toList, 10, .fuzzy⟩] ∧
      store'.texts = ["fob".toList, "foa".toList, "Fox".toList, "fo".toList] ∧
      (∀ t ∈ store.texts, t ∈ store'.texts) ∧
      ∃ count first count' second,
        (atCaret [] "foa fob Fox fo".toList 14).pass { candidatesLimit := 1 } .fuzzy {} =
          .ok (count, first) ∧
        (atCaret [] "foa fob Fox fo".toList 14).pass { candidatesLimit := 2 } .fuzzy {} =
          .ok (count', second) ∧
        first.regular.map Candidate.text <+: second.regular.map Candidate.text := by
  obtain ⟨⟨store, store', hok, hok', hsub⟩, hpass⟩ :=
    candidates_of_limit_le [] "foa fob Fox fo".toList 14 {} (by decide) 1 2 (by decide) (by decide)
  have hscan : (atCaret [] "foa fob Fox fo".toList 14).candidates { candidatesLimit := 1 }
      (wordAt [] "foa fob Fox fo".toList 14) = .ok
        { word := "fo".toList, trailing := "fo".toList, finalized := true,
          regular := [⟨"foa".toList, 14, .exact⟩, ⟨"fob".toList, 10, .fuzzy⟩] } := by
    decide +kernel
  have hscan' : (atCaret [] "foa fob Fox fo".toList 14).candidates { candidatesLimit := 2 }
      (wordAt [] "foa fob Fox fo".toList 14) = .ok
        { word := "fo".toList, trailing := "fo".toList, finalized := true,
          regular := [⟨"fob".toList, 10, .exact⟩, ⟨"foa".toList, 14, .exact⟩,
            ⟨"Fox".toList, 6, .fuzzy⟩] } := by
    decide +kernel
  obtain rfl := Except.ok.inj (hok.symm.trans hscan)
  obtain rfl := Except.ok.inj (hok'.symm.trans hscan')
  exact ⟨_, _, hscan, hscan', rfl, rfl, hsub, hpass .fuzzy {} rfl⟩

end Scan
end WordCycle
