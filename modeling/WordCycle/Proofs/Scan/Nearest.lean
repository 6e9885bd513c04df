import WordCycle.Proofs.Scan.Pass

/-! How near the candidates of a scan are. A candidate keeps the least of the distances at which it was
offered, and every offer comes from a whole word in the window. So its distance is that of the nearest of
its words, unless the pass that would have met this one has stopped at the limit before. -/

namespace WordCycle
set_option autoImplicit false

namespace Scan

/-- A whole word that begins in the window. -/
def StandsAt (s : Scan) (settings : Settings) (w : Text) (start : Nat) : Prop :=
  IsWholeWord s.extra s.text start w ∧
    (s.window settings).1 ≤ start ∧ start < (s.window settings).2

def distanceTo (s : Scan) (start : Nat) : Int := (s.pos - start).natAbs

/-- A candidate is as far away as the nearest of its whole words in the window. -/
def Nearest (s : Scan) (settings : Settings) (c : Candidate) : Prop :=
  IsLeast {d | ∃ start, s.StandsAt settings c.text start ∧ d = s.distanceTo start} c.distance

section
variable {s : Scan} {settings : Settings} {pos : Nat}

/-! ## Offers and the words they come from -/

theorem mem_fitting (s : Scan) (kind : MatchKind) (found : List Search.Occurrence) (c : Candidate) :
    c ∈ s.fitting kind found ↔ ∃ o ∈ found, s.fits kind o.word = true ∧ s.candidateAt kind o = c := by
  rw [fitting, List.mem_filter, List.mem_map]
  constructor
  · rintro ⟨⟨o, ho, rfl⟩, hfits⟩
    exact ⟨o, ho, hfits, rfl⟩
  · rintro ⟨o, ho, hfits, rfl⟩
    exact ⟨⟨o, ho, rfl⟩, hfits⟩

theorem PassOffers.exists_standsAt {kind : MatchKind} {store store' : CandidateStore}
    {offers : List Candidate} {count : Nat} (hs : s.ForWord pos)
    (h : s.PassOffers settings kind store offers count store') {o : Candidate} (ho : o ∈ offers)
    (hhead : ∃ d ∈ o.text.head?, isWordChar s.extra d = true) :
    ∃ start, s.StandsAt settings o.text start ∧ o.distance = s.distanceTo start := by
  obtain ⟨found, taken, hfound, rfl, -⟩ := h.made
  obtain ⟨met, hmet, -, rfl⟩ := (s.mem_fitting kind found o).mp (List.mem_of_mem_take ho)
  obtain ⟨hlow, hhigh, -, hwhole⟩ := s.isWholeWord_of_met settings kind pos hs.pos_eq hs.pos_le
    hs.typed_ne_nil hs.typed_word hfound hmet
  exact ⟨met.start, ⟨hwhole (Or.inr hhead), hlow, hhigh⟩, rfl⟩

theorem PassOffers.mem_of_room {kind : MatchKind} {store store' : CandidateStore}
    {offers : List Candidate} {count : Nat} (hs : s.ForWord pos)
    (hwords : (s.search kind).RespectsWords)
    (h : s.PassOffers settings kind store offers count store')
    (hroom : count < settings.candidatesLimit) {w : Text} {start : Nat}
    (hwhole : IsWholeWord s.extra s.text start w) (hseeks : s.Seeks settings kind start w) :
    ⟨w, s.distanceTo start, kind⟩ ∈ offers := by
  obtain ⟨found, hfound, rfl⟩ := h.eq_of_room hroom
  obtain ⟨hfits, hmem⟩ := (hs.met_iff hwords hfound ⟨start, w⟩).mpr ⟨hwhole, hseeks⟩
  exact (s.mem_fitting kind found _).mpr ⟨_, hmem, hfits, rfl⟩

/-! ## Candidates and what is looked for -/

theorem ForWord.exists_seeks {word : Text} {store : CandidateStore} (hs : s.ForWord pos)
    (hok : s.candidates settings word = .ok store) {c : Candidate} (hc : c ∈ store.regular)
    (hwords : (s.search c.kind).RespectsWords) :
    ∃ start, IsWholeWord s.extra s.text start c.text ∧ s.Seeks settings c.kind start c.text := by
  obtain ⟨store', hok', hmet⟩ := s.candidates_met settings word pos hs.pos_eq hs.pos_le
  obtain rfl := Except.ok.inj (hok'.symm.trans hok)
  obtain ⟨found, hfound, hfits, o, ho, hsame⟩ := hmet c hc
  rw [← hsame] at hfits ⊢
  exact ⟨o.start, (hs.met_iff hwords hfound o).mp ⟨hfits, ho⟩⟩

theorem ForWord.begins_of_exact {word : Text} {store : CandidateStore} (hs : s.ForWord pos)
    (hok : s.candidates settings word = .ok store) {c : Candidate} (hc : c ∈ store.regular)
    (hkind : c.kind = .exact) : s.typed <+: c.text := by
  obtain ⟨_, -, hseeks⟩ := hs.exists_seeks hok hc
    (by rw [hkind]; exact s.exact_respectsWords hs.typed_word)
  rw [hkind] at hseeks
  exact hseeks.1

/-- The fuzzy pass looks for each candidate everywhere in the window, be it an exact one or not. -/
theorem ForWord.seeks_fuzzy {word : Text} {store : CandidateStore} (hs : s.ForWord pos)
    (hok : s.candidates settings word = .ok store) {c : Candidate} (hc : c ∈ store.regular)
    (hcase : (s.search .fuzzy).RespectsWords) {start : Nat}
    (hlow : (s.window settings).1 ≤ start) (hhigh : start < (s.window settings).2) :
    s.Seeks settings .fuzzy start c.text := by
  cases hkind : c.kind with
  | exact =>
    have hbegins := hs.begins_of_exact hok hc hkind
    have hmatch := isFuzzyMatch_of_prefix hbegins
    obtain ⟨p, rest, hp⟩ := List.exists_cons_of_ne_nil hs.typed_ne_nil
    obtain ⟨behind, hbehind⟩ := hbegins
    refine ⟨⟨p, by simp [hp], p, ?_, sameLetter_refl p⟩, hmatch, hlow, hhigh⟩
    rw [← hbehind, hp]
    rfl
  | fuzzy =>
    obtain ⟨_, -, hseeks⟩ := hs.exists_seeks hok hc (by rw [hkind]; exact hcase)
    rw [hkind] at hseeks
    exact ⟨hseeks.1, hseeks.2.1, hlow, hhigh⟩

/-! ## The offers of both passes -/

section
variable {word : Text} {offers offers' : List Candidate} {count count' : Nat}
  {middle last : CandidateStore} {c : Candidate}

theorem ScanOffers.isLeast (h : s.ScanOffers settings word offers count middle offers' count' last)
    (hc : c ∈ (last.sort settings.sortOrder settings.skipFuzzyIfExact).finalize.regular) :
    IsLeast (CandidateStore.distances (offers ++ offers') c.text) c.distance := by
  have hmem : c ∈ last.regular := (Candidate.ranked_perm _ _ last.regular).mem_iff.mp hc
  obtain ⟨-, hlast⟩ := h.eq_insertAll
  rw [hlast] at hmem
  exact (CandidateStore.wellFormed_empty word _).isLeast_insertAll (offers ++ offers') c hmem

theorem ScanOffers.exists_standsAt (hs : s.ForWord pos)
    (h : s.ScanOffers settings word offers count middle offers' count' last)
    (hc : c ∈ (last.sort settings.sortOrder settings.skipFuzzyIfExact).finalize.regular)
    (hhead : ∃ d ∈ c.text.head?, isWordChar s.extra d = true) :
    ∃ start, s.StandsAt settings c.text start ∧ c.distance = s.distanceTo start := by
  obtain ⟨o, ho, htext, hdistance⟩ := (h.isLeast hc).1
  rw [← htext] at hhead ⊢
  rw [← hdistance]
  rcases List.mem_append.mp ho with ho | ho
  · exact h.exact.exists_standsAt hs ho hhead
  · have hfuzzy := h.fuzzy
    split at hfuzzy
    · exact hfuzzy.exists_standsAt hs ho hhead
    · rw [hfuzzy.1] at ho
      cases ho

/-- If the exact pass has room left, it has offered its candidates wherever they stand with the typed part
inside the window. -/
theorem ScanOffers.exact_le (hs : s.ForWord pos)
    (h : s.ScanOffers settings word offers count middle offers' count' last)
    (hc : c ∈ (last.sort settings.sortOrder settings.skipFuzzyIfExact).finalize.regular)
    (hkind : c.kind = .exact) (hroom : count < settings.candidatesLimit) {start : Nat}
    (hstands : s.StandsAt settings c.text start)
    (hinside : start + s.typed.length ≤ (s.window settings).2) : c.distance ≤ s.distanceTo start := by
  have hbegins := hs.begins_of_exact h.ranked hc hkind
  have hoffer := h.exact.mem_of_room hs (s.exact_respectsWords hs.typed_word) hroom
    hstands.1 ⟨hbegins, hstands.2.1, hinside⟩
  exact (h.isLeast hc).2 ⟨_, List.mem_append_left _ hoffer, rfl, rfl⟩

theorem ScanOffers.exact_nearest (hs : s.ForWord pos)
    (h : s.ScanOffers settings word offers count middle offers' count' last)
    (hc : c ∈ (last.sort settings.sortOrder settings.skipFuzzyIfExact).finalize.regular)
    (hkind : c.kind = .exact) (hroom : count < settings.candidatesLimit)
    (hend : (s.window settings).2 = s.text.length) : s.Nearest settings c := by
  have hbegins := hs.begins_of_exact h.ranked hc hkind
  refine ⟨h.exists_standsAt hs hc (hs.head hbegins), ?_⟩
  rintro d ⟨start, hstands, rfl⟩
  have hinside := hstands.1.end_le
  have hlength := hbegins.length_le
  exact h.exact_le hs hc hkind hroom hstands (by omega)

theorem ScanOffers.fuzzy_nearest (hs : s.ForWord pos)
    (h : s.ScanOffers settings word offers count middle offers' count' last)
    (hc : c ∈ (last.sort settings.sortOrder settings.skipFuzzyIfExact).finalize.regular)
    (hgoes : (count = 0 || !settings.skipFuzzyIfExact) = true)
    (hroom : count' < settings.candidatesLimit) (hcase : (s.search .fuzzy).RespectsWords) :
    s.Nearest settings c := by
  have hfuzzy := h.fuzzy
  rw [if_pos hgoes] at hfuzzy
  have hwords : (s.search c.kind).RespectsWords := by
    cases c.kind with
    | exact => exact s.exact_respectsWords hs.typed_word
    | fuzzy => exact hcase
  obtain ⟨_, hwhole, -⟩ := hs.exists_seeks h.ranked hc hwords
  refine ⟨h.exists_standsAt hs hc hwhole.head, ?_⟩
  rintro d ⟨start, hstands, rfl⟩
  have hseeks := hs.seeks_fuzzy h.ranked hc hcase hstands.2.1 hstands.2.2
  have hoffer := hfuzzy.mem_of_room hs hcase hroom hstands.1 hseeks
  exact (h.isLeast hc).2 ⟨_, List.mem_append_right _ hoffer, rfl, rfl⟩

end

end

/-! ## The whole scan -/

/-- What the distance of a candidate is, by the offers of both passes and by how many candidates each of
them has brought. It is that of a whole word in the window, and the least one if the fuzzy pass has met all
words, or if the exact one has and no word is cut by the window. -/
structure Measured (s : Scan) (settings : Settings) (offers : List Candidate) (count count' : Nat)
    (c : Candidate) : Prop where
  least_offer : IsLeast (CandidateStore.distances offers c.text) c.distance
  whole_word : c.kind = .exact ∨ (∃ d ∈ c.text.head?, isWordChar s.extra d = true) →
    ∃ start, s.StandsAt settings c.text start ∧ c.distance = s.distanceTo start
  exact_inside : c.kind = .exact → count < settings.candidatesLimit →
    ∀ start, s.StandsAt settings c.text start → start + s.typed.length ≤ (s.window settings).2 →
      c.distance ≤ s.distanceTo start
  exact_nearest : c.kind = .exact → count < settings.candidatesLimit →
    (s.window settings).2 = s.text.length → s.Nearest settings c
  fuzzy_nearest : (count = 0 || !settings.skipFuzzyIfExact) = true →
    count' < settings.candidatesLimit → (s.search .fuzzy).RespectsWords → s.Nearest settings c

/-- Every candidate is as far away as the nearest offer of its text, and what that says of the words in the
window depends on whether the passes have stopped at the limit. -/
theorem candidates_nearest (extra text : Text) (pos : Nat) (settings : Settings)
    (hpos : pos ≤ text.length) (htyped : typedAt extra text pos ≠ [])
    (hlimit : 1 ≤ settings.candidatesLimit) :
    ∃ offers count middle offers' count' last store,
      (atCaret extra text pos).ScanOffers settings (wordAt extra text pos) offers count middle offers'
        count' last ∧
      (atCaret extra text pos).candidates settings (wordAt extra text pos) = .ok store ∧
      ∀ c ∈ store.regular,
        (atCaret extra text pos).Measured settings (offers ++ offers') count count' c := by
  have hs := forWord_atCaret hpos htyped
  obtain ⟨offers, count, middle, offers', count', last, hscan⟩ :=
    (atCaret extra text pos).exists_scanOffers settings (wordAt extra text pos) pos rfl hpos hlimit
  refine ⟨offers, count, middle, offers', count', last, _, hscan, hscan.ranked, fun c hc => ?_⟩
  refine {
    least_offer := hscan.isLeast hc
    whole_word := ?_
    exact_inside := fun hkind hroom start hstands hinside =>
      hscan.exact_le hs hc hkind hroom hstands hinside
    exact_nearest := fun hkind hroom hend => hscan.exact_nearest hs hc hkind hroom hend
    fuzzy_nearest := fun hgoes hroom hcase => hscan.fuzzy_nearest hs hc hgoes hroom hcase }
  rintro (hkind | hhead)
  · have hbegins := hs.begins_of_exact hscan.ranked hc hkind
    exact hscan.exists_standsAt hs hc (hs.head hbegins)
  · exact hscan.exists_standsAt hs hc hhead

/-- A word behind the caret is nearer than the same word in front of it. -/
theorem candidates_nearest_both_sides :
    ∃ store, (atCaret [] "foo ab fo ab foo".toList 9).candidates {}
        (wordAt [] "foo ab fo ab foo".toList 9) = .ok store ∧
      store.regular = [⟨"foo".toList, 4, .exact⟩] ∧
      ∀ c ∈ store.regular, (atCaret [] "foo ab fo ab foo".toList 9).Nearest {} c := by
  have hscan : (atCaret [] "foo ab fo ab foo".toList 9).candidates {}
      (wordAt [] "foo ab fo ab foo".toList 9) = .ok
        { word := "fo".toList, trailing := "fo".toList, finalized := true,
          regular := [⟨"foo".toList, 4, .exact⟩] } := by
    decide +kernel
  have hexact : (atCaret [] "foo ab fo ab foo".toList 9).pass {} .exact
      { word := wordAt [] "foo ab fo ab foo".toList 9,
        trailing := (atCaret [] "foo ab fo ab foo".toList 9).trailing {}
          (wordAt [] "foo ab fo ab foo".toList 9) } =
      .ok (1,
        { word := "fo".toList, trailing := "fo".toList, regular := [⟨"foo".toList, 4, .exact⟩] }) := by
    decide +kernel
  obtain ⟨offers, count, middle, offers', count', last, store, hoffers, hok, hnear⟩ :=
    candidates_nearest [] "foo ab fo ab foo".toList 9 {} (by decide) (by decide) (by decide)
  obtain ⟨rfl, -⟩ := Prod.mk.inj (Except.ok.inj (hoffers.exact.result.symm.trans hexact))
  obtain rfl := Except.ok.inj (hok.symm.trans hscan)
  refine ⟨_, hscan, rfl, ?_⟩
  intro c hc
  have hkind : c.kind = .exact := by rw [List.mem_singleton.mp hc]
  exact (hnear c hc).exact_nearest hkind (by decide) (by decide)

/-- With room for one, the pass has ended before the nearest word. -/
theorem candidates_not_nearest :
    ∃ store, (atCaret [] "foobar foobar fo".toList 16).candidates
        { candidatesLimit := 1, skipFuzzyIfExact := true }
        (wordAt [] "foobar foobar fo".toList 16) = .ok store ∧
      ∃ c ∈ store.regular, ¬(atCaret [] "foobar foobar fo".toList 16).Nearest
        { candidatesLimit := 1, skipFuzzyIfExact := true } c := by
  have hscan : (atCaret [] "foobar foobar fo".toList 16).candidates
      { candidatesLimit := 1, skipFuzzyIfExact := true }
      (wordAt [] "foobar foobar fo".toList 16) = .ok
        { word := "fo".toList, trailing := "fo".toList, finalized := true,
          regular := [⟨"foobar".toList, 16, .exact⟩] } := by
    decide +kernel
  refine ⟨_, hscan, _, List.mem_singleton_self _, ?_⟩
  intro hnearest
  have hwhole : IsWholeWord [] "foobar foobar fo".toList 7 "foobar".toList := by
    rw [isWholeWord_iff]
    decide
  have hle := hnearest.2 ⟨7, ⟨hwhole, by decide, by decide⟩, rfl⟩
  exact absurd hle (by decide)

end Scan
end WordCycle
