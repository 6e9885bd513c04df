import WordCycle.Proofs.Candidate.Store
import WordCycle.Proofs.Scan.Occurrence
import WordCycle.Scan

/-! What a scan collects. From a position inside the text no pass is refused: it offers the words it
meets to the store one by one, keeps the shape of the store, and stops before the last of them only
if the limit is reached. -/

namespace WordCycle
set_option autoImplicit false

/-! ## The window -/

theorem searchWindow_within (length pos limitKb : Nat) (h : pos ≤ length) :
    ∃ start stop : Nat, searchWindow length pos limitKb = (↑start, ↑stop) ∧
      start ≤ length ∧ stop ≤ length := by
  unfold searchWindow
  split
  · refine ⟨pos - limitKb * 1024, min (pos + limitKb * 1024) length, ?_, by omega, by omega⟩
    rw [Prod.mk.injEq]
    constructor <;> omega
  · exact ⟨0, length, rfl, Nat.zero_le _, Nat.le_refl _⟩

theorem Search.bounds_within (length start stop : Nat) (hstart : start ≤ length)
    (hstop : stop ≤ length) : Search.bounds length start stop = .ok (start, stop) := by
  have hstart' : Search.isCountable length (max (start : Int) 0) = true := by
    simp only [Search.isCountable, Bool.or_eq_true, Bool.and_eq_true, decide_eq_true_eq]
    omega
  have hstop' : Search.isCountable length (stop : Int) = true := by
    simp only [Search.isCountable, Bool.or_eq_true, Bool.and_eq_true, decide_eq_true_eq]
    omega
  simp only [Search.bounds, hstart', hstop', Bool.and_self, ↓reduceIte, Except.ok.injEq,
    Prod.mk.injEq]
  constructor <;> omega

namespace Scan

/-- The window of a scan. -/
def window (s : Scan) (settings : Settings) : Int × Int :=
  searchWindow s.text.length s.pos settings.distanceLimitKb

theorem search_pattern_ne_nil (s : Scan) (kind : MatchKind) (h : s.typed ≠ []) :
    (s.search kind).pattern ≠ [] := by
  obtain ⟨c, rest, htyped⟩ := List.exists_cons_of_ne_nil h
  cases kind <;> simp [search, htyped]

theorem occurrences_within (s : Scan) (settings : Settings) (kind : MatchKind) (pos : Nat)
    (hpos : s.pos = pos) (hle : pos ≤ s.text.length) (hne : s.typed ≠ []) :
    ∃ start stop : Nat, s.window settings = (↑start, ↑stop) ∧
      s.occurrences settings kind = .ok ((s.search kind).occurrencesWithin s.text start stop) := by
  obtain ⟨start, stop, hwindow, hstart, hstop⟩ :=
    searchWindow_within s.text.length pos settings.distanceLimitKb hle
  have hwin : s.window settings = (↑start, ↑stop) := by rw [window, hpos, hwindow]
  have hbounds := Search.bounds_within s.text.length start stop hstart hstop
  refine ⟨start, stop, hwin, ?_⟩
  have hempty : (s.search kind).pattern.isEmpty = false := by
    simpa using s.search_pattern_ne_nil kind hne
  rw [window, Prod.ext_iff] at hwin
  simp only [occurrences, Search.occurrences, hempty, hwin.1, hwin.2, hbounds]
  rfl

theorem occurrences_ok (s : Scan) (settings : Settings) (kind : MatchKind) (pos : Nat)
    (hpos : s.pos = pos) (hle : pos ≤ s.text.length) :
    ∃ found, s.occurrences settings kind = .ok found ∧
      (s.typed ≠ [] → (s.search kind).RespectsWords → ∀ o, o ∈ found ↔
        (s.window settings).1 ≤ o.start ∧
        o.start + (s.search kind).pattern.length ≤ (s.window settings).2 ∧
        (s.search kind).fitsAt s.text o.start = true ∧
        o.word = (s.text.drop o.start).takeWhile (isWordChar s.extra)) := by
  by_cases htyped : s.typed = []
  · have hnone : (s.search kind).pattern = [] := by cases kind <;> simp [search, htyped]
    exact ⟨[], by simp [occurrences, Search.occurrences, hnone], fun hne => absurd htyped hne⟩
  · obtain ⟨start, stop, hwin, hfound⟩ := s.occurrences_within settings kind pos hpos hle htyped
    refine ⟨_, hfound, ?_⟩
    intro _ hwords o
    have hmem := (s.search kind).mem_occurrencesWithin hwords (by cases kind <;> rfl)
      (s.search_pattern_ne_nil kind htyped) s.text start stop o
    rw [hmem, hwin]
    simp only [Int.ofNat_le]
    norm_cast

/-! ## One word -/

/-- The candidate that a met word becomes. -/
def candidateAt (s : Scan) (kind : MatchKind) (o : Search.Occurrence) : Candidate :=
  ⟨o.word, (s.pos - o.start).natAbs, kind⟩

/-- Offers a met word to a store if it fits. -/
def offer (s : Scan) (kind : MatchKind) (o : Search.Occurrence) (store : CandidateStore) :
    Bool × CandidateStore :=
  if s.fits kind o.word then store.insert (s.candidateAt kind o) else (false, store)

theorem collect_cons (s : Scan) (kind : MatchKind) (limit : Nat) (o : Search.Occurrence)
    (rest : List Search.Occurrence) (added : Nat) (store : CandidateStore)
    (h : store.finalized = false) :
    s.collect kind limit (o :: rest) added store =
      if added + (s.offer kind o store).1.toNat = limit then
        .ok (added + (s.offer kind o store).1.toNat, (s.offer kind o store).2)
      else
        s.collect kind limit rest (added + (s.offer kind o store).1.toNat)
          (s.offer kind o store).2 := by
  have hcount (isNew : Bool) : added + isNew.toNat = if isNew then added + 1 else added := by
    cases isNew <;> rfl
  rw [hcount, collect, offer]
  by_cases hfits : s.fits kind o.word = true
  · have hupsert : store.upsert ⟨o.word, (s.pos - o.start).natAbs, kind⟩ =
        .ok (store.insert (s.candidateAt kind o)) := by
      rw [CandidateStore.upsert, h]
      rfl
    rw [if_pos hfits, if_pos hfits, hupsert]
    rfl
  · rw [if_neg hfits, if_neg hfits]
    rfl

/-! ## One pass -/

/-- What becomes of a store when the words met are offered to it: it keeps its shape and all that it
holds, the fitting words that are new follow, and unless these fill the limit none is left out. -/
structure Collected (s : Scan) (kind : MatchKind) (limit : Nat) (found : List Search.Occurrence)
    (added : Nat) (store : CandidateStore) (count : Nat) (store' : CandidateStore) : Prop where
  wellFormed : store.WellFormed → store'.WellFormed
  finalized : store'.finalized = false
  word : store'.word = store.word
  trailing : store'.trailing = store.trailing
  news : ∃ new : List Text, store'.labels = store.labels ++ new.map (·, kind) ∧
    count = added + new.length ∧ ∀ t ∈ new, s.fits kind t = true ∧ ∃ o ∈ found, o.word = t
  complete : count = limit ∨ ∀ o ∈ found, s.fits kind o.word = true → store.Admits o.word →
    o.word ∈ store'.regular.map Candidate.text

theorem offer_collected (s : Scan) (kind : MatchKind) (limit : Nat) (o : Search.Occurrence)
    (added : Nat) (store : CandidateStore) (h : store.finalized = false) :
    s.Collected kind limit [o] added store (added + (s.offer kind o store).1.toNat)
      (s.offer kind o store).2 := by
  by_cases hfits : s.fits kind o.word = true
  · have hoffer : s.offer kind o store = store.insert (s.candidateAt kind o) := if_pos hfits
    have hlabels := store.labels_insert (s.candidateAt kind o)
    rw [hoffer]
    refine ⟨fun hwell => hwell.insert _, by rw [store.insert_finalized, h],
      store.insert_word _, store.insert_trailing _, ?_, Or.inr ?_⟩
    · by_cases hnew : (store.insert (s.candidateAt kind o)).1 = true
      · refine ⟨[o.word], ?_, by rw [hnew]; rfl, ?_⟩
        · rw [hlabels, if_pos hnew]
          rfl
        · intro t ht
          obtain rfl := List.mem_singleton.mp ht
          exact ⟨hfits, o, List.mem_singleton_self o, rfl⟩
      · refine ⟨[], by rw [hlabels, if_neg hnew]; rfl, ?_, by simp⟩
        rw [Bool.not_eq_true] at hnew
        rw [hnew]
        rfl
    · intro o' ho' _ hadmits
      obtain rfl := List.mem_singleton.mp ho'
      rw [store.texts_insert]
      by_cases hmem : o'.word ∈ store.regular.map Candidate.text
      · exact List.mem_append_left _ hmem
      · have hnew : (store.insert (s.candidateAt kind o')).1 = true :=
          (store.insert_fst _).mpr ⟨hadmits, hmem⟩
        rw [if_pos hnew]
        exact List.mem_append_right _ (List.mem_singleton_self _)
  · have hoffer : s.offer kind o store = (false, store) := if_neg hfits
    rw [hoffer]
    refine ⟨id, h, rfl, rfl, ⟨[], by simp, rfl, by simp⟩, Or.inr ?_⟩
    intro o' ho' hfits'
    obtain rfl := List.mem_singleton.mp ho'
    exact absurd hfits' hfits

theorem Collected.cons {s : Scan} {kind : MatchKind} {limit : Nat} {o : Search.Occurrence}
    {rest : List Search.Occurrence} {added count count' : Nat} {store middle store' : CandidateStore}
    (hfirst : s.Collected kind limit [o] added store count middle)
    (hrest : s.Collected kind limit rest count middle count' store')
    (hgoes : count ≠ limit) :
    s.Collected kind limit (o :: rest) added store count' store' := by
  obtain ⟨new, hlabels, hcount, hnew⟩ := hfirst.news
  obtain ⟨new', hlabels', hcount', hnew'⟩ := hrest.news
  have hkept : ∀ t ∈ middle.regular.map Candidate.text,
      t ∈ store'.regular.map Candidate.text := by
    intro t ht
    rw [← store'.map_fst_labels, hlabels', List.map_append, middle.map_fst_labels]
    exact List.mem_append_left _ ht
  refine ⟨fun h => hrest.wellFormed (hfirst.wellFormed h), hrest.finalized,
    hrest.word.trans hfirst.word, hrest.trailing.trans hfirst.trailing,
    ⟨new ++ new', ?_, ?_, ?_⟩, ?_⟩
  · rw [hlabels', hlabels, List.map_append, List.append_assoc]
  · rw [List.length_append]
    omega
  · intro t ht
    rcases List.mem_append.mp ht with ht | ht
    · obtain ⟨hfits, o', ho', hword⟩ := hnew t ht
      exact ⟨hfits, o', List.mem_cons.mpr (Or.inl (List.mem_singleton.mp ho')), hword⟩
    · obtain ⟨hfits, o', ho', hword⟩ := hnew' t ht
      exact ⟨hfits, o', List.mem_cons_of_mem o ho', hword⟩
  · rcases hrest.complete with hfull | hall
    · exact Or.inl hfull
    · refine Or.inr ?_
      intro o' ho' hfits hadmits
      rcases List.mem_cons.mp ho' with rfl | ho'
      · have hmid := (hfirst.complete.resolve_left hgoes) o' (List.mem_singleton_self o')
          hfits hadmits
        exact hkept _ hmid
      · refine hall o' ho' hfits ?_
        rw [CandidateStore.Admits, hfirst.word, hfirst.trailing]
        exact hadmits

theorem collect_ok (s : Scan) (kind : MatchKind) (limit : Nat) (found : List Search.Occurrence)
    (added : Nat) (store : CandidateStore) (h : store.finalized = false) :
    ∃ count store', s.collect kind limit found added store = .ok (count, store') ∧
      s.Collected kind limit found added store count store' := by
  induction found generalizing added store with
  | nil =>
    exact ⟨added, store, rfl, id, h, rfl, rfl, ⟨[], by simp, rfl, by simp⟩, Or.inr (by simp)⟩
  | cons o rest ih =>
    have hfirst := s.offer_collected kind limit o added store h
    rw [collect_cons s kind limit o rest added store h]
    split
    · next hfull =>
      refine ⟨_, _, rfl, hfirst.wellFormed, hfirst.finalized, hfirst.word, hfirst.trailing, ?_,
        Or.inl hfull⟩
      obtain ⟨new, hlabels, hcount, hnew⟩ := hfirst.news
      refine ⟨new, hlabels, hcount, fun t ht => ?_⟩
      obtain ⟨hfits, o', ho', hword⟩ := hnew t ht
      exact ⟨hfits, o', List.mem_cons.mpr (Or.inl (List.mem_singleton.mp ho')), hword⟩
    · next hgoes =>
      obtain ⟨count, store', hcollect, hrest⟩ := ih _ _ hfirst.finalized
      exact ⟨count, store', hcollect, hfirst.cons hrest hgoes⟩

theorem pass_of_collect {s : Scan} {settings : Settings} {kind : MatchKind}
    {found : List Search.Occurrence} {store : CandidateStore} {r : Nat × CandidateStore}
    (hfound : s.occurrences settings kind = .ok found)
    (hcollect : s.collect kind settings.candidatesLimit found 0 store = .ok r) :
    s.pass settings kind store = .ok r := by
  rw [pass, hfound]
  exact hcollect

/-! ## Both passes -/

/-- The scan for the word before a position. -/
def atCaret (extra text : Text) (pos : Nat) : Scan :=
  { text, extra, typed := typedAt extra text pos, pos }

/-- What the last entry of a scan brings back. -/
def trailing (s : Scan) (settings : Settings) (word : Text) : Text :=
  if settings.removeTrailingWordPart then word else s.typed

theorem candidates_of_passes {s : Scan} {settings : Settings} {word : Text} {count : Nat}
    {middle last : CandidateStore}
    (hexact : s.pass settings .exact { word, trailing := s.trailing settings word } =
      .ok (count, middle))
    (hfuzzy : if count = 0 || !settings.skipFuzzyIfExact then
        ∃ count', s.pass settings .fuzzy middle = .ok (count', last)
      else last = middle) :
    s.candidates settings word =
      .ok (last.sort settings.sortOrder settings.skipFuzzyIfExact).finalize := by
  rw [trailing] at hexact
  split at hfuzzy
  · next hgoes =>
    obtain ⟨count', hfuzzy⟩ := hfuzzy
    simp only [candidates, hexact, bind, Except.bind, hgoes, ↓reduceIte, hfuzzy]
    rfl
  · next hgoes =>
    subst hfuzzy
    simp only [candidates, hexact, bind, Except.bind, hgoes]
    rfl

/-- From a position inside the text a scan is never refused: after the exact pass it makes the fuzzy
one, unless that is to be skipped, and ranks and closes what both leave in the store. -/
theorem candidates_collect (s : Scan) (settings : Settings) (word : Text) (pos : Nat)
    (hpos : s.pos = pos) (hle : pos ≤ s.text.length) :
    ∃ found found' count store count' store',
      s.occurrences settings .exact = .ok found ∧
      s.occurrences settings .fuzzy = .ok found' ∧
      s.collect .exact settings.candidatesLimit found 0
        { word, trailing := s.trailing settings word } = .ok (count, store) ∧
      (if count = 0 || !settings.skipFuzzyIfExact then
        s.collect .fuzzy settings.candidatesLimit found' 0 store = .ok (count', store')
      else store' = store) ∧
      s.candidates settings word =
        .ok (store'.sort settings.sortOrder settings.skipFuzzyIfExact).finalize := by
  obtain ⟨found, hfound, -⟩ := s.occurrences_ok settings .exact pos hpos hle
  obtain ⟨found', hfound', -⟩ := s.occurrences_ok settings .fuzzy pos hpos hle
  obtain ⟨count, store, hexact, hcollected⟩ := s.collect_ok .exact settings.candidatesLimit found 0
    { word, trailing := s.trailing settings word } rfl
  obtain ⟨count', store', hfuzzy, -⟩ :=
    s.collect_ok .fuzzy settings.candidatesLimit found' 0 store hcollected.finalized
  have hpass := pass_of_collect hfound hexact
  by_cases hgoes : (count = 0 || !settings.skipFuzzyIfExact) = true
  · refine ⟨found, found', count, store, count', store', hfound, hfound', hexact, ?_, ?_⟩
    · rw [if_pos hgoes]
      exact hfuzzy
    · refine candidates_of_passes hpass ?_
      rw [if_pos hgoes]
      exact ⟨count', pass_of_collect hfound' hfuzzy⟩
  · refine ⟨found, found', count, store, count', store, hfound, hfound', hexact, ?_, ?_⟩
    · rw [if_neg hgoes]
    · refine candidates_of_passes hpass ?_
      rw [if_neg hgoes]

theorem collected_of_collect {s : Scan} {kind : MatchKind} {limit added count : Nat}
    {found : List Search.Occurrence} {store store' : CandidateStore} (h : store.finalized = false)
    (hcollect : s.collect kind limit found added store = .ok (count, store')) :
    s.Collected kind limit found added store count store' := by
  obtain ⟨count', store'', hcollect', hcollected⟩ := s.collect_ok kind limit found added store h
  obtain ⟨rfl, rfl⟩ := Prod.mk.inj (Except.ok.inj (hcollect.symm.trans hcollect'))
  exact hcollected

theorem candidates_passes (s : Scan) (settings : Settings) (word : Text) (pos : Nat)
    (hpos : s.pos = pos) (hle : pos ≤ s.text.length) :
    ∃ found found' count store count' store',
      s.occurrences settings .exact = .ok found ∧
      s.occurrences settings .fuzzy = .ok found' ∧
      s.Collected .exact settings.candidatesLimit found 0
        { word, trailing := s.trailing settings word } count store ∧
      (if count = 0 || !settings.skipFuzzyIfExact then
        s.Collected .fuzzy settings.candidatesLimit found' 0 store count' store'
      else store' = store) ∧
      s.candidates settings word =
        .ok (store'.sort settings.sortOrder settings.skipFuzzyIfExact).finalize := by
  obtain ⟨found, found', count, store, count', store', hfound, hfound', hexact, hfuzzy, hok⟩ :=
    s.candidates_collect settings word pos hpos hle
  have hcollected := collected_of_collect rfl hexact
  refine ⟨found, found', count, store, count', store', hfound, hfound', hcollected, ?_, hok⟩
  split
  · next hgoes =>
    rw [if_pos hgoes] at hfuzzy
    exact collected_of_collect hcollected.finalized hfuzzy
  · next hgoes =>
    rwa [if_neg hgoes] at hfuzzy

/-- The candidates of a scan from a position inside the text keep the shape of a store, and are
closed by their trailing entry if there are any. -/
theorem candidates_ok (s : Scan) (settings : Settings) (word : Text) (pos : Nat)
    (hpos : s.pos = pos) (hle : pos ≤ s.text.length) :
    ∃ store, s.candidates settings word = .ok store ∧ store.WellFormed ∧ store.word = word ∧
      store.trailing = s.trailing settings word ∧
      store.finalized = !store.regular.isEmpty := by
  obtain ⟨found, found', count, store, count', store', -, -, hexact, hfuzzy, hok⟩ :=
    s.candidates_passes settings word pos hpos hle
  have hstore := hexact.wellFormed (CandidateStore.wellFormed_empty _ _)
  have hlast : store'.WellFormed ∧ store'.finalized = false ∧ store'.word = word ∧
      store'.trailing = s.trailing settings word := by
    split at hfuzzy
    · exact ⟨hfuzzy.wellFormed hstore, hfuzzy.finalized, hfuzzy.word.trans hexact.word,
        hfuzzy.trailing.trans hexact.trailing⟩
    · subst hfuzzy
      exact ⟨hstore, hexact.finalized, hexact.word, hexact.trailing⟩
  obtain ⟨hwell, hfin, hword, htrailing⟩ := hlast
  refine ⟨_, hok, (hwell.sort _ _).finalize, hword, htrailing, ?_⟩
  simp [CandidateStore.finalize, CandidateStore.sort, hfin]

end Scan
end WordCycle
