import WordCycle.Proofs.Candidate.Ranking
import WordCycle.Proofs.Scan.Collection

/-! The order in which a scan offers its candidates: exact matches, fuzzy matches, and last the way
back. Those of one kind stand in the order of the settings, and at equal distances the word that its
pass met later comes first. -/

namespace WordCycle
set_option autoImplicit false

namespace Scan

/-- Whether the pass that finds the first candidate meets its text before that of the second. -/
def MeetsBefore (s : Scan) (settings : Settings) (c d : Candidate) : Prop :=
  ∃ found, s.occurrences settings c.kind = .ok found ∧
    (found.map (·.word)).idxOf c.text < (found.map (·.word)).idxOf d.text

/-- Whether of two candidates of one kind the first is offered before the second. -/
def OffersBefore (s : Scan) (settings : Settings) (c d : Candidate) : Prop :=
  match settings.sortOrder with
  | .alphabetical => c.text.isBefore d.text = true ∧ c.text ≠ d.text
  | .byDistance => c.distance < d.distance ∨
      c.distance = d.distance ∧ s.MeetsBefore settings d c

/-- A store as a scan leaves it that has found something. -/
structure Ranked (s : Scan) (settings : Settings) (word : Text) (store : CandidateStore) : Prop where
  found : store.regular ≠ []
  finalized : store.finalized = true
  entries : store.entries = store.regular.filter (·.kind = .exact) ++
    store.regular.filter (·.kind = .fuzzy) ++ [⟨s.trailing settings word, 0, .exact⟩]
  ordered : ∀ kind, (store.regular.filter (·.kind = kind)).Pairwise (s.OffersBefore settings)
  distinct : store.texts.Nodup
  nonempty : ∀ t ∈ store.texts, t ≠ []
  one_kind : settings.skipFuzzyIfExact = true → ∃ kind, ∀ c ∈ store.regular, c.kind = kind

/-! ## The order of collecting -/

/-- The text that a met word adds to a store, if it adds one. -/
def added (s : Scan) (kind : MatchKind) (o : Search.Occurrence) (store : CandidateStore) : List Text :=
  if (s.offer kind o store).1 then [o.word] else []

theorem mem_added (s : Scan) (kind : MatchKind) (o : Search.Occurrence) (store : CandidateStore)
    (t : Text) : t ∈ s.added kind o store ↔ t = o.word ∧ s.fits kind t = true ∧
      store.Admits t ∧ t ∉ store.regular.map Candidate.text := by
  unfold added offer
  by_cases hfits : s.fits kind o.word = true
  · have hfst := store.insert_fst (s.candidateAt kind o)
    rw [if_pos hfits]
    split
    · next hnew =>
      rw [List.mem_singleton]
      constructor
      · rintro rfl
        exact ⟨rfl, hfits, hfst.mp hnew⟩
      · exact fun h => h.1
    · next hold =>
      simp only [List.not_mem_nil, false_iff]
      rintro ⟨rfl, -, hadmits⟩
      exact hold (hfst.mpr hadmits)
  · rw [if_neg hfits]
    simp only [Bool.false_eq_true, ↓reduceIte, List.not_mem_nil, false_iff]
    rintro ⟨rfl, hfits', -⟩
    exact hfits hfits'

theorem labels_offer (s : Scan) (kind : MatchKind) (o : Search.Occurrence)
    (store : CandidateStore) :
    (s.offer kind o store).2.labels = store.labels ++ (s.added kind o store).map (·, kind) := by
  unfold added offer
  by_cases hfits : s.fits kind o.word = true
  · rw [if_pos hfits, store.labels_insert]
    split <;> rfl
  · simp [hfits]

theorem added_pairwise (s : Scan) (kind : MatchKind) (o : Search.Occurrence)
    (store : CandidateStore) (R : Text → Text → Prop) :
    (s.added kind o store).Pairwise R := by
  unfold added
  split
  · exact List.pairwise_singleton R o.word
  · exact List.Pairwise.nil

theorem collect_inOrder {s : Scan} {kind : MatchKind} {limit start count : Nat}
    {found : List Search.Occurrence} {store store' : CandidateStore} (h : store.finalized = false)
    (hcollect : s.collect kind limit found start store = .ok (count, store')) :
    ∃ new : List Text, store'.labels = store.labels ++ new.map (·, kind) ∧
      (∀ t ∈ new, s.fits kind t = true ∧ store.Admits t ∧ t ∉ store.regular.map Candidate.text) ∧
      new.Pairwise fun t u =>
        (found.map (·.word)).idxOf t < (found.map (·.word)).idxOf u := by
  -- The induction carries what makes a text new, so that a text met again behind the word that
  -- brought it in is none.
  induction found generalizing start store with
  | nil =>
    obtain ⟨rfl, rfl⟩ := Prod.mk.inj (Except.ok.inj hcollect)
    exact ⟨[], by simp, by simp, List.Pairwise.nil⟩
  | cons o rest ih =>
    have hoffer := s.offer_collected kind limit o start store h
    have hlabels := s.labels_offer kind o store
    have hone : ∀ t ∈ s.added kind o store,
        s.fits kind t = true ∧ store.Admits t ∧ t ∉ store.regular.map Candidate.text :=
      fun t ht => ((s.mem_added kind o store t).mp ht).2
    rw [collect_cons s kind limit o rest start store h] at hcollect
    split at hcollect
    · obtain ⟨-, rfl⟩ := Prod.mk.inj (Except.ok.inj hcollect)
      exact ⟨s.added kind o store, hlabels, hone, s.added_pairwise kind o store _⟩
    · obtain ⟨new, hrest, hnew, horder⟩ := ih hoffer.finalized hcollect
      have htexts : (s.offer kind o store).2.regular.map Candidate.text =
          store.regular.map Candidate.text ++ s.added kind o store := by
        rw [← CandidateStore.map_fst_labels, hlabels, List.map_append, store.map_fst_labels,
          List.map_map]
        simp [Function.comp_def]
      have hnew' : ∀ t ∈ new, s.fits kind t = true ∧ store.Admits t ∧
          t ∉ store.regular.map Candidate.text ∧ o.word ≠ t := by
        intro t ht
        obtain ⟨hfits, hadmits, hmem⟩ := hnew t ht
        rw [CandidateStore.Admits, hoffer.word, hoffer.trailing] at hadmits
        rw [htexts, List.mem_append, not_or] at hmem
        refine ⟨hfits, hadmits, hmem.1, ?_⟩
        rintro rfl
        exact hmem.2 ((s.mem_added kind o store o.word).mpr ⟨rfl, hfits, hadmits, hmem.1⟩)
      have hindex : ∀ t ∈ new, ((o :: rest).map (·.word)).idxOf t =
          (rest.map (·.word)).idxOf t + 1 :=
        fun t ht => List.idxOf_cons_ne _ (hnew' t ht).2.2.2
      refine ⟨s.added kind o store ++ new, ?_, ?_, ?_⟩
      · rw [hrest, hlabels, List.map_append, List.append_assoc]
      · intro t ht
        rcases List.mem_append.mp ht with ht | ht
        · exact hone t ht
        · exact ⟨(hnew' t ht).1, (hnew' t ht).2.1, (hnew' t ht).2.2.1⟩
      · refine List.pairwise_append.mpr ⟨s.added_pairwise kind o store _, ?_, ?_⟩
        · refine List.Pairwise.imp_of_mem ?_ horder
          intro t u ht hu hlt
          rw [hindex t ht, hindex u hu]
          omega
        · intro t ht u hu
          obtain rfl := ((s.mem_added kind o store t).mp ht).1
          rw [hindex u hu, List.map_cons, List.idxOf_cons_self]
          omega

theorem regular_inOrder {s : Scan} {settings : Settings} {store : CandidateStore}
    {new new' : List Text} {found found' : List Search.Occurrence}
    (hlabels : store.labels = new.map (·, .exact) ++ new'.map (·, .fuzzy))
    (hfound : s.occurrences settings .exact = .ok found)
    (hfound' : s.occurrences settings .fuzzy = .ok found')
    (hnew : new.Pairwise fun t u => (found.map (·.word)).idxOf t < (found.map (·.word)).idxOf u)
    (hnew' : new'.Pairwise fun t u =>
      (found'.map (·.word)).idxOf t < (found'.map (·.word)).idxOf u) :
    store.regular.Pairwise fun c d => c.kind = d.kind → s.MeetsBefore settings c d := by
  have hpairs : store.labels.Pairwise fun p q => p.2 = q.2 →
      ∃ found, s.occurrences settings p.2 = .ok found ∧
        (found.map (·.word)).idxOf p.1 < (found.map (·.word)).idxOf q.1 := by
    rw [hlabels, List.pairwise_append, List.pairwise_map, List.pairwise_map]
    refine ⟨hnew.imp fun hlt _ => ⟨found, hfound, hlt⟩,
      hnew'.imp fun hlt _ => ⟨found', hfound', hlt⟩, ?_⟩
    intro p hp q hq hkinds
    obtain ⟨t, -, rfl⟩ := List.mem_map.mp hp
    obtain ⟨u, -, rfl⟩ := List.mem_map.mp hq
    cases hkinds
  rw [CandidateStore.labels, List.pairwise_map] at hpairs
  exact hpairs

/-- What a scan ranks: the candidates of both passes in the order of being met. If an exact match is to
be enough, they come from one pass only. -/
theorem candidates_inOrder (s : Scan) (settings : Settings) (word : Text) (pos : Nat)
    (hpos : s.pos = pos) (hle : pos ≤ s.text.length) :
    ∃ store : CandidateStore, s.candidates settings word =
        .ok (store.sort settings.sortOrder settings.skipFuzzyIfExact).finalize ∧
      store.WellFormed ∧ store.finalized = false ∧ store.trailing = s.trailing settings word ∧
      (store.regular.Pairwise fun c d => c.kind = d.kind → s.MeetsBefore settings c d) ∧
      (settings.skipFuzzyIfExact = true → ∃ kind, ∀ c ∈ store.regular, c.kind = kind) := by
  obtain ⟨found, found', count, store, count', store', hfound, hfound', hexact, hfuzzy, hok⟩ :=
    s.candidates_collect settings word pos hpos hle
  have hcollected := collected_of_collect rfl hexact
  have hwell := hcollected.wellFormed (CandidateStore.wellFormed_empty _ _)
  obtain ⟨new, hlabels, -, hnew⟩ := collect_inOrder rfl hexact
  have hcount : new.length = count := by
    obtain ⟨new', hlabels', hcount, -⟩ := hcollected.news
    have hlen := congrArg List.length (hlabels.symm.trans hlabels')
    simp only [List.length_append, List.length_map] at hlen
    omega
  have hlabels : store.labels = new.map (·, .exact) := hlabels
  have hkind (kind : MatchKind) (texts : List Text) (store : CandidateStore)
      (h : store.labels = texts.map (·, kind)) : ∀ c ∈ store.regular, c.kind = kind := by
    intro c hc
    have hmem : (c.text, c.kind) ∈ store.labels := (store.mem_labels _ _).mpr ⟨c, hc, rfl, rfl⟩
    rw [h] at hmem
    obtain ⟨t, -, heq⟩ := List.mem_map.mp hmem
    exact (Prod.mk.inj heq).2.symm
  split at hfuzzy
  · next hgoes =>
    have hcollected' := collected_of_collect hcollected.finalized hfuzzy
    obtain ⟨new', hlabels', -, hnew'⟩ := collect_inOrder hcollected.finalized hfuzzy
    rw [hlabels] at hlabels'
    refine ⟨store', hok, hcollected'.wellFormed hwell, hcollected'.finalized,
      hcollected'.trailing.trans hcollected.trailing,
      regular_inOrder hlabels' hfound hfound' hnew hnew', ?_⟩
    intro hskip
    -- The fuzzy pass ran all the same, so the exact one has found nothing.
    simp only [hskip, Bool.not_true, Bool.or_false, decide_eq_true_eq] at hgoes
    obtain rfl : new = [] := List.length_eq_zero_iff.mp (hcount.trans hgoes)
    exact ⟨.fuzzy, hkind .fuzzy new' store' hlabels'⟩
  · subst hfuzzy
    have hexact_only : store'.labels = new.map (·, .exact) ++ ([] : List Text).map (·, .fuzzy) := by
      rw [hlabels, List.map_nil, List.append_nil]
    exact ⟨store', hok, hwell, hcollected.finalized, hcollected.trailing,
      regular_inOrder hexact_only hfound hfound' hnew List.Pairwise.nil,
      fun _ => ⟨.exact, hkind .exact new store' hlabels⟩⟩

/-! ## The ranking -/

theorem exact_first {order : SortOrder} {ignoreKinds : Bool} {ranking : List Candidate}
    {later : Candidate → Candidate → Prop}
    (hranking : ranking.Pairwise (Candidate.Outranks order ignoreKinds later))
    (hkinds : ignoreKinds = true → ∃ kind, ∀ c ∈ ranking, c.kind = kind) :
    ranking = ranking.filter (·.kind = .exact) ++ ranking.filter (·.kind = .fuzzy) := by
  have hpairs : ranking.Pairwise fun c d =>
      decide (d.kind = .exact) = true → decide (c.kind = .exact) = true := by
    refine List.Pairwise.imp_of_mem ?_ hranking
    intro c d hc hd hcd
    rw [decide_eq_true_eq, decide_eq_true_eq]
    intro hexact
    by_cases hignore : ignoreKinds = true
    · obtain ⟨kind, hall⟩ := hkinds hignore
      rw [hall c hc, ← hall d hd, hexact]
    · have hfirst := (Candidate.mayPrecede_iff order ignoreKinds c d).mp hcd.1
      split at hfirst
      · next hsame => exact (hsame.resolve_left hignore).trans hexact
      · exact hfirst
  have hfuzzy : (fun c : Candidate => !decide (c.kind = .exact)) =
      fun c : Candidate => decide (c.kind = .fuzzy) := by
    funext c
    cases c.kind <;> rfl
  have hsplit := eq_filter_append_filter (fun c : Candidate => decide (c.kind = .exact)) ranking hpairs
  rwa [hfuzzy] at hsplit

theorem offersBefore_of_outranks {s : Scan} {settings : Settings} {c d : Candidate}
    (h : Candidate.Outranks settings.sortOrder settings.skipFuzzyIfExact
      (fun c d => d.kind = c.kind → s.MeetsBefore settings d c) c d)
    (hkinds : c.kind = d.kind) (htexts : c.text ≠ d.text) : s.OffersBefore settings c d := by
  obtain ⟨hfirst, hlater⟩ := h
  rw [Candidate.mayPrecede_iff, if_pos (Or.inr hkinds)] at hfirst
  rw [Candidate.mayPrecede_iff, if_pos (Or.inr hkinds.symm)] at hlater
  unfold OffersBefore
  cases horder : settings.sortOrder with
  | alphabetical =>
    rw [horder] at hfirst
    exact ⟨hfirst, htexts⟩
  | byDistance =>
    simp only [horder, SortOrder.allows, decide_eq_true_eq] at hfirst hlater
    rcases Int.lt_or_eq_of_le hfirst with hlt | heq
    · exact Or.inl hlt
    · exact Or.inr ⟨heq, hlater (Int.le_of_eq heq.symm) hkinds.symm⟩

/-- The candidates for the word before a position stand in groups, each in its order, and end with the
way back; no text occurs twice. -/
theorem candidates_ranked (extra text : Text) (pos : Nat) (settings : Settings)
    (hpos : pos ≤ text.length) (htyped : typedAt extra text pos ≠ []) :
    ∃ store, (atCaret extra text pos).candidates settings (wordAt extra text pos) = .ok store ∧
      (store.entries = [] ∧ store.finalized = false ∨
        (atCaret extra text pos).Ranked settings (wordAt extra text pos) store) := by
  have htrailing : (atCaret extra text pos).trailing settings (wordAt extra text pos) ≠ [] := by
    obtain ⟨before, typed, rest, behind, hcut⟩ := exists_wordCut extra text pos hpos
    rw [hcut.typedAt_eq] at htyped
    rw [trailing, atCaret, hcut.typedAt_eq, hcut.wordAt_eq]
    split
    · exact List.append_ne_nil_of_left_ne_nil htyped rest
    · exact htyped
  obtain ⟨store, hok, hwell, hfin, hlast, horder, hkinds⟩ :=
    (atCaret extra text pos).candidates_inOrder settings (wordAt extra text pos) pos rfl hpos
  generalize atCaret extra text pos = s at *
  have hranking := Candidate.ranked_pairwise settings.sortOrder settings.skipFuzzyIfExact
    (fun c d => d.kind = c.kind → s.MeetsBefore settings d c) horder
  have hperm := Candidate.ranked_perm settings.sortOrder settings.skipFuzzyIfExact store.regular
  have hkinds' : settings.skipFuzzyIfExact = true →
      ∃ kind, ∀ c ∈ Candidate.ranked settings.sortOrder settings.skipFuzzyIfExact store.regular,
        c.kind = kind := by
    intro hskip
    obtain ⟨kind, hall⟩ := hkinds hskip
    exact ⟨kind, fun c hc => hall c (hperm.mem_iff.mp hc)⟩
  have hresult := (hwell.sort settings.sortOrder settings.skipFuzzyIfExact).finalize
  refine ⟨_, hok, ?_⟩
  by_cases hnone : store.regular = []
  · left
    simp [CandidateStore.entries, CandidateStore.finalize, CandidateStore.sort, hnone, hfin,
      Candidate.ranked]
  · right
    have hfound : Candidate.ranked settings.sortOrder settings.skipFuzzyIfExact store.regular ≠ [] := by
      intro hnil
      rw [hnil] at hperm
      exact hnone hperm.symm.eq_nil
    have hclosed :
        (store.sort settings.sortOrder settings.skipFuzzyIfExact).finalize.finalized = true := by
      simp [CandidateStore.finalize, CandidateStore.sort, hfound]
    have hdistinct := hresult.nodup
    refine ⟨hfound, hclosed, ?_, ?_, hresult.texts_nodup, ?_, hkinds'⟩
    · rw [CandidateStore.entries, if_pos hclosed, ← hlast]
      exact congrArg (· ++ _) (exact_first hranking hkinds')
    · intro kind
      have hpairs := hranking.and (List.pairwise_map.mp hdistinct)
      refine List.Pairwise.imp_of_mem ?_ (hpairs.filter _)
      intro c d hc hd hcd
      have hc : c.kind = kind := by simpa using (List.mem_filter.mp hc).2
      have hd : d.kind = kind := by simpa using (List.mem_filter.mp hd).2
      exact offersBefore_of_outranks hcd.1 (hc.trans hd.symm) hcd.2
    · intro t ht
      exact hresult.ne_nil_of_mem_texts (by rw [← hlast] at htrailing; exact htrailing) ht

/-- Two exact matches at one distance, on both sides of the position, and a fuzzy one. -/
theorem candidates_ranked_fab :
    ∃ store, (atCaret [] "fab f     fob Fox".toList 5).candidates {}
        (wordAt [] "fab f     fob Fox".toList 5) = .ok store ∧
      store.entries = [⟨"fob".toList, 5, .exact⟩, ⟨"fab".toList, 5, .exact⟩,
        ⟨"Fox".toList, 9, .fuzzy⟩, ⟨"f".toList, 0, .exact⟩] ∧
      (atCaret [] "fab f     fob Fox".toList 5).Ranked {} (wordAt [] "fab f     fob Fox".toList 5)
        store := by
  obtain ⟨store, hstore, hranked⟩ := candidates_ranked [] "fab f     fob Fox".toList 5 {}
    (by decide) (by decide)
  have hscan : (atCaret [] "fab f     fob Fox".toList 5).candidates {}
      (wordAt [] "fab f     fob Fox".toList 5) = .ok
        { word := "f".toList, trailing := "f".toList, finalized := true,
          regular := [⟨"fob".toList, 5, .exact⟩, ⟨"fab".toList, 5, .exact⟩,
            ⟨"Fox".toList, 9, .fuzzy⟩] } := by decide +kernel
  obtain rfl := Except.ok.inj (hstore.symm.trans hscan)
  exact ⟨_, hstore, rfl, hranked.resolve_left fun h => List.cons_ne_nil _ _ h.1⟩

end Scan
end WordCycle
