import WordCycle.Proofs.Scan.Collection
import WordCycle.Proofs.Text.LetterForms
import Mathlib.Data.Set.Card

/-! Which words a scan finds. As long as they are no more than the limit, it finds every word of the
text that a pass is looking for, and no other: the window may cut a word, but only behind what the
pass compares, and a word that begins before the window is none of it. -/

namespace WordCycle
set_option autoImplicit false

theorem mem_of_encard_le {α : Type} [DecidableEq α] (l : List α) (E : Set α) (n : Nat)
    (hl : l.Nodup) (hsub : ∀ t ∈ l, t ∈ E) (hcard : E.encard ≤ n) (hn : n ≤ l.length) :
    ∀ t ∈ E, t ∈ l := by
  have hsubset : (l.toFinset : Set α) ⊆ E := by
    intro t ht
    rw [List.coe_toFinset] at ht
    exact hsub t ht
  have hle : E.encard ≤ (l.toFinset : Set α).encard := by
    rw [Set.encard_coe_eq_coe_finsetCard, List.toFinset_card_of_nodup hl]
    exact hcard.trans (Nat.cast_le.mpr hn)
  have heq := (l.toFinset.finite_toSet).eq_of_subset_of_encard_le hsubset hle
  intro t ht
  rw [← heq, List.coe_toFinset] at ht
  exact ht

namespace Scan

/-- What a pass asks of a word that begins at `start`. The exact pass compares what was typed, which
has to lie in the window; the fuzzy pass compares the first letter and then the word. -/
def Seeks (s : Scan) (settings : Settings) (kind : MatchKind) (start : Nat) (w : Text) : Prop :=
  match kind with
  | .exact => s.typed <+: w ∧
      (s.window settings).1 ≤ start ∧ start + s.typed.length ≤ (s.window settings).2
  | .fuzzy => (∃ p ∈ s.typed.head?, ∃ c ∈ w.head?, sameLetter p c = true) ∧
      isFuzzyMatch s.typed w = true ∧
      (s.window settings).1 ≤ start ∧ start < (s.window settings).2

/-- A word that a pass is looking for: it stands somewhere in the text as a whole word, and is
neither the word being completed nor the trailing entry. -/
def Eligible (s : Scan) (settings : Settings) (word : Text) (kind : MatchKind) (w : Text) : Prop :=
  w ≠ word ∧ w ≠ s.trailing settings word ∧
    ∃ start, IsWholeWord s.extra s.text start w ∧ s.Seeks settings kind start w

/-- A store that holds just what a scan is looking for: the words of the exact pass alone if there
are any and these are to be enough, else those of both. -/
structure Finds (s : Scan) (settings : Settings) (word : Text) (store : CandidateStore) : Prop where
  distinct : (store.regular.map Candidate.text).Nodup
  exact_only : settings.skipFuzzyIfExact = true → (∃ v, s.Eligible settings word .exact v) →
    ∀ w, w ∈ store.regular.map Candidate.text ↔ s.Eligible settings word .exact w
  both : ¬(settings.skipFuzzyIfExact = true ∧ ∃ v, s.Eligible settings word .exact v) →
    ∀ w, w ∈ store.regular.map Candidate.text ↔
      s.Eligible settings word .exact w ∨ s.Eligible settings word .fuzzy w
  kinds : ∀ c ∈ store.regular, c.kind = .exact ↔ s.Eligible settings word .exact c.text

/-! ## What a pass meets -/

theorem exact_respectsWords (s : Scan) (h : ∀ c ∈ s.typed, isWordChar s.extra c = true) :
    (s.search .exact).RespectsWords where
  accepted := by
    intro p hp c hpc
    have hcp : c = p := by simpa [search, Search.accepts] using hpc
    exact hcp ▸ h p hp
  before _ := rfl

theorem beginsWith_iff_prefix (pattern rest : Text) :
    Search.beginsWith (fun p c => c == p) pattern rest = true ↔ pattern <+: rest := by
  induction pattern generalizing rest with
  | nil => simp [Search.beginsWith]
  | cons p pattern ih =>
    cases rest with
    | nil => simp [Search.beginsWith]
    | cons c rest =>
      rw [Search.beginsWith, Bool.and_eq_true, ih, beq_iff_eq, List.cons_prefix_cons, eq_comm]

theorem prefix_takeWhile_iff (p : Char → Bool) (typed rest : Text)
    (h : ∀ c ∈ typed, p c = true) : typed <+: rest.takeWhile p ↔ typed <+: rest := by
  constructor
  · exact fun hpre => hpre.trans (List.takeWhile_prefix p)
  · rintro ⟨behind, rfl⟩
    rw [List.takeWhile_append_of_pos h]
    exact List.prefix_append _ _

/-- How a word begins that a pass meets. -/
def Opens (s : Scan) (kind : MatchKind) (w : Text) : Prop :=
  match kind with
  | .exact => s.typed <+: w
  | .fuzzy => ∃ p ∈ s.typed.head?, ∃ c ∈ w.head?, sameLetter p c = true

theorem Opens.ne_nil {s : Scan} {kind : MatchKind} {w : Text} (h : s.Opens kind w)
    (hne : s.typed ≠ []) : w ≠ [] := by
  rintro rfl
  cases kind with
  | exact => exact hne (List.prefix_nil.mp h)
  | fuzzy =>
    obtain ⟨p, -, c, hc, -⟩ := h
    cases hc

theorem seeks_iff (s : Scan) (settings : Settings) (kind : MatchKind) (start : Nat) (w : Text)
    (hne : s.typed ≠ []) :
    s.Seeks settings kind start w ↔ s.Opens kind w ∧ s.fits kind w = true ∧
      (s.window settings).1 ≤ start ∧
      start + (s.search kind).pattern.length ≤ (s.window settings).2 := by
  cases kind with
  | exact => simp [Seeks, Opens, fits, search]
  | fuzzy =>
    obtain ⟨p, behind, hp⟩ := List.exists_cons_of_ne_nil hne
    have hlen : ((s.search .fuzzy).pattern.length : Int) = 1 := by simp [search, hp]
    rw [hlen, Int.add_one_le_iff]
    simp [Seeks, Opens, fits]

/-- Behind no word character, a match begins where the word that begins there opens as the pass
asks. -/
theorem beginsWith_iff_opens (s : Scan) (kind : MatchKind) (rest : Text)
    (htyped : ∀ c ∈ s.typed, isWordChar s.extra c = true) (hne : s.typed ≠ [])
    (hwords : (s.search kind).RespectsWords) :
    Search.beginsWith (s.search kind).accepts (s.search kind).pattern rest = true ↔
      s.Opens kind (rest.takeWhile (isWordChar s.extra)) := by
  cases kind with
  | exact =>
    rw [Opens, prefix_takeWhile_iff _ _ _ htyped]
    exact beginsWith_iff_prefix s.typed rest
  | fuzzy =>
    obtain ⟨p, behind, hp⟩ := List.exists_cons_of_ne_nil hne
    have hpattern : (s.search .fuzzy).pattern = [p] := by simp [search, hp]
    have haccepts : (s.search .fuzzy).accepts p = sameLetter p := rfl
    rw [hpattern, Opens]
    cases rest with
    | nil => simp [Search.beginsWith]
    | cons c rest =>
      have hword : sameLetter p c = true → isWordChar s.extra c = true := fun h =>
        hwords.accepted p (by rw [hpattern]; exact List.mem_singleton_self p) c h
      by_cases hc : isWordChar s.extra c = true
      · simp [Search.beginsWith, haccepts, hp, hc]
      · have hno : sameLetter p c = false := by
          rw [Bool.eq_false_iff]
          exact fun h => hc (hword h)
        simp [Search.beginsWith, haccepts, hp, hc, hno]

theorem met_iff (s : Scan) (settings : Settings) (kind : MatchKind)
    (found : List Search.Occurrence) (htyped : ∀ c ∈ s.typed, isWordChar s.extra c = true)
    (hne : s.typed ≠ []) (hwords : (s.search kind).RespectsWords)
    (hfound : ∀ o, o ∈ found ↔ (s.window settings).1 ≤ o.start ∧
      o.start + (s.search kind).pattern.length ≤ (s.window settings).2 ∧
      (s.search kind).fitsAt s.text o.start = true ∧
      o.word = (s.text.drop o.start).takeWhile (isWordChar s.extra)) (o : Search.Occurrence) :
    s.fits kind o.word = true ∧ o ∈ found ↔
      IsWholeWord s.extra s.text o.start o.word ∧ s.Seeks settings kind o.start o.word := by
  have hbefore : (s.search kind).wordBefore = isWordChar s.extra := funext hwords.before
  have hfits : (s.search kind).fitsAt s.text o.start = true ↔
      s.Opens kind ((s.text.drop o.start).takeWhile (isWordChar s.extra)) ∧
      (Search.charBefore s.text o.start).any (isWordChar s.extra) = false := by
    rw [← s.beginsWith_iff_opens kind _ htyped hne hwords, Search.fitsAt, Search.matchesAt, hbefore]
    simp [search]
  rw [hfound, isWholeWord_iff, s.seeks_iff settings kind o.start o.word hne, hfits]
  constructor
  · rintro ⟨htaken, hstart, hstop, ⟨hopens, hnone⟩, hword⟩
    rw [← hword] at hopens
    exact ⟨⟨hopens.ne_nil hne, hnone, hword.symm⟩, hopens, htaken, hstart, hstop⟩
  · rintro ⟨⟨-, hnone, hword⟩, hopens, htaken, hstart, hstop⟩
    rw [← hword] at hopens
    exact ⟨htaken, hstart, hstop, ⟨hopens, hnone⟩, hword.symm⟩

theorem exists_met_iff (s : Scan) (settings : Settings) (kind : MatchKind)
    (found : List Search.Occurrence) (htyped : ∀ c ∈ s.typed, isWordChar s.extra c = true)
    (hne : s.typed ≠ []) (hwords : (s.search kind).RespectsWords)
    (hfound : ∀ o, o ∈ found ↔ (s.window settings).1 ≤ o.start ∧
      o.start + (s.search kind).pattern.length ≤ (s.window settings).2 ∧
      (s.search kind).fitsAt s.text o.start = true ∧
      o.word = (s.text.drop o.start).takeWhile (isWordChar s.extra)) (w : Text) :
    (s.fits kind w = true ∧ ∃ o ∈ found, o.word = w) ↔
      ∃ start, IsWholeWord s.extra s.text start w ∧ s.Seeks settings kind start w := by
  have hmet := s.met_iff settings kind found htyped hne hwords hfound
  constructor
  · rintro ⟨htaken, o, ho, rfl⟩
    exact ⟨o.start, (hmet o).mp ⟨htaken, ho⟩⟩
  · rintro ⟨start, hseeks⟩
    obtain ⟨htaken, ho⟩ := (hmet ⟨start, w⟩).mpr hseeks
    exact ⟨htaken, ⟨start, w⟩, ho, rfl⟩

/-- A scan for a word of which some characters stand before a position inside the text. -/
structure ForWord (s : Scan) (pos : Nat) : Prop where
  pos_eq : s.pos = pos
  pos_le : pos ≤ s.text.length
  typed_ne_nil : s.typed ≠ []
  typed_word : ∀ c ∈ s.typed, isWordChar s.extra c = true

theorem forWord_atCaret {extra text : Text} {pos : Nat} (hpos : pos ≤ text.length)
    (htyped : typedAt extra text pos ≠ []) : (atCaret extra text pos).ForWord pos :=
  ⟨rfl, hpos, htyped, typedAt_word hpos⟩

theorem ForWord.head {s : Scan} {pos : Nat} {w : Text} (h : s.ForWord pos)
    (hbegins : s.typed <+: w) : ∃ d ∈ w.head?, isWordChar s.extra d = true := by
  obtain ⟨d, rest, hd⟩ := List.exists_cons_of_ne_nil h.typed_ne_nil
  obtain ⟨behind, rfl⟩ := hbegins
  refine ⟨d, by rw [hd]; rfl, h.typed_word d ?_⟩
  rw [hd]
  exact List.mem_cons_self

theorem ForWord.met_iff {s : Scan} {settings : Settings} {kind : MatchKind} {pos : Nat}
    (h : s.ForWord pos) (hwords : (s.search kind).RespectsWords) {found : List Search.Occurrence}
    (hfound : s.occurrences settings kind = .ok found) (o : Search.Occurrence) :
    s.fits kind o.word = true ∧ o ∈ found ↔
      IsWholeWord s.extra s.text o.start o.word ∧ s.Seeks settings kind o.start o.word := by
  obtain ⟨found', hfound', hmem⟩ := s.occurrences_ok settings kind pos h.pos_eq h.pos_le
  obtain rfl : found = found' := Except.ok.inj (hfound.symm.trans hfound')
  exact s.met_iff settings kind found h.typed_word h.typed_ne_nil hwords (hmem h.typed_ne_nil hwords) o

/-! ## What a pass collects -/

/-- A pass adds every word it is looking for, unless there are more of them than the limit. -/
theorem Collected.mem_texts {s : Scan} {settings : Settings} {word : Text} {kind : MatchKind}
    {found : List Search.Occurrence} {count : Nat} {store store' : CandidateStore}
    (h : s.Collected kind settings.candidatesLimit found 0 store count store')
    (hwell : store.WellFormed) (hword : store.word = word)
    (htrailing : store.trailing = s.trailing settings word)
    (hmet : ∀ w, (s.fits kind w = true ∧ ∃ o ∈ found, o.word = w) ↔
      ∃ start, IsWholeWord s.extra s.text start w ∧ s.Seeks settings kind start w)
    (hknown : ∀ t ∈ store.regular.map Candidate.text, ∃ k, s.Eligible settings word k t)
    (hlimit : {w | ∃ k, s.Eligible settings word k w}.encard ≤ settings.candidatesLimit)
    (w : Text) :
    w ∈ store'.regular.map Candidate.text ↔
      w ∈ store.regular.map Candidate.text ∨ s.Eligible settings word kind w := by
  obtain ⟨new, hlabels, hcount, hnew⟩ := h.news
  have hwell' := h.wellFormed hwell
  have htexts : store'.regular.map Candidate.text = store.regular.map Candidate.text ++ new := by
    rw [← store'.map_fst_labels, hlabels, List.map_append, store.map_fst_labels, List.map_map]
    simp [Function.comp_def]
  have hsound : ∀ t ∈ new, s.Eligible settings word kind t := by
    intro t ht
    have hadmits := hwell'.admitted t (htexts ▸ List.mem_append_right _ ht)
    rw [CandidateStore.Admits, h.word, h.trailing, hword, htrailing] at hadmits
    exact ⟨hadmits.2.1, hadmits.2.2, (hmet t).mp (hnew t ht)⟩
  constructor
  · intro ht
    rw [htexts, List.mem_append] at ht
    exact ht.imp_right (hsound w)
  · rintro (ht | ht)
    · rw [htexts]
      exact List.mem_append_left _ ht
    · rcases h.complete with hfull | hall
      · -- The limit is reached: the texts kept are already all that is looked for.
        refine mem_of_encard_le _ _ _ hwell'.nodup ?_ hlimit ?_ w ⟨kind, ht⟩
        · intro t ht
          rw [htexts, List.mem_append] at ht
          exact ht.elim (hknown t) fun ht => ⟨kind, hsound t ht⟩
        · rw [htexts, List.length_append]
          omega
      · obtain ⟨hne, hne', start, hwhole, hseeks⟩ := ht
        obtain ⟨hfits, o, ho, rfl⟩ := (hmet w).mpr ⟨start, hwhole, hseeks⟩
        refine hall o ho hfits ⟨hwhole.1, ?_, ?_⟩
        · rw [hword]
          exact hne
        · rw [htrailing]
          exact hne'

theorem Collected.exact_iff {s : Scan} {limit count : Nat} {found : List Search.Occurrence}
    {word trailing : Text} {store store' : CandidateStore}
    (hexact : s.Collected .exact limit found 0 { word, trailing } count store)
    (hrest : store' = store ∨ ∃ found' count', s.Collected .fuzzy limit found' 0 store count' store')
    (t : Text) (kind : MatchKind) (ht : (t, kind) ∈ store'.labels) :
    kind = .exact ↔ t ∈ store.regular.map Candidate.text := by
  obtain ⟨new, hlabels, -, -⟩ := hexact.news
  have hexacts : ∀ k, (t, k) ∈ store.labels → k = .exact := by
    intro k hk
    rw [hlabels] at hk
    obtain ⟨t', -, heq⟩ := List.mem_map.mp hk
    exact (Prod.mk.inj heq).2.symm
  have hwell := hexact.wellFormed (CandidateStore.wellFormed_empty word trailing)
  rw [← store.map_fst_labels, List.mem_map]
  rcases hrest with rfl | ⟨found', count', hfuzzy⟩
  · exact ⟨fun _ => ⟨(t, kind), ht, rfl⟩, fun _ => hexacts kind ht⟩
  · obtain ⟨new', hlabels', -, -⟩ := hfuzzy.news
    constructor
    · rintro rfl
      rw [hlabels', List.mem_append] at ht
      rcases ht with ht | ht
      · exact ⟨_, ht, rfl⟩
      · obtain ⟨t', -, heq⟩ := List.mem_map.mp ht
        cases (Prod.mk.inj heq).2
    · rintro ⟨⟨t', k⟩, hk, rfl⟩
      have hk' : (t', k) ∈ store'.labels := hlabels' ▸ List.mem_append_left _ hk
      rw [(hfuzzy.wellFormed hwell).kind_unique ht hk', hexacts k hk]

/-! ## Where the assumptions hold -/

/-- Without extra word characters the fuzzy pass keeps to words if all forms of the first letter
are word characters. -/
theorem fuzzy_respectsWords (s : Scan) (p : Char) (rest : Text) (hextra : s.extra = [])
    (htyped : s.typed = p :: rest)
    (hzero : (lowerForms (lowerChar p)).all (fun d => d.toNat != 0) = true)
    (hforms : (letterForms p).all (isWordChar []) = true) :
    (s.search .fuzzy).RespectsWords := by
  have hpattern : (s.search .fuzzy).pattern = [p] := by simp [search, htyped]
  constructor
  · intro q hq c hc
    rw [hpattern, List.mem_singleton] at hq
    subst hq
    have hsame : sameLetter q c = true := hc
    have hnonzero : ∀ d ∈ lowerForms (lowerChar q), d.toNat ≠ 0 := by
      intro d hd
      exact bne_iff_ne.mp (List.all_eq_true.mp hzero d hd)
    rw [search, hextra]
    exact List.all_eq_true.mp hforms c (mem_letterForms q c hsame hnonzero)
  · intro c
    simp [Search.wordBefore, Search.lowersBefore, search, hextra]

/-- A scan looks for no more words than its text has characters. -/
theorem eligible_encard_le (s : Scan) (settings : Settings) (word : Text) :
    {w | ∃ kind, s.Eligible settings word kind w}.encard ≤ s.text.length := by
  let words := (List.range s.text.length).map fun start =>
    (s.text.drop start).takeWhile (isWordChar s.extra)
  have hsub : {w | ∃ kind, s.Eligible settings word kind w} ⊆ (words.toFinset : Set Text) := by
    rintro w ⟨kind, -, -, start, hwhole, -⟩
    obtain ⟨hne, -, hword⟩ := (isWholeWord_iff _ _ _ _).mp hwhole
    have hlt : start < s.text.length := by
      by_contra hge
      rw [List.drop_eq_nil_of_le (by omega)] at hword
      exact hne hword.symm
    rw [List.coe_toFinset]
    exact List.mem_map.mpr ⟨start, List.mem_range.mpr hlt, hword⟩
  calc {w | ∃ kind, s.Eligible settings word kind w}.encard
      ≤ (words.toFinset : Set Text).encard := Set.encard_le_encard hsub
    _ = (words.toFinset.card : ℕ∞) := Set.encard_coe_eq_coe_finsetCard _
    _ ≤ (words.length : ℕ∞) := Nat.cast_le.mpr (List.toFinset_card_le words)
    _ = s.text.length := by rw [List.length_map, List.length_range]

/-! ## The whole scan -/

/-- If no more words are looked for than the limit allows, and ignoring case does not mix word
characters with others, the scan for the word before a position finds each of them once. -/
theorem candidates_complete (extra text : Text) (pos : Nat) (settings : Settings)
    (hpos : pos ≤ text.length) (htyped : typedAt extra text pos ≠ [])
    (hcase : ((atCaret extra text pos).search .fuzzy).RespectsWords)
    (hlimit : {w | ∃ kind, (atCaret extra text pos).Eligible settings (wordAt extra text pos)
      kind w}.encard ≤ settings.candidatesLimit) :
    ∃ store, (atCaret extra text pos).candidates settings (wordAt extra text pos) = .ok store ∧
      (atCaret extra text pos).Finds settings (wordAt extra text pos) store := by
  generalize hs : atCaret extra text pos = s at *
  generalize wordAt extra text pos = word at *
  have hword : ∀ c ∈ s.typed, isWordChar s.extra c = true := by
    obtain ⟨before, typed, rest, behind, hcut⟩ := exists_wordCut extra text pos hpos
    rw [← hs, atCaret, hcut.typedAt_eq]
    exact hcut.typed_word
  have hne : s.typed ≠ [] := hs ▸ htyped
  have hspos : s.pos = pos := by rw [← hs, atCaret]
  have hsle : pos ≤ s.text.length := by rw [← hs]; exact hpos
  obtain ⟨found, found', count, store, count', store', hfound, hfound', hexact, hfuzzy, hok⟩ :=
    s.candidates_passes settings word pos hspos hsle
  have hmet (kind : MatchKind) (hwords : (s.search kind).RespectsWords) (l : List Search.Occurrence)
      (hl : s.occurrences settings kind = .ok l) (w : Text) :
      (s.fits kind w = true ∧ ∃ o ∈ l, o.word = w) ↔
        ∃ start, IsWholeWord s.extra s.text start w ∧ s.Seeks settings kind start w := by
    obtain ⟨l', hl', hmem⟩ := s.occurrences_ok settings kind pos hspos hsle
    obtain rfl : l = l' := Except.ok.inj (hl.symm.trans hl')
    exact s.exists_met_iff settings kind l hword hne hwords (hmem hne hwords) w
  have hwell := CandidateStore.wellFormed_empty word (s.trailing settings word)
  have hexacts (w : Text) : w ∈ store.regular.map Candidate.text ↔
      s.Eligible settings word .exact w := by
    rw [hexact.mem_texts hwell rfl rfl (hmet .exact (s.exact_respectsWords hword) found hfound)
      (by simp) hlimit w]
    simp
  -- The count of the exact pass tells whether there is any word for it.
  have hcount : count = 0 ↔ ¬∃ v, s.Eligible settings word .exact v := by
    obtain ⟨new, hlabels, hnew, -⟩ := hexact.news
    have hlen : (store.regular.map Candidate.text).length = count := by
      rw [← store.map_fst_labels, hlabels]
      simp [hnew, CandidateStore.labels]
    rw [← hlen, List.length_eq_zero_iff, List.eq_nil_iff_forall_not_mem]
    simp only [hexacts, not_exists]
  have hfinal (w : Text) :
      w ∈ (store'.sort settings.sortOrder settings.skipFuzzyIfExact).finalize.regular.map
        Candidate.text ↔ w ∈ store'.regular.map Candidate.text :=
    ((Candidate.ranked_perm _ _ store'.regular).map Candidate.text).mem_iff
  have hrest : store' = store ∨
      ∃ l n, s.Collected .fuzzy settings.candidatesLimit l 0 store n store' := by
    split at hfuzzy
    · exact Or.inr ⟨found', count', hfuzzy⟩
    · exact Or.inl hfuzzy
  have hwell' : store'.WellFormed := by
    rcases hrest with rfl | ⟨l, n, h⟩
    · exact hexact.wellFormed hwell
    · exact h.wellFormed (hexact.wellFormed hwell)
  refine ⟨_, hok, ((hwell'.sort _ _).finalize).nodup, ?_, ?_, ?_⟩
  · intro hskip hany w
    have hstop : ¬(count = 0 || !settings.skipFuzzyIfExact) = true := by
      simp [hskip, hcount, hany]
    rw [if_neg hstop] at hfuzzy
    rw [hfinal, hfuzzy, hexacts]
  · intro hboth w
    have hgoes : (count = 0 || !settings.skipFuzzyIfExact) = true := by
      simp only [Bool.or_eq_true, decide_eq_true_eq, hcount, Bool.not_eq_true']
      by_cases hskip : settings.skipFuzzyIfExact = true
      · exact Or.inl fun hany => hboth ⟨hskip, hany⟩
      · exact Or.inr (Bool.not_eq_true _ ▸ hskip)
    rw [if_pos hgoes] at hfuzzy
    rw [hfinal, hfuzzy.mem_texts (hexact.wellFormed hwell) hexact.word hexact.trailing
      (hmet .fuzzy hcase found' hfound') (fun t ht => ⟨.exact, (hexacts t).mp ht⟩) hlimit w, hexacts]
  · intro c hc
    have hmem : c ∈ store'.regular := (Candidate.ranked_perm _ _ store'.regular).mem_iff.mp hc
    have hlabel : (c.text, c.kind) ∈ store'.labels := (store'.mem_labels _ _).mpr ⟨c, hmem, rfl, rfl⟩
    rw [hexact.exact_iff hrest c.text c.kind hlabel, hexacts]

/-- Behind the first word of `fo foo FOX` both passes find a word. -/
theorem candidates_complete_fo :
    ∃ store, (atCaret [] "fo foo FOX".toList 2).candidates {} (wordAt [] "fo foo FOX".toList 2) =
      .ok store ∧
      (atCaret [] "fo foo FOX".toList 2).Finds {} (wordAt [] "fo foo FOX".toList 2) store := by
  refine candidates_complete [] "fo foo FOX".toList 2 {} (by decide) (by decide) ?_ ?_
  · exact fuzzy_respectsWords _ 'f' ['o'] rfl (by decide) (by decide) (by decide)
  · exact (eligible_encard_le _ _ _).trans (Nat.cast_le.mpr (by decide))

end Scan
end WordCycle
