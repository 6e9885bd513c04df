import WordCycle.Proofs.Candidate.Offers
import WordCycle.Proofs.Scan.WholeWords

/-! One pass of a scan, word by word. The positions at which the window shows what the pass searches for
are visited in the order of the text, none twice; the words there are offered to the store one after the
other, up to the one that makes the last new candidate allowed. -/

namespace WordCycle
set_option autoImplicit false

/-! ## The search, begun again behind each word -/

namespace Search

theorem exists_drop_eq_cons (text : Text) {pos : Nat} (h : pos < text.length) :
    ∃ c rest, text.drop pos = c :: rest ∧ text.drop (pos + 1) = rest :=
  ⟨text[pos], text.drop (pos + 1), List.drop_eq_getElem_cons h, rfl⟩

/-- Once the word met last is passed, where it ended is of no account. -/
theorem occurrencesFrom_resume (s : Search) (tries pos resume : Nat) (before : Option Char)
    (rest : Text) (h : resume ≤ pos) :
    s.occurrencesFrom tries pos resume before rest = s.occurrencesFrom tries pos 0 before rest := by
  induction tries generalizing pos before rest with
  | zero => rfl
  | succ tries ih =>
    cases rest with
    | nil => rfl
    | cons c rest =>
      rw [occurrencesFrom, occurrencesFrom, ih (pos + 1) (some c) rest (by omega)]
      simp only [h, Nat.zero_le, decide_true]

theorem occurrencesFrom_skip (s : Search) (text : Text) (tries pos resume n : Nat)
    (hresume : pos + n ≤ resume) (hlen : resume ≤ text.length) :
    s.occurrencesFrom tries pos resume (charBefore text pos) (text.drop pos) =
      s.occurrencesFrom (tries - n) (pos + n) resume (charBefore text (pos + n))
        (text.drop (pos + n)) := by
  induction n generalizing tries pos with
  | zero => rfl
  | succ n ih =>
    cases tries with
    | zero => rw [Nat.zero_sub, occurrencesFrom, occurrencesFrom]
    | succ tries =>
      have hpassed : ¬resume ≤ pos := by omega
      obtain ⟨c, rest, hdrop, hrest⟩ := exists_drop_eq_cons text (show pos < text.length by omega)
      have hlater := ih tries (pos + 1) (by omega)
      rw [charBefore_succ text pos c rest hdrop, hrest] at hlater
      rw [hdrop, occurrencesFrom]
      simp only [hpassed, decide_false, Bool.false_and, Bool.false_eq_true, ↓reduceIte, hlater]
      rw [show pos + 1 + n = pos + (n + 1) by omega, show tries + 1 - (n + 1) = tries - n by omega]

theorem occurrencesFrom_first (s : Search) (text : Text) (tries pos : Nat) :
    s.occurrencesFrom tries pos 0 (charBefore text pos) (text.drop pos) =
      match s.firstFrom tries pos (charBefore text pos) (text.drop pos) with
      | none => []
      | some i => ⟨i, s.wordHere (text.drop i)⟩ ::
          s.occurrencesFrom (pos + tries - (i + 1)) (i + 1) (i + (s.wordHere (text.drop i)).length)
            (charBefore text (i + 1)) (text.drop (i + 1)) := by
  induction tries generalizing pos with
  | zero => rfl
  | succ tries ih =>
    cases hdrop : text.drop pos with
    | nil => rfl
    | cons c rest =>
      have hrest : text.drop (pos + 1) = rest := by
        rw [← List.drop_drop, hdrop, List.drop_one, List.tail_cons]
      have hbefore := charBefore_succ text pos c rest hdrop
      rw [occurrencesFrom, firstFrom]
      by_cases hmatch : s.matchesAt (charBefore text pos) (c :: rest) = true
      · rw [hmatch]
        simp only [Nat.zero_le, decide_true, Bool.and_true, ↓reduceIte, hdrop, hrest, hbefore]
        rw [show pos + (tries + 1) - (pos + 1) = tries by omega]
      · have hlater := ih (pos + 1)
        rw [hbefore, hrest] at hlater
        simp only [hmatch, Bool.and_false, Bool.false_eq_true, ↓reduceIte, hlater]
        rw [show pos + 1 + tries = pos + (tries + 1) by omega]

theorem wordHere_eq_slice (s : Search) (text : Text) (pos : Nat) :
    s.wordHere (text.drop pos) =
      text.slice pos (wordEndAt s.extra text (pos + s.pattern.length)) := by
  have hrun := List.prefix_iff_eq_take.mp (List.takeWhile_prefix (isWordChar s.extra)
    (l := text.drop (pos + s.pattern.length)))
  have hlen (n : Nat) : pos + s.pattern.length + n - pos = s.pattern.length + n := by omega
  rw [Text.slice_natCast, wordEndAt, hlen, List.take_add, List.drop_drop, ← hrun, wordHere,
    List.drop_drop]

theorem wordHere_length (s : Search) (hne : s.pattern ≠ []) (text : Text) (pos : Nat)
    (h : s.fitsAt text pos = true) :
    0 < (s.wordHere (text.drop pos)).length ∧
      pos + (s.wordHere (text.drop pos)).length ≤ text.length := by
  have hlt : pos < text.length := by
    by_contra hge
    rw [s.fitsAt_eq_false_of_length_le hne text pos (by omega)] at h
    cases h
  have hpattern := List.length_pos_iff.mpr hne
  have hle := (s.wordHere_prefix (text.drop pos)).length_le
  have htake : ((text.drop pos).take s.pattern.length).length ≤
      (s.wordHere (text.drop pos)).length := by
    rw [wordHere, List.length_append]
    exact Nat.le_add_right _ _
  rw [List.length_take, List.length_drop] at htake
  rw [List.length_drop] at hle
  omega

theorem occurrencesFrom_behind (s : Search) (text : Text) (tries pos n stop : Nat) (hpos : 0 < n)
    (hend : pos + n ≤ text.length) (htries : tries - (n - 1) = s.room (pos + n) stop) :
    s.occurrencesFrom tries (pos + 1) (pos + n) (charBefore text (pos + 1)) (text.drop (pos + 1)) =
      s.occurrencesWithin text (pos + n) stop := by
  have hskip := s.occurrencesFrom_skip text tries (pos + 1) (pos + n) (n - 1) (by omega) hend
  rw [htries, show pos + 1 + (n - 1) = pos + n by omega] at hskip
  rw [hskip, s.occurrencesFrom_resume _ (pos + n) (pos + n) _ _ (Nat.le_refl _), occurrencesWithin]

/-- The words met within bounds are those of a repeated search: the word at the first match, and then
those met from its end on. -/
theorem occurrencesWithin_eq (s : Search) (hne : s.pattern ≠ []) (text : Text) (start stop : Nat) :
    s.occurrencesWithin text start stop =
      match s.firstWithin text start stop with
      | none => []
      | some i => ⟨i, s.wordHere (text.drop i)⟩ ::
          s.occurrencesWithin text (i + (s.wordHere (text.drop i)).length) stop := by
  have hall := s.occurrencesFrom_first text (s.room start stop) start
  rw [occurrencesWithin, hall, firstWithin]
  cases hfirst : s.firstFrom (s.room start stop) start (charBefore text start) (text.drop start) with
  | none => rfl
  | some i =>
    rw [hfirst] at hall
    have hmem : ⟨i, s.wordHere (text.drop i)⟩ ∈ s.occurrencesFrom (s.room start stop) start 0
        (charBefore text start) (text.drop start) := by
      rw [hall]
      exact List.mem_cons_self
    obtain ⟨hle, hlt, hfits, -⟩ := s.fitsAt_of_mem_occurrencesFrom text _ start 0 hmem
    obtain ⟨hpos, hend⟩ := s.wordHere_length hne text i hfits
    have htries : start + s.room start stop - (i + 1) - ((s.wordHere (text.drop i)).length - 1) =
        s.room (i + (s.wordHere (text.drop i)).length) stop := by
      simp only [room] at hle hlt ⊢
      omega
    simp only [s.occurrencesFrom_behind text _ i _ stop hpos hend htries]

end Search

namespace Scan

/-! ## Collecting -/

/-- The words met that fit, as the candidates they are offered as. -/
def fitting (s : Scan) (kind : MatchKind) (found : List Search.Occurrence) : List Candidate :=
  (found.map (s.candidateAt kind)).filter fun c => s.fits kind c.text

/-- A pass that has room for new candidates offers the fitting words until the room is used up. The
induction is on the words met; what it keeps is that there is room left. -/
theorem collect_offersUntil (s : Scan) (kind : MatchKind) (limit : Nat)
    (found : List Search.Occurrence) (added : Nat) (store : CandidateStore)
    (h : store.finalized = false) (hroom : added < limit) :
    ∃ taken count store', s.collect kind limit found added store = .ok (added + count, store') ∧
      CandidateStore.OffersUntil (limit - added)
        ((found.map (s.candidateAt kind)).filter fun c => s.fits kind c.text) store taken count
        store' := by
  induction found generalizing added store with
  | nil => exact ⟨0, 0, store, rfl, CandidateStore.offersUntil_nil _ store⟩
  | cons o rest ih =>
    rw [collect_cons s kind limit o rest added store h, offer]
    by_cases hfits : s.fits kind o.word = true
    · have hwords : ((o :: rest).map (s.candidateAt kind)).filter (fun c => s.fits kind c.text) =
          s.candidateAt kind o ::
            (rest.map (s.candidateAt kind)).filter fun c => s.fits kind c.text :=
        List.filter_cons_of_pos hfits
      rw [if_pos hfits, hwords]
      have hfin := (store.insert_finalized (s.candidateAt kind o)).trans h
      split
      · next hfull =>
        -- there was room before, so the pass is full only if this word is a new candidate
        have hnew : (store.insert (s.candidateAt kind o)).1 = true := by
          cases hnew : (store.insert (s.candidateAt kind o)).1 with
          | true => rfl
          | false =>
            rw [hnew, Bool.toNat_false] at hfull
            omega
        have hlast : limit - added = 1 := by
          rw [hnew, Bool.toNat_true] at hfull
          omega
        rw [hlast, hnew]
        exact ⟨1, 1, _, rfl, CandidateStore.offersUntil_stop _ _ store h hnew⟩
      · next hgoes =>
        have hle := Bool.toNat_le (store.insert (s.candidateAt kind o)).1
        obtain ⟨taken, count, store', hcollect, hrest⟩ := ih
          (added + (store.insert (s.candidateAt kind o)).1.toNat) _ hfin (by omega)
        rw [← Nat.sub_sub] at hrest
        refine ⟨taken + 1, _, store', ?_, hrest.cons h (by omega)⟩
        rw [hcollect, Nat.add_assoc]
    · have hwords : ((o :: rest).map (s.candidateAt kind)).filter (fun c => s.fits kind c.text) =
          (rest.map (s.candidateAt kind)).filter fun c => s.fits kind c.text :=
        List.filter_cons_of_neg hfits
      rw [if_neg hfits, hwords, Bool.toNat_false, Nat.add_zero, if_neg (by omega)]
      exact ih added store h hroom

/-- What a pass offers to a store: the fitting words that it meets, in their order, up to the one that
fills the room for new candidates. -/
structure PassOffers (s : Scan) (settings : Settings) (kind : MatchKind) (store : CandidateStore)
    (offers : List Candidate) (count : Nat) (store' : CandidateStore) : Prop where
  result : s.pass settings kind store = .ok (count, store')
  made : ∃ found taken, s.occurrences settings kind = .ok found ∧
    offers = (s.fitting kind found).take taken ∧
    CandidateStore.OffersUntil settings.candidatesLimit (s.fitting kind found) store taken count store'

theorem exists_passOffers (s : Scan) (settings : Settings) (kind : MatchKind) (store : CandidateStore)
    (pos : Nat) (hpos : s.pos = pos) (hle : pos ≤ s.text.length) (hopen : store.finalized = false)
    (hlimit : 1 ≤ settings.candidatesLimit) :
    ∃ offers count store', s.PassOffers settings kind store offers count store' := by
  obtain ⟨found, hfound, -⟩ := s.occurrences_ok settings kind pos hpos hle
  obtain ⟨taken, count, store', hcollect, hoffers⟩ :=
    s.collect_offersUntil kind settings.candidatesLimit found 0 store hopen hlimit
  rw [Nat.zero_add] at hcollect
  exact ⟨_, count, store', pass_of_collect hfound hcollect, found, taken, hfound, rfl, hoffers⟩

theorem PassOffers.eq_insertAll {s : Scan} {settings : Settings} {kind : MatchKind}
    {store store' : CandidateStore} {offers : List Candidate} {count : Nat}
    (h : s.PassOffers settings kind store offers count store') (hopen : store.finalized = false) :
    store' = store.insertAll offers := by
  obtain ⟨found, taken, -, rfl, hoffers⟩ := h.made
  exact hoffers.eq_insertAll hopen

theorem PassOffers.eq_of_room {s : Scan} {settings : Settings} {kind : MatchKind}
    {store store' : CandidateStore} {offers : List Candidate} {count : Nat}
    (h : s.PassOffers settings kind store offers count store')
    (hroom : count < settings.candidatesLimit) :
    ∃ found, s.occurrences settings kind = .ok found ∧ offers = s.fitting kind found := by
  obtain ⟨found, taken, hfound, rfl, hoffers⟩ := h.made
  refine ⟨found, hfound, ?_⟩
  rw [hoffers.exhausted hroom, List.take_length]

/-- What a scan offers to its store: what the exact pass offers, and then, unless that pass is to be
skipped, what the fuzzy one does. The outcome is ranked and closed. -/
structure ScanOffers (s : Scan) (settings : Settings) (word : Text) (offers : List Candidate)
    (count : Nat) (middle : CandidateStore) (offers' : List Candidate) (count' : Nat)
    (last : CandidateStore) : Prop where
  exact : s.PassOffers settings .exact { word, trailing := s.trailing settings word } offers count middle
  fuzzy : if count = 0 || !settings.skipFuzzyIfExact then
      s.PassOffers settings .fuzzy middle offers' count' last
    else offers' = [] ∧ last = middle
  ranked : s.candidates settings word =
    .ok (last.sort settings.sortOrder settings.skipFuzzyIfExact).finalize

theorem exists_scanOffers (s : Scan) (settings : Settings) (word : Text) (pos : Nat)
    (hpos : s.pos = pos) (hle : pos ≤ s.text.length) (hlimit : 1 ≤ settings.candidatesLimit) :
    ∃ offers count middle offers' count' last,
      s.ScanOffers settings word offers count middle offers' count' last := by
  obtain ⟨offers, count, middle, hexact⟩ := s.exists_passOffers settings .exact
    { word, trailing := s.trailing settings word } pos hpos hle rfl hlimit
  have hopen : middle.finalized = false := by
    rw [hexact.eq_insertAll rfl, CandidateStore.insertAll_finalized]
  obtain ⟨offers', count', last, hfuzzy⟩ :=
    s.exists_passOffers settings .fuzzy middle pos hpos hle hopen hlimit
  by_cases hgoes : (count = 0 || !settings.skipFuzzyIfExact) = true
  · refine ⟨offers, count, middle, offers', count', last, hexact, by rwa [if_pos hgoes], ?_⟩
    refine candidates_of_passes hexact.result ?_
    rw [if_pos hgoes]
    exact ⟨count', hfuzzy.result⟩
  · refine ⟨offers, count, middle, [], 0, middle, hexact, by rw [if_neg hgoes]; exact ⟨rfl, rfl⟩, ?_⟩
    refine candidates_of_passes hexact.result ?_
    rw [if_neg hgoes]

/-- Together the passes make of the empty store what all their offers make of it. -/
theorem ScanOffers.eq_insertAll {s : Scan} {settings : Settings} {word : Text}
    {offers offers' : List Candidate} {count count' : Nat} {middle last : CandidateStore}
    (h : s.ScanOffers settings word offers count middle offers' count' last) :
    middle = CandidateStore.insertAll { word, trailing := s.trailing settings word } offers ∧
      last = CandidateStore.insertAll { word, trailing := s.trailing settings word }
        (offers ++ offers') := by
  have hmiddle := h.exact.eq_insertAll rfl
  refine ⟨hmiddle, ?_⟩
  rw [CandidateStore.insertAll_append, ← hmiddle]
  have hfuzzy := h.fuzzy
  split at hfuzzy
  · refine hfuzzy.eq_insertAll ?_
    rw [hmiddle, CandidateStore.insertAll_finalized]
  · rw [hfuzzy.1]
    exact hfuzzy.2

/-! ## Where a pass meets words -/

/-- Whether the text shows at a position what a pass searches for: what was typed, or its first letter in
either case. -/
def ShowsAt (s : Scan) (kind : MatchKind) (start : Nat) : Prop :=
  match kind with
  | .exact => s.text.slice start (start + s.typed.length : Nat) = s.typed
  | .fuzzy => ∃ p ∈ s.typed.head?, ∃ c ∈ s.text[start]?, sameLetter p c = true

/-- A position of the window at which a pass meets a word: what it searches for stands there, behind no
word character. -/
structure IsStart (s : Scan) (settings : Settings) (kind : MatchKind) (start : Nat) : Prop where
  low : (s.window settings).1 ≤ start
  high : start + (s.search kind).pattern.length ≤ (s.window settings).2
  shows : s.ShowsAt kind start
  outside_word : (Search.charBefore s.text start).any (isWordChar s.extra) = false

/-- What a pass offers from a position: the text up to the end of the word there. -/
def candidateFrom (s : Scan) (kind : MatchKind) (start : Nat) : Candidate :=
  ⟨s.text.slice start (wordEndAt s.extra s.text (start + (s.search kind).pattern.length)),
    (s.pos - start).natAbs, kind⟩

theorem beginsWith_iff_showsAt (s : Scan) (kind : MatchKind) (start : Nat) (hne : s.typed ≠ []) :
    Search.beginsWith (s.search kind).accepts (s.search kind).pattern (s.text.drop start) = true ↔
      s.ShowsAt kind start := by
  cases kind with
  | exact =>
    have hbegins := beginsWith_iff_prefix s.typed (s.text.drop start)
    refine hbegins.trans ?_
    rw [ShowsAt, Text.slice_natCast, Nat.add_sub_cancel_left, List.prefix_iff_eq_take, eq_comm]
  | fuzzy =>
    obtain ⟨p, behind, hp⟩ := List.exists_cons_of_ne_nil hne
    have hpattern : (s.search .fuzzy).pattern = [p] := by simp [search, hp]
    have haccepts : (s.search .fuzzy).accepts p = sameLetter p := rfl
    rw [hpattern, ShowsAt, hp, ← List.head?_drop]
    cases s.text.drop start with
    | nil => simp [Search.beginsWith]
    | cons c rest => simp [Search.beginsWith, haccepts]

theorem fitsAt_iff (s : Scan) (kind : MatchKind) (start : Nat) (hne : s.typed ≠ [])
    (hwords : (s.search kind).RespectsWords) :
    (s.search kind).fitsAt s.text start = true ↔ s.ShowsAt kind start ∧
      (Search.charBefore s.text start).any (isWordChar s.extra) = false := by
  have hbefore : (s.search kind).wordBefore = isWordChar s.extra := funext hwords.before
  rw [← s.beginsWith_iff_showsAt kind start hne, Search.fitsAt, Search.matchesAt, hbefore]
  simp [search]

theorem candidateAt_occurrenceAt (s : Scan) (kind : MatchKind) (start : Nat)
    (hwords : (s.search kind).RespectsWords) (hfits : (s.search kind).fitsAt s.text start = true) :
    s.candidateAt kind ((s.search kind).occurrenceAt s.text start) = s.candidateFrom kind start := by
  rw [Search.fitsAt, Search.matchesAt, Bool.and_eq_true] at hfits
  have hword := (s.search kind).wordHere_eq_slice s.text start
  rw [Search.wordHere_eq_takeWhile _ hwords _ hfits.1] at hword
  rw [candidateAt, candidateFrom, Search.occurrenceAt, hword]
  rfl

theorem exists_starts (s : Scan) (settings : Settings) (kind : MatchKind) (pos : Nat)
    (hpos : s.pos = pos) (hle : pos ≤ s.text.length) (hne : s.typed ≠ [])
    (hwords : (s.search kind).RespectsWords) :
    ∃ starts : List Nat, starts.Pairwise (· < ·) ∧
      (∀ start, start ∈ starts ↔ s.IsStart settings kind start) ∧
      ∃ found, s.occurrences settings kind = .ok found ∧
        found.map (s.candidateAt kind) = starts.map (s.candidateFrom kind) := by
  obtain ⟨start, stop, hwin, hfound⟩ := s.occurrences_within settings kind pos hpos hle hne
  have hpattern := s.search_pattern_ne_nil kind hne
  have hall := (s.search kind).occurrencesFrom_eq hwords (by cases kind <;> rfl) hpattern s.text
    ((s.search kind).room start stop) start 0 (fun q _ hq => absurd hq (Nat.not_lt_zero q))
  refine ⟨(List.range' start ((s.search kind).room start stop)).filter
    ((s.search kind).fitsAt s.text), ?_, ?_, _, hfound, ?_⟩
  · exact List.Pairwise.filter _ List.pairwise_lt_range'
  · intro o
    have hlen := List.length_pos_iff.mpr hpattern
    rw [List.mem_filter, List.mem_range'_1, Search.room, s.fitsAt_iff kind o hne hwords]
    constructor
    · rintro ⟨⟨hlow, hhigh⟩, hshows, hbefore⟩
      refine ⟨?_, ?_, hshows, hbefore⟩
      · rw [hwin]
        exact Int.ofNat_le.mpr hlow
      · rw [hwin]
        simp only
        omega
    · rintro ⟨hlow, hhigh, hshows, hbefore⟩
      rw [hwin] at hlow hhigh
      simp only at hlow hhigh
      exact ⟨⟨by omega, by omega⟩, hshows, hbefore⟩
  · rw [Search.occurrencesWithin, hall, List.map_map]
    refine List.map_congr_left ?_
    intro o ho
    exact s.candidateAt_occurrenceAt kind o hwords (List.mem_filter.mp ho).2

/-! ## The whole pass -/

/-- From a position inside the text a pass is not refused. It visits the starts in the window in their
order, each once, and offers the words there as far as they fit, until they have brought as many new
candidates as the limit, which is at least one in all valid settings. It answers with the number of
these. -/
theorem pass_enumerates (s : Scan) (settings : Settings) (kind : MatchKind) (store : CandidateStore)
    (pos : Nat) (hpos : s.pos = pos) (hle : pos ≤ s.text.length) (hne : s.typed ≠ [])
    (htyped : ∀ c ∈ s.typed, isWordChar s.extra c = true)
    (hcase : kind = .fuzzy → (s.search .fuzzy).RespectsWords) (hopen : store.finalized = false)
    (hlimit : 1 ≤ settings.candidatesLimit) :
    ∃ starts : List Nat, starts.Pairwise (· < ·) ∧
      (∀ start, start ∈ starts ↔ s.IsStart settings kind start) ∧
      ∃ taken count store', s.pass settings kind store = .ok (count, store') ∧
        CandidateStore.OffersUntil settings.candidatesLimit
          ((starts.map (s.candidateFrom kind)).filter fun c => s.fits kind c.text) store taken count
          store' := by
  have hwords : (s.search kind).RespectsWords := by
    cases kind with
    | exact => exact s.exact_respectsWords htyped
    | fuzzy => exact hcase rfl
  obtain ⟨starts, hordered, hstarts, found, hfound, hmet⟩ :=
    s.exists_starts settings kind pos hpos hle hne hwords
  obtain ⟨taken, count, store', hcollect, hoffers⟩ :=
    s.collect_offersUntil kind settings.candidatesLimit found 0 store hopen hlimit
  rw [Nat.zero_add] at hcollect
  rw [hmet] at hoffers
  refine ⟨starts, hordered, hstarts, taken, count, store', ?_, hoffers⟩
  rw [pass, hfound]
  exact hcollect

/-- The second `Fa` brings no new candidate, so the third new one is met fourth, and the word at the caret
is not offered any more. -/
theorem pass_enumerates_repeated :
    ∃ starts : List Nat, starts.Pairwise (· < ·) ∧
      (∀ start, start ∈ starts ↔ (atCaret [] "Fa fb Fa fc f".toList 13).IsStart
        { candidatesLimit := 3 } .fuzzy start) ∧
      ∃ taken store', (atCaret [] "Fa fb Fa fc f".toList 13).pass { candidatesLimit := 3 } .fuzzy {} =
          .ok (3, store') ∧
        store'.regular =
          [⟨"Fa".toList, 7, .fuzzy⟩, ⟨"fb".toList, 10, .fuzzy⟩, ⟨"fc".toList, 4, .fuzzy⟩] ∧
        CandidateStore.OffersUntil 3
          ((starts.map ((atCaret [] "Fa fb Fa fc f".toList 13).candidateFrom .fuzzy)).filter fun c =>
            (atCaret [] "Fa fb Fa fc f".toList 13).fits .fuzzy c.text) {} taken 3 store' := by
  have htyped : (atCaret [] "Fa fb Fa fc f".toList 13).typed = ['f'] := by decide +kernel
  obtain ⟨starts, hordered, hstarts, taken, count, store', hpass, hoffers⟩ :=
    pass_enumerates (atCaret [] "Fa fb Fa fc f".toList 13) { candidatesLimit := 3 } .fuzzy {} 13 rfl
      (by decide) (by decide) (by rw [htyped]; exact List.forall_mem_singleton.mpr (by decide))
      (fun _ => fuzzy_respectsWords _ 'f' [] rfl (by decide) (by decide) (by decide)) rfl (by decide)
  have hrun : (atCaret [] "Fa fb Fa fc f".toList 13).pass { candidatesLimit := 3 } .fuzzy {} =
      .ok (3, { regular := [⟨"Fa".toList, 7, .fuzzy⟩, ⟨"fb".toList, 10, .fuzzy⟩,
        ⟨"fc".toList, 4, .fuzzy⟩] }) := by
    decide +kernel
  obtain ⟨rfl, rfl⟩ := Prod.mk.inj (Except.ok.inj (hpass.symm.trans hrun))
  exact ⟨starts, hordered, hstarts, taken, _, hrun, rfl, hoffers⟩

end Scan
end WordCycle
