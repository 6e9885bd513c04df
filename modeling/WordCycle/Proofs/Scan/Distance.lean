import WordCycle.Proofs.Scan.WholeWords
import WordCycle.Settings.Key

/-! How far from the caret candidates are found. The distance limit counts in whole units of 1024: with
one unit at least, no candidate lies farther away than the limit. A limit below one unit is none. -/

namespace WordCycle
set_option autoImplicit false

namespace CandidateStore

def Within (s : CandidateStore) (bound : Int) : Prop := ∀ c ∈ s.regular, c.distance ≤ bound

theorem within_bringNearer (text : Text) (distance bound : Int) (l : List Candidate)
    (h : ∀ c ∈ l, c.distance ≤ bound) : ∀ c ∈ bringNearer text distance l, c.distance ≤ bound := by
  fun_induction bringNearer text distance l with
  | case1 => exact h
  | case2 c rest htext =>
    rw [List.forall_mem_cons] at h ⊢
    exact ⟨Int.le_trans (Int.min_le_left _ _) h.1, h.2⟩
  | case3 c rest htext ih =>
    rw [List.forall_mem_cons] at h ⊢
    exact ⟨h.1, ih h.2⟩

theorem Within.insert {s : CandidateStore} {bound : Int} (h : s.Within bound) (c : Candidate)
    (hc : c.distance ≤ bound) : (s.insert c).2.Within bound := by
  unfold CandidateStore.insert
  split
  · exact within_bringNearer c.text c.distance bound s.regular h
  · split
    · exact h
    · intro d hd
      rcases List.mem_append.mp hd with hd | hd
      · exact h d hd
      · rw [List.mem_singleton.mp hd]
        exact hc

end CandidateStore

namespace Scan

/-! ## One pass -/

theorem collect_within {s : Scan} {kind : MatchKind} {limit added count : Nat} {bound : Int}
    {found : List Search.Occurrence} {store store' : CandidateStore} (hopen : store.finalized = false)
    (hfound : ∀ o ∈ found, ((s.pos - o.start).natAbs : Int) ≤ bound) (h : store.Within bound)
    (hcollect : s.collect kind limit found added store = .ok (count, store')) :
    store'.Within bound := by
  induction found generalizing added store with
  | nil =>
    obtain ⟨-, rfl⟩ := Prod.mk.inj (Except.ok.inj hcollect)
    exact h
  | cons o rest ih =>
    rw [List.forall_mem_cons] at hfound
    have hoffer : (s.offer kind o store).2.Within bound := by
      unfold offer
      split
      · exact h.insert (s.candidateAt kind o) hfound.1
      · exact h
    rw [collect_cons s kind limit o rest added store hopen] at hcollect
    split at hcollect
    · obtain ⟨-, rfl⟩ := Prod.mk.inj (Except.ok.inj hcollect)
      exact hoffer
    · exact ih (s.offer_collected kind limit o added store hopen).finalized hfound.2 hoffer hcollect

theorem distance_of_met (s : Scan) (settings : Settings) (kind : MatchKind) (pos : Nat)
    (hpos : s.pos = pos) (hle : pos ≤ s.text.length) (hkb : 0 < settings.distanceLimitKb)
    {found : List Search.Occurrence} (hfound : s.occurrences settings kind = .ok found)
    {o : Search.Occurrence} (ho : o ∈ found) :
    ((s.pos - o.start).natAbs : Int) ≤ settings.distanceLimitKb * 1024 := by
  by_cases htyped : s.typed = []
  · -- with nothing typed, nothing is searched for
    have hnone : (s.search kind).pattern = [] := by cases kind <;> simp [search, htyped]
    have hempty : s.occurrences settings kind = .ok [] := by
      simp [occurrences, Search.occurrences, hnone]
    obtain rfl := Except.ok.inj (hfound.symm.trans hempty)
    cases ho
  · obtain ⟨start, stop, hwin, hmet⟩ := s.occurrences_within settings kind pos hpos hle htyped
    obtain rfl := Except.ok.inj (hfound.symm.trans hmet)
    obtain ⟨hlow, hhigh, -⟩ := (s.search kind).fitsAt_of_mem_occurrencesFrom s.text _ _ _ ho
    have hpattern := List.length_pos_iff.mpr (s.search_pattern_ne_nil kind htyped)
    rw [Search.room] at hhigh
    rw [window, searchWindow, if_pos (by omega), Prod.mk.injEq] at hwin
    omega

/-! ## The whole scan -/

theorem candidates_of_limit (s : Scan) (settings : Settings) (word : Text) (limit : Nat)
    (h : limit / 1024 = settings.distanceLimit / 1024) :
    s.candidates { settings with distanceLimit := limit } word = s.candidates settings word := by
  simp only [candidates, pass, occurrences, Settings.distanceLimitKb, h]

/-- The candidates for the word before a position lie within the whole units of the distance limit, and so
within the limit, if there is one unit at least. A limit below one unit has the same effect as none. -/
theorem candidates_within_limit (extra text : Text) (pos : Nat) (settings : Settings)
    (hpos : pos ≤ text.length) :
    ∃ store, (atCaret extra text pos).candidates settings (wordAt extra text pos) = .ok store ∧
      (1024 ≤ settings.distanceLimit → ∀ c ∈ store.regular,
        c.distance ≤ settings.distanceLimitKb * 1024 ∧ c.distance ≤ settings.distanceLimit) ∧
      (settings.distanceLimit < 1024 →
        (atCaret extra text pos).candidates { settings with distanceLimit := 0 }
          (wordAt extra text pos) = .ok store) := by
  obtain ⟨found, found', count, store, count', store', hfound, hfound', hexact, hfuzzy, hok⟩ :=
    (atCaret extra text pos).candidates_collect settings (wordAt extra text pos) pos rfl hpos
  refine ⟨_, hok, ?_, ?_⟩
  · intro hunit c hc
    have hkb : 0 < settings.distanceLimitKb := by
      rw [Settings.distanceLimitKb]
      omega
    have hstore : store.Within (settings.distanceLimitKb * 1024) :=
      collect_within rfl (fun o ho => distance_of_met _ settings .exact pos rfl hpos hkb hfound ho)
        (by simp [CandidateStore.Within]) hexact
    have hopen := (collected_of_collect rfl hexact).finalized
    have hstore' : store'.Within (settings.distanceLimitKb * 1024) := by
      split at hfuzzy
      · exact collect_within hopen
          (fun o ho => distance_of_met _ settings .fuzzy pos rfl hpos hkb hfound' ho) hstore hfuzzy
      · rw [hfuzzy]
        exact hstore
    have hdistance := hstore' c ((Candidate.ranked_perm _ _ store'.regular).mem_iff.mp hc)
    refine ⟨hdistance, ?_⟩
    rw [Settings.distanceLimitKb] at hdistance
    omega
  · intro hbelow
    rw [candidates_of_limit _ settings _ 0 (by omega), hok]

theorem candidates_within_limit_far :
    ∃ store, (atCaret [] ("fox".toList ++ List.replicate 1100 ' ' ++ "fab f".toList) 1108).candidates
        { distanceLimit := 1500 }
        (wordAt [] ("fox".toList ++ List.replicate 1100 ' ' ++ "fab f".toList) 1108) = .ok store ∧
      store.texts = ["fab".toList, "f".toList] ∧ ∀ c ∈ store.regular, c.distance ≤ 1024 := by
  obtain ⟨store, hok, hlimit, -⟩ := candidates_within_limit []
    ("fox".toList ++ List.replicate 1100 ' ' ++ "fab f".toList) 1108 { distanceLimit := 1500 }
    (by decide +kernel)
  have hscan : (atCaret [] ("fox".toList ++ List.replicate 1100 ' ' ++ "fab f".toList) 1108).candidates
      { distanceLimit := 1500 }
      (wordAt [] ("fox".toList ++ List.replicate 1100 ' ' ++ "fab f".toList) 1108) = .ok
        { word := "f".toList, trailing := "f".toList, finalized := true,
          regular := [⟨"fab".toList, 5, .exact⟩] } := by
    decide +kernel
  obtain rfl := Except.ok.inj (hok.symm.trans hscan)
  exact ⟨_, hok, rfl, fun c hc => (hlimit (by decide) c hc).1⟩

/-- The limit of one is accepted as it is, but does not keep a word out that is six characters away. -/
theorem candidates_beyond_limit :
    ∃ settings store, Settings.set {} .distanceLimit (.int 1) = (settings, []) ∧
      settings.distanceLimit = 1 ∧
      (atCaret [] "foo fo".toList 6).candidates settings (wordAt [] "foo fo".toList 6) = .ok store ∧
      ∃ c ∈ store.regular, (settings.distanceLimit : Int) < c.distance := by
  have hscan : (atCaret [] "foo fo".toList 6).candidates { distanceLimit := 1 }
      (wordAt [] "foo fo".toList 6) = .ok
        { word := "fo".toList, trailing := "fo".toList, finalized := true,
          regular := [⟨"foo".toList, 6, .exact⟩] } := by
    decide +kernel
  exact ⟨{ distanceLimit := 1 }, _, by decide, rfl, hscan, _, List.mem_singleton_self _, by decide⟩

end Scan
end WordCycle
