import WordCycle.Proofs.Scan.WholeWords

/-! Which of the words that begin with what was typed count as exact matches. Both passes search the same
window, but the exact one for all that was typed and the fuzzy one for its first letter. So where the end
of the window cuts off a word that begins as typed, the fuzzy pass alone meets it. -/

namespace WordCycle
set_option autoImplicit false

namespace Scan

theorem Collected.mem_texts_iff {s : Scan} {settings : Settings} {word : Text} {pos count : Nat}
    {found : List Search.Occurrence} {middle : CandidateStore} (hs : s.ForWord pos)
    (hfound : s.occurrences settings .exact = .ok found)
    (h : s.Collected .exact settings.candidatesLimit found 0
      { word, trailing := s.trailing settings word } count middle)
    (hroom : count < settings.candidatesLimit) (t : Text)
    (ht : t ≠ [] ∧ t ≠ word ∧ t ≠ s.trailing settings word) :
    t ∈ middle.regular.map Candidate.text ↔
      ∃ start, IsWholeWord s.extra s.text start t ∧ s.Seeks settings .exact start t := by
  have hmet := hs.met_iff (s.exact_respectsWords hs.typed_word) hfound
  constructor
  · intro hmem
    obtain ⟨new, hlabels, -, hnew⟩ := h.news
    rw [← middle.map_fst_labels, hlabels] at hmem
    have hmem : t ∈ new := by simpa [CandidateStore.labels] using hmem
    obtain ⟨hfits, o, ho, rfl⟩ := hnew t hmem
    exact ⟨o.start, (hmet o).mp ⟨hfits, ho⟩⟩
  · rintro ⟨start, hseeks⟩
    obtain ⟨hfits, ho⟩ := (hmet ⟨start, t⟩).mpr hseeks
    exact (h.complete.resolve_left (Nat.ne_of_lt hroom)) ⟨start, t⟩ ho hfits ht

theorem ForWord.exists_wholeWord {s : Scan} {settings : Settings} {word : Text} {pos : Nat}
    {store : CandidateStore} (hs : s.ForWord pos) (hok : s.candidates settings word = .ok store)
    {c : Candidate} (hc : c ∈ store.regular) (hbegins : s.typed <+: c.text) :
    ∃ start : Nat, IsWholeWord s.extra s.text start c.text ∧
      (s.window settings).1 ≤ start ∧ start < (s.window settings).2 := by
  obtain ⟨store', hok', hmet⟩ := s.candidates_met settings word pos hs.pos_eq hs.pos_le
  obtain rfl := Except.ok.inj (hok'.symm.trans hok)
  obtain ⟨found, hfound, -, o, ho, hsame⟩ := hmet c hc
  obtain ⟨hlow, hhigh, -, hwhole⟩ := s.isWholeWord_of_met settings c.kind pos hs.pos_eq hs.pos_le
    hs.typed_ne_nil hs.typed_word hfound ho
  rw [hsame] at hwhole
  exact ⟨o.start, hwhole (Or.inr (hs.head hbegins)), hlow, hhigh⟩

theorem ForWord.exact_iff_of_room {s : Scan} {settings : Settings} {word : Text} {pos count : Nat}
    {middle store : CandidateStore} (hs : s.ForWord pos)
    (hpass : s.pass settings .exact { word, trailing := s.trailing settings word } = .ok (count, middle))
    (hok : s.candidates settings word = .ok store) (hroom : count < settings.candidatesLimit)
    {c : Candidate} (hc : c ∈ store.regular) (hbegins : s.typed <+: c.text) :
    c.kind = .exact ↔ ∃ start : Nat, IsWholeWord s.extra s.text start c.text ∧
      (s.window settings).1 ≤ start ∧ start + s.typed.length ≤ (s.window settings).2 := by
  obtain ⟨found, found', count', middle', count'', last, hfound, -, hexact, hfuzzy, hranked⟩ :=
    s.candidates_collect settings word pos hs.pos_eq hs.pos_le
  have hpass' := pass_of_collect hfound hexact
  obtain ⟨rfl, rfl⟩ := Prod.mk.inj (Except.ok.inj (hpass'.symm.trans hpass))
  have hcollected := collected_of_collect rfl hexact
  have hrest : last = middle' ∨
      ∃ l n, s.Collected .fuzzy settings.candidatesLimit l 0 middle' n last := by
    split at hfuzzy
    · exact Or.inr ⟨found', count'', collected_of_collect hcollected.finalized hfuzzy⟩
    · exact Or.inl hfuzzy
  obtain ⟨store', hok', hwell, hword, htrailing, -⟩ :=
    s.candidates_ok settings word pos hs.pos_eq hs.pos_le
  obtain rfl := Except.ok.inj (hok'.symm.trans hok)
  have hadmits := hwell.admitted c.text (List.mem_map_of_mem hc)
  rw [CandidateStore.Admits, hword, htrailing] at hadmits
  obtain rfl := Except.ok.inj (hranked.symm.trans hok)
  have hmem : c ∈ last.regular := (Candidate.ranked_perm _ _ last.regular).mem_iff.mp hc
  have hlabel := (last.mem_labels _ _).mpr ⟨c, hmem, rfl, rfl⟩
  rw [hcollected.exact_iff hrest c.text c.kind hlabel,
    hcollected.mem_texts_iff hs hfound hroom c.text hadmits]
  simp only [Seeks, hbegins, true_and]

/-- As long as the exact pass has not filled its room, a candidate that begins with what was typed is an
exact match if and only if it stands in the window as a whole word with its typed part inside. In a
window that reaches to the end of the text it always is. -/
theorem candidates_kinds (extra text : Text) (pos : Nat) (settings : Settings)
    (hpos : pos ≤ text.length) (htyped : typedAt extra text pos ≠ []) :
    ∃ count middle store,
      (atCaret extra text pos).pass settings .exact
        { word := wordAt extra text pos,
          trailing := (atCaret extra text pos).trailing settings (wordAt extra text pos) } =
        .ok (count, middle) ∧
      (atCaret extra text pos).candidates settings (wordAt extra text pos) = .ok store ∧
      (count < settings.candidatesLimit → ∀ c ∈ store.regular, typedAt extra text pos <+: c.text →
        (∃ start : Nat, IsWholeWord extra text start c.text ∧
          ((atCaret extra text pos).window settings).1 ≤ start ∧
          start < ((atCaret extra text pos).window settings).2) ∧
        (c.kind = .exact ↔ ∃ start : Nat, IsWholeWord extra text start c.text ∧
          ((atCaret extra text pos).window settings).1 ≤ start ∧
          start + (typedAt extra text pos).length ≤ ((atCaret extra text pos).window settings).2) ∧
        (((atCaret extra text pos).window settings).2 = text.length → c.kind = .exact)) := by
  have hs := forWord_atCaret hpos htyped
  obtain ⟨found, _, count, middle, _, _, hfound, -, hexact, -⟩ :=
    (atCaret extra text pos).candidates_collect settings (wordAt extra text pos) pos rfl hpos
  have hpass := pass_of_collect hfound hexact
  obtain ⟨store, hok, -⟩ :=
    (atCaret extra text pos).candidates_ok settings (wordAt extra text pos) pos rfl hpos
  refine ⟨count, middle, store, hpass, hok, ?_⟩
  intro hroom c hc hbegins
  have hwindow := hs.exists_wholeWord hok hc hbegins
  have hkind := hs.exact_iff_of_room hpass hok hroom hc hbegins
  refine ⟨hwindow, hkind, ?_⟩
  intro hend
  obtain ⟨start, hwhole, hlow, -⟩ := hwindow
  refine hkind.mpr ⟨start, hwhole, hlow, ?_⟩
  have hinside : start + c.text.length ≤ text.length := hwhole.end_le
  have hlength : (atCaret extra text pos).typed.length ≤ c.text.length := hbegins.length_le
  omega

/-- Two words with blanks between them. -/
def apart (first : String) (blanks : Nat) (second : String) : Text :=
  first.toList ++ List.replicate blanks ' ' ++ second.toList

theorem candidates_kinds_fob :
    ∃ count middle store,
      (atCaret [] (apart "fo fob" 1019 "foobar") 2).pass { distanceLimit := 1024 } .exact
        { word := "fo".toList, trailing := "fo".toList } = .ok (count, middle) ∧ count < 12 ∧
      (atCaret [] (apart "fo fob" 1019 "foobar") 2).candidates { distanceLimit := 1024 } "fo".toList =
        .ok store ∧
      store.regular = [⟨"fob".toList, 1, .exact⟩, ⟨"foobar".toList, 1023, .fuzzy⟩] ∧
      ∀ c ∈ store.regular, c.kind = .exact ↔ ∃ start : Nat,
        IsWholeWord [] (apart "fo fob" 1019 "foobar") start c.text ∧
        (0 : Int) ≤ start ∧ start + (2 : Nat) ≤ (1026 : Int) := by
  have htyped : typedAt [] (apart "fo fob" 1019 "foobar") 2 = "fo".toList := by decide +kernel
  have hword : wordAt [] (apart "fo fob" 1019 "foobar") 2 = "fo".toList := by decide +kernel
  have hwindow : (atCaret [] (apart "fo fob" 1019 "foobar") 2).window { distanceLimit := 1024 } =
      (0, 1026) := by
    decide +kernel
  obtain ⟨count, middle, store, hpass, hok, hkinds⟩ := candidates_kinds [] (apart "fo fob" 1019 "foobar")
    2 { distanceLimit := 1024 } (by decide +kernel) (by rw [htyped]; decide)
  have htrailing : (atCaret [] (apart "fo fob" 1019 "foobar") 2).trailing { distanceLimit := 1024 }
      "fo".toList = "fo".toList := by
    rw [trailing, if_neg (by decide), atCaret, htyped]
  rw [hword] at hpass hok
  rw [htrailing] at hpass
  rw [htyped, hwindow] at hkinds
  have hrun : (atCaret [] (apart "fo fob" 1019 "foobar") 2).pass { distanceLimit := 1024 } .exact
      { word := "fo".toList, trailing := "fo".toList } = .ok (1,
        { word := "fo".toList, trailing := "fo".toList,
          regular := [⟨"fob".toList, 1, .exact⟩] }) := by
    decide +kernel
  have hscan : (atCaret [] (apart "fo fob" 1019 "foobar") 2).candidates { distanceLimit := 1024 }
      "fo".toList = .ok
        { word := "fo".toList, trailing := "fo".toList, finalized := true,
          regular := [⟨"fob".toList, 1, .exact⟩, ⟨"foobar".toList, 1023, .fuzzy⟩] } := by
    decide +kernel
  obtain ⟨rfl, rfl⟩ := Prod.mk.inj (Except.ok.inj (hpass.symm.trans hrun))
  obtain rfl := Except.ok.inj (hok.symm.trans hscan)
  refine ⟨_, _, _, hrun, by decide, hscan, rfl, ?_⟩
  intro c hc
  have hbegins : "fo".toList <+: c.text := by
    revert c
    decide
  exact (hkinds (by decide) c hc hbegins).2.1

/-- A word that begins as typed counts as a fuzzy match if the window ends behind its first letter, though
the exact pass has room. -/
theorem candidates_kinds_cut :
    ∃ count middle store,
      (atCaret [] (apart "fo" 1023 "foobar") 2).pass { distanceLimit := 1024 } .exact
        { word := "fo".toList, trailing := "fo".toList } = .ok (count, middle) ∧ count < 12 ∧
      (atCaret [] (apart "fo" 1023 "foobar") 2).candidates { distanceLimit := 1024 }
        (wordAt [] (apart "fo" 1023 "foobar") 2) = .ok store ∧
      ∃ c ∈ store.regular, c.kind = .fuzzy ∧ typedAt [] (apart "fo" 1023 "foobar") 2 <+: c.text := by
  have hrun : (atCaret [] (apart "fo" 1023 "foobar") 2).pass { distanceLimit := 1024 } .exact
      { word := "fo".toList, trailing := "fo".toList } =
      .ok (0, { word := "fo".toList, trailing := "fo".toList }) := by
    decide +kernel
  have hscan : (atCaret [] (apart "fo" 1023 "foobar") 2).candidates { distanceLimit := 1024 }
      (wordAt [] (apart "fo" 1023 "foobar") 2) = .ok
        { word := "fo".toList, trailing := "fo".toList, finalized := true,
          regular := [⟨"foobar".toList, 1023, .fuzzy⟩] } := by
    decide +kernel
  exact ⟨_, _, _, hrun, by decide, hscan, _, List.mem_singleton_self _, rfl, by decide +kernel⟩

end Scan
end WordCycle
