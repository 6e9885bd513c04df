import WordCycle.Proofs.Candidate.Offers
import Mathlib.Data.List.Induction

/-! What requests one after the other make of a store of candidates. Each of its candidates goes back to
the request that inserted it: it has the kind that it was offered with there, and the least distance
of all offers of its text from there on. -/

namespace WordCycle.CandidateStore
set_option autoImplicit false

/-! ## Requests one after the other -/

/-- The store after a request. One that is refused leaves it as it is. -/
def next (s : CandidateStore) (c : Command) : CandidateStore :=
  match s.run c with
  | .ok (_, s') => s'
  | .error _ => s

def after (s : CandidateStore) (commands : List Command) : CandidateStore := commands.foldl next s

/-- The word that a request offers, if the store takes offers. -/
def offered (s : CandidateStore) : Command → List Candidate
  | .upsert c => if s.finalized then [] else [c]
  | _ => []

def offers (s : CandidateStore) : List Command → List Candidate
  | [] => []
  | c :: rest => s.offered c ++ (s.next c).offers rest

theorem after_concat (s : CandidateStore) (commands : List Command) (c : Command) :
    s.after (commands ++ [c]) = (s.after commands).next c :=
  List.foldl_concat next s c commands

theorem after_append (s : CandidateStore) (commands later : List Command) :
    s.after (commands ++ later) = (s.after commands).after later := List.foldl_append

theorem offers_concat (s : CandidateStore) (commands : List Command) (c : Command) :
    s.offers (commands ++ [c]) = s.offers commands ++ (s.after commands).offered c := by
  induction commands generalizing s with
  | nil => simp [offers, after]
  | cons first rest ih =>
    have hrest := ih (s.next first)
    rw [List.cons_append, offers, offers, hrest, List.append_assoc]
    rfl

/-! ## One request -/

section
variable {s : CandidateStore}

theorem next_upsert (h : s.finalized = false) (c : Candidate) :
    s.run (.upsert c) = .ok (.inserted (s.insert c).1, (s.insert c).2) ∧
      s.next (.upsert c) = (s.insert c).2 := by
  have hrun : s.run (.upsert c) = .ok (.inserted (s.insert c).1, (s.insert c).2) := by
    rw [run, upsert, h]
    rfl
  exact ⟨hrun, by rw [next, hrun]⟩

theorem next_upsert_of_finalized (h : s.finalized = true) (c : Candidate) :
    s.run (.upsert c) = .error .storeFinalized ∧ s.next (.upsert c) = s := by
  have hrun : s.run (.upsert c) = .error .storeFinalized := by
    rw [run, upsert, h]
    rfl
  exact ⟨hrun, by rw [next, hrun]⟩

theorem WellFormed.clear (s : CandidateStore) : s.clear.WellFormed :=
  ⟨List.nodup_nil, by simp [CandidateStore.clear], by simp [CandidateStore.clear]⟩

theorem next_word_trailing (s : CandidateStore) (c : Command) :
    (s.next c).word = s.word ∧ (s.next c).trailing = s.trailing := by
  cases c with
  | upsert w =>
    cases hfin : s.finalized with
    | false =>
      rw [(next_upsert hfin w).2]
      exact ⟨s.insert_word w, s.insert_trailing w⟩
    | true =>
      rw [(next_upsert_of_finalized hfin w).2]
      exact ⟨rfl, rfl⟩
  | _ => exact ⟨rfl, rfl⟩

theorem WellFormed.next (h : s.WellFormed) (c : Command) : (s.next c).WellFormed := by
  cases c with
  | upsert w =>
    cases hfin : s.finalized with
    | false =>
      rw [(next_upsert hfin w).2]
      exact h.insert w
    | true =>
      rw [(next_upsert_of_finalized hfin w).2]
      exact h
  | sort order ignoreKinds => exact h.sort order ignoreKinds
  | finalize => exact h.finalize
  | clear => exact WellFormed.clear s
  | find text => exact h
  | texts => exact h

theorem insert_of_new {c : Candidate} (h : (s.insert c).1 = true) :
    s.insert c = (true, { s with regular := s.regular ++ [c] }) := by
  unfold CandidateStore.insert at h ⊢
  split
  · next hold => simp [hold] at h
  · next hnew =>
    split
    · next hout => simp [hnew, hout] at h
    · rfl

theorem mem_insert {c d : Candidate} (hd : d ∈ (s.insert c).2.regular) :
    (d.text, d.kind) ∈ s.labels ∨ (s.insert c).1 = true ∧ d = c := by
  cases hnew : (s.insert c).1 with
  | false =>
    have hlabels := s.labels_insert c
    rw [hnew, if_neg Bool.false_ne_true, List.append_nil] at hlabels
    exact Or.inl (hlabels ▸ (mem_labels _ _ _).mpr ⟨d, hd, rfl, rfl⟩)
  | true =>
    rw [insert_of_new hnew] at hd
    rcases List.mem_append.mp hd with hd | hd
    · exact Or.inl ((s.mem_labels _ _).mpr ⟨d, hd, rfl, rfl⟩)
    · exact Or.inr ⟨rfl, List.mem_singleton.mp hd⟩

/-- Other than by clearing the store, a candidate of it was one before, of the same kind, or comes from
an offer that inserted it. Its distance is the least at which it was known or is offered. -/
theorem mem_next (h : s.WellFormed) {c : Command} (hc : c ≠ .clear) {d : Candidate}
    (hd : d ∈ (s.next c).regular) :
    IsLeast (distances (s.regular ++ s.offered c) d.text) d.distance ∧
      ((d.text, d.kind) ∈ s.labels ∨
        c = .upsert d ∧ s.run c = .ok (.inserted true, s.next c) ∧ s.offered c = [d]) := by
  -- without an offer the candidates are the same as before, up to their order
  have hsame (hoffered : s.offered c = []) (hmem : d ∈ s.regular) :
      IsLeast (distances (s.regular ++ s.offered c) d.text) d.distance ∧
        ((d.text, d.kind) ∈ s.labels ∨
          c = .upsert d ∧ s.run c = .ok (.inserted true, s.next c) ∧ s.offered c = [d]) := by
    rw [hoffered, List.append_nil, h.distances_eq hmem]
    exact ⟨isLeast_singleton, Or.inl ((s.mem_labels _ _).mpr ⟨d, hmem, rfl, rfl⟩)⟩
  cases c with
  | clear => exact absurd rfl hc
  | sort order ignoreKinds =>
    have hperm := Candidate.ranked_perm order ignoreKinds s.regular
    exact hsame rfl (hperm.mem_iff.mp hd)
  | find text => exact hsame rfl hd
  | texts => exact hsame rfl hd
  | finalize => exact hsame rfl hd
  | upsert w =>
    cases hfin : s.finalized with
    | true =>
      rw [(next_upsert_of_finalized hfin w).2] at hd
      exact hsame (by simp [offered, hfin]) hd
    | false =>
      obtain ⟨hrun, hnext⟩ := next_upsert hfin w
      have hoffered : s.offered (.upsert w) = [w] := by simp [offered, hfin]
      rw [hnext] at hd
      refine ⟨hoffered ▸ h.isLeast_insert w d hd, ?_⟩
      rcases mem_insert hd with hold | ⟨hnew, rfl⟩
      · exact Or.inl hold
      · exact Or.inr ⟨rfl, by rw [hrun, hnext, hnew], hoffered⟩

end

/-! ## Where candidates come from -/

/-- A request inserted a word, and later ones left it in the store: a candidate that has its text, its
kind, and the least distance of all offers of the text since. -/
structure Remains (s : CandidateStore) (earlier : List Command) (first : Candidate)
    (later : List Command) (d : Candidate) : Prop where
  inserted : (s.after earlier).run (.upsert first) =
    .ok (.inserted true, (s.after earlier).next (.upsert first))
  kept : .clear ∉ later
  text : first.text = d.text
  kind : first.kind = d.kind
  nearest : IsLeast (distances ((s.after earlier).offers (.upsert first :: later)) d.text) d.distance

/-- A candidate of a store after some requests goes back to one of them. -/
def GoesBack (s : CandidateStore) (commands : List Command) (d : Candidate) : Prop :=
  ∃ earlier first later, commands = earlier ++ .upsert first :: later ∧
    s.Remains earlier first later d

/-- The least distance at which a store knows a candidate is the least of the offers since it was
inserted, and so it is when one more request has brought it nearer. -/
theorem GoesBack.concat {s : CandidateStore} {commands : List Command} {c : Command}
    {old d : Candidate} (h : s.GoesBack commands old) (hc : c ≠ .clear)
    (hold : old ∈ (s.after commands).regular) (htext : old.text = d.text) (hkind : old.kind = d.kind)
    (hleast : IsLeast
      (distances ((s.after commands).regular ++ (s.after commands).offered c) d.text) d.distance)
    (hwell : (s.after commands).WellFormed) : s.GoesBack (commands ++ [c]) d := by
  obtain ⟨earlier, first, later, hcommands, hremains⟩ := h
  have hoffers := (s.after earlier).offers_concat (.upsert first :: later) c
  rw [← after_append, ← hcommands] at hoffers
  refine ⟨earlier, first, later ++ [c], by simp [hcommands], hremains.inserted, ?_,
    hremains.text.trans htext, hremains.kind.trans hkind, ?_⟩
  · simpa [hremains.kept] using hc.symm
  · rw [← List.cons_append, hoffers]
    have hknown := hwell.distances_eq hold
    rw [htext] at hknown
    exact isLeast_distances_append (htext ▸ hremains.nearest) (hknown ▸ isLeast_singleton) hleast

/-! ## Any requests -/

section
variable {s : CandidateStore}

theorem after_word_trailing (s : CandidateStore) (commands : List Command) :
    (s.after commands).word = s.word ∧ (s.after commands).trailing = s.trailing := by
  induction commands generalizing s with
  | nil => exact ⟨rfl, rfl⟩
  | cons c rest ih =>
    obtain ⟨hword, htrailing⟩ := s.next_word_trailing c
    exact ⟨(ih (s.next c)).1.trans hword, (ih (s.next c)).2.trans htrailing⟩

theorem WellFormed.after (h : s.WellFormed) (commands : List Command) :
    (s.after commands).WellFormed := by
  induction commands generalizing s with
  | nil => exact h
  | cons c rest ih => exact ih (h.next c)

theorem goesBack_after (h : s.WellFormed) (hempty : s.regular = []) (commands : List Command) :
    ∀ d ∈ (s.after commands).regular, s.GoesBack commands d := by
  induction commands using List.reverseRecOn with
  | nil =>
    intro d hd
    rw [after, List.foldl_nil, hempty] at hd
    cases hd
  | append_singleton commands c ih =>
    intro d hd
    have hwell := h.after commands
    rw [after_concat] at hd
    by_cases hc : c = .clear
    · subst hc
      cases hd
    · obtain ⟨hleast, hold | ⟨rfl, hrun, hoffered⟩⟩ := mem_next hwell hc hd
      · obtain ⟨old, hmem, htext, hkind⟩ := (mem_labels _ _ _).mp hold
        exact (ih old hmem).concat hc hmem htext hkind hleast hwell
      · refine ⟨commands, d, [], rfl, hrun, List.not_mem_nil, rfl, rfl, ?_⟩
        rw [offers, hoffered]
        simp [distances, offers]

end

/-- Whatever is asked of an empty store for a word and a trailing text, in any order: the texts of its
candidates are pairwise different, not empty and neither of these two, and every candidate goes back to
the request that inserted it. A finalized store has candidates, and the trailing entry behind them, and
refuses further words; any other says of a word whether it made the candidates more. -/
theorem candidates_go_back (word trailing : Text) (commands : List Command) :
    ∃ s, s = after { word, trailing } commands ∧
      (s.regular.map Candidate.text).Nodup ∧
      (∀ t ∈ s.regular.map Candidate.text, t ≠ [] ∧ t ≠ word ∧ t ≠ trailing) ∧
      (∀ d ∈ s.regular, GoesBack { word, trailing } commands d) ∧
      (if s.finalized then s.regular ≠ [] ∧ s.entries = s.regular ++ [⟨trailing, 0, .exact⟩]
        else s.entries = s.regular) ∧
      s.texts.Nodup ∧
      (∀ order ignoreKinds, ∃ ranking, ranking.Perm s.regular ∧
        s.run (.sort order ignoreKinds) = .ok (.nothing, { s with regular := ranking })) ∧
      ∀ c, if s.finalized then s.run (.upsert c) = .error .storeFinalized ∧ s.next (.upsert c) = s
        else ∃ isNew, s.run (.upsert c) = .ok (.inserted isNew, s.next (.upsert c)) ∧
          (isNew = true ↔ s.regular.length < (s.next (.upsert c)).regular.length) := by
  have hfresh := wellFormed_empty word trailing
  have hwell := hfresh.after commands
  have hback := goesBack_after hfresh rfl commands
  obtain ⟨hword, htrailing⟩ := after_word_trailing { word, trailing } commands
  refine ⟨_, rfl, hwell.nodup, ?_, hback, ?_, hwell.texts_nodup, ?_, ?_⟩
  · intro t ht
    have hadmitted := hwell.admitted t ht
    rwa [Admits, hword, htrailing] at hadmitted
  · split
    · next hfin => exact ⟨hwell.nonempty hfin, by rw [entries, hfin, htrailing]; rfl⟩
    · next hopen => rw [entries, if_neg hopen, List.append_nil]
  · intro order ignoreKinds
    exact ⟨_, Candidate.ranked_perm order ignoreKinds _, rfl⟩
  · intro c
    split
    · next hfin => exact next_upsert_of_finalized hfin c
    · next hopen =>
      rw [Bool.not_eq_true] at hopen
      obtain ⟨hrun, hnext⟩ := next_upsert hopen c
      rw [hnext, hrun, length_insert]
      refine ⟨_, rfl, ?_⟩
      cases (insert (after { word, trailing } commands) c).1 <;> simp

/-- The second offer comes nearer and the third does not; the kind is that of the first. -/
example :
    (after { word := "foxy".toList, trailing := "fo".toList }
      [.upsert ⟨"foo".toList, 10, .exact⟩, .upsert ⟨"foo".toList, 4, .fuzzy⟩,
        .upsert ⟨"fo".toList, 2, .exact⟩, .sort .byDistance false, .upsert ⟨"foo".toList, 7, .fuzzy⟩,
        .finalize, .upsert ⟨"fox".toList, 1, .exact⟩, .finalize]).entries =
      [⟨"foo".toList, 4, .exact⟩, ⟨"fo".toList, 0, .exact⟩] := by decide

end WordCycle.CandidateStore
