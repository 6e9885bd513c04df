import WordCycle.Candidate.Store
import Mathlib.Data.List.Nodup
import Mathlib.Data.List.Perm.Basic

/-! The shape that every candidate store keeps: its texts are pairwise different, none of them is
empty, the word being completed or the trailing text, and a finalized store holds a candidate. So
the trailing text, which comes last, is no repetition either. -/

namespace WordCycle
set_option autoImplicit false

/-! ## Rankings -/

theorem Candidate.foldl_insertRanked_perm (order : SortOrder) (ignoreKinds : Bool)
    (found ranking : List Candidate) :
    (found.foldl (fun r c => c.insertRanked order ignoreKinds r) ranking).Perm
      (found ++ ranking) := by
  induction found generalizing ranking with
  | nil => exact .refl _
  | cons c found ih =>
    rw [List.foldl_cons]
    have hput := Candidate.insertRanked_perm order ignoreKinds c ranking
    exact ((ih _).trans (hput.append_left found)).trans List.perm_middle

theorem Candidate.ranked_perm (order : SortOrder) (ignoreKinds : Bool) (found : List Candidate) :
    (Candidate.ranked order ignoreKinds found).Perm found := by
  have h := Candidate.foldl_insertRanked_perm order ignoreKinds found []
  rwa [List.append_nil] at h

namespace CandidateStore

/-- The regular candidates without their distances. -/
def labels (s : CandidateStore) : List (Text × MatchKind) := s.regular.map fun c => (c.text, c.kind)

/-- Whether a text may be a regular candidate. -/
def Admits (s : CandidateStore) (t : Text) : Prop := t ≠ [] ∧ t ≠ s.word ∧ t ≠ s.trailing

/-- What every store keeps. -/
structure WellFormed (s : CandidateStore) : Prop where
  nodup : (s.regular.map Candidate.text).Nodup
  admitted : ∀ t ∈ s.regular.map Candidate.text, s.Admits t
  nonempty : s.finalized = true → s.regular ≠ []

theorem map_fst_labels (s : CandidateStore) :
    s.labels.map Prod.fst = s.regular.map Candidate.text := by
  rw [labels, List.map_map]
  rfl

theorem mem_labels (s : CandidateStore) (t : Text) (kind : MatchKind) :
    (t, kind) ∈ s.labels ↔ ∃ c ∈ s.regular, c.text = t ∧ c.kind = kind := by
  simp [labels]

/-- A text is of one kind only. -/
theorem WellFormed.kind_unique {s : CandidateStore} (h : s.WellFormed) {t : Text}
    {kind kind' : MatchKind} (hk : (t, kind) ∈ s.labels) (hk' : (t, kind') ∈ s.labels) :
    kind = kind' := by
  have hnodup : (s.labels.map Prod.fst).Nodup := s.map_fst_labels ▸ h.nodup
  exact (Prod.mk.inj (List.inj_on_of_nodup_map hnodup hk hk' rfl)).2

/-! ## Inserting -/

theorem find?_isSome (s : CandidateStore) (t : Text) :
    (s.find? t).isSome = true ↔ t ∈ s.regular.map Candidate.text := by
  simp [find?, List.find?_isSome]

theorem map_bringNearer {α : Type} (f : Candidate → α)
    (hf : ∀ c d, f { c with distance := d } = f c) (t : Text) (distance : Int)
    (l : List Candidate) : (bringNearer t distance l).map f = l.map f := by
  fun_induction bringNearer t distance l with
  | case1 => rfl
  | case2 c rest h => simp [hf]
  | case3 c rest h ih => rw [List.map_cons, List.map_cons, ih]

/-- A word becomes a new candidate if it may be one and is none yet. -/
theorem insert_fst (s : CandidateStore) (c : Candidate) :
    (s.insert c).1 = true ↔ s.Admits c.text ∧ c.text ∉ s.regular.map Candidate.text := by
  by_cases hfind : (s.find? c.text).isSome = true
  · have hmem := (s.find?_isSome c.text).mp hfind
    simp [insert, hfind, hmem]
  · have hmem : c.text ∉ s.regular.map Candidate.text :=
      fun h => hfind ((s.find?_isSome c.text).mpr h)
    unfold insert
    rw [if_neg hfind]
    split
    · next hout =>
      simp only [Bool.or_eq_true, decide_eq_true_eq] at hout
      simp only [Admits, Bool.false_eq_true, false_iff]
      tauto
    · next hout =>
      simp only [Bool.or_eq_true, decide_eq_true_eq] at hout
      simp only [Admits, true_iff]
      tauto

theorem labels_insert (s : CandidateStore) (c : Candidate) :
    (s.insert c).2.labels =
      s.labels ++ if (s.insert c).1 then [(c.text, c.kind)] else [] := by
  unfold insert
  split
  · simp [labels, map_bringNearer]
  · split <;> simp [labels]

theorem insert_word (s : CandidateStore) (c : Candidate) : (s.insert c).2.word = s.word := by
  unfold insert
  split
  · rfl
  · split <;> rfl

theorem insert_trailing (s : CandidateStore) (c : Candidate) :
    (s.insert c).2.trailing = s.trailing := by
  unfold insert
  split
  · rfl
  · split <;> rfl

theorem insert_finalized (s : CandidateStore) (c : Candidate) :
    (s.insert c).2.finalized = s.finalized := by
  unfold insert
  split
  · rfl
  · split <;> rfl

theorem insert_admits (s : CandidateStore) (c : Candidate) (t : Text) :
    (s.insert c).2.Admits t ↔ s.Admits t := by
  rw [Admits, Admits, insert_word, insert_trailing]

theorem texts_insert (s : CandidateStore) (c : Candidate) :
    (s.insert c).2.regular.map Candidate.text =
      s.regular.map Candidate.text ++ if (s.insert c).1 then [c.text] else [] := by
  rw [← map_fst_labels, ← map_fst_labels, labels_insert, List.map_append]
  split <;> rfl

/-! ## The shape is kept -/

theorem wellFormed_empty (word trailing : Text) : WellFormed { word, trailing } where
  nodup := List.nodup_nil
  admitted := by simp
  nonempty := by simp

theorem WellFormed.insert {s : CandidateStore} (h : s.WellFormed) (c : Candidate) :
    (s.insert c).2.WellFormed := by
  have htexts := s.texts_insert c
  by_cases hnew : (s.insert c).1 = true
  · obtain ⟨hadmits, hmem⟩ := (s.insert_fst c).mp hnew
    rw [hnew, if_pos rfl] at htexts
    refine ⟨?_, ?_, ?_⟩
    · rw [htexts, List.nodup_append]
      refine ⟨h.nodup, List.nodup_singleton _, ?_⟩
      rintro a ha b hb rfl
      exact hmem (List.mem_singleton.mp hb ▸ ha)
    · intro t ht
      rw [htexts, List.mem_append, List.mem_singleton] at ht
      rw [insert_admits]
      rcases ht with ht | rfl
      · exact h.admitted t ht
      · exact hadmits
    · intro _ hnil
      rw [hnil] at htexts
      simp at htexts
  · simp only [hnew, Bool.false_eq_true, ↓reduceIte, List.append_nil] at htexts
    refine ⟨htexts ▸ h.nodup, ?_, ?_⟩
    · intro t ht
      rw [insert_admits]
      exact h.admitted t (htexts ▸ ht)
    · intro hfin hnil
      rw [insert_finalized] at hfin
      rw [hnil, List.map_nil] at htexts
      exact h.nonempty hfin (List.map_eq_nil_iff.mp htexts.symm)

theorem WellFormed.sort {s : CandidateStore} (h : s.WellFormed) (order : SortOrder)
    (ignoreKinds : Bool) : (s.sort order ignoreKinds).WellFormed := by
  have hperm := Candidate.ranked_perm order ignoreKinds s.regular
  refine ⟨?_, ?_, ?_⟩
  · exact (hperm.map Candidate.text).nodup_iff.mpr h.nodup
  · intro t ht
    exact h.admitted t ((hperm.map Candidate.text).mem_iff.mp ht)
  · intro hfin hnil
    have hranked : Candidate.ranked order ignoreKinds s.regular = [] := hnil
    rw [hranked] at hperm
    exact h.nonempty hfin hperm.symm.eq_nil

theorem WellFormed.finalize {s : CandidateStore} (h : s.WellFormed) : s.finalize.WellFormed := by
  refine ⟨h.nodup, h.admitted, ?_⟩
  intro hfin hnil
  have hregular : s.regular = [] := hnil
  have hold : s.finalized = false := by
    cases hs : s.finalized with
    | false => rfl
    | true => exact absurd hregular (h.nonempty hs)
  simp [CandidateStore.finalize, hold, hregular] at hfin

/-! ## All entries -/

theorem texts_eq (s : CandidateStore) :
    s.texts = s.regular.map Candidate.text ++ if s.finalized then [s.trailing] else [] := by
  rw [texts, entries, List.map_append]
  split <;> rfl

theorem length_texts (s : CandidateStore) : s.texts.length = s.size := by
  rw [texts, List.length_map, length_entries]

theorem size_ne_zero_iff (s : CandidateStore) : s.size ≠ 0 ↔ s.texts ≠ [] := by
  rw [← length_texts, ne_eq, List.length_eq_zero_iff]

theorem finalized_of_size_ne_zero {s : CandidateStore} (h : s.finalized = !s.regular.isEmpty)
    (hsize : s.size ≠ 0) : s.finalized = true := by
  rw [h]
  cases hregular : s.regular with
  | nil =>
    rw [size, h, hregular] at hsize
    exact absurd rfl hsize
  | cons c rest => rfl

theorem WellFormed.ne_nil_of_mem_texts {s : CandidateStore} (h : s.WellFormed)
    (htrailing : s.trailing ≠ []) {t : Text} (ht : t ∈ s.texts) : t ≠ [] := by
  rw [texts_eq, List.mem_append] at ht
  rcases ht with ht | ht
  · exact (h.admitted t ht).1
  · split at ht
    · rw [List.mem_singleton.mp ht]
      exact htrailing
    · cases ht

theorem WellFormed.texts_nodup {s : CandidateStore} (h : s.WellFormed) : s.texts.Nodup := by
  rw [texts_eq, List.nodup_append]
  refine ⟨h.nodup, by split <;> simp, ?_⟩
  rintro a ha b hb rfl
  split at hb
  · exact (h.admitted a ha).2.2 (List.mem_singleton.mp hb)
  · cases hb

/-- What a ranked and closed store offers: its candidates and, if there are any, the trailing text. -/
theorem mem_texts_closed (s : CandidateStore) (order : SortOrder) (ignoreKinds : Bool)
    (h : s.finalized = false) (t : Text) :
    t ∈ (s.sort order ignoreKinds).finalize.texts ↔
      t ∈ s.regular.map Candidate.text ∨ s.regular ≠ [] ∧ t = s.trailing := by
  have hperm := Candidate.ranked_perm order ignoreKinds s.regular
  have hregular : (s.sort order ignoreKinds).finalize.regular =
      Candidate.ranked order ignoreKinds s.regular := rfl
  have htrailing : (s.sort order ignoreKinds).finalize.trailing = s.trailing := rfl
  have hclosed : (s.sort order ignoreKinds).finalize.finalized = true ↔ s.regular ≠ [] := by
    have hnil : Candidate.ranked order ignoreKinds s.regular = [] ↔ s.regular = [] := by
      rw [← List.length_eq_zero_iff, hperm.length_eq, List.length_eq_zero_iff]
    simp [CandidateStore.finalize, CandidateStore.sort, h, hnil]
  rw [texts_eq, List.mem_append, hregular, (hperm.map Candidate.text).mem_iff, htrailing, ← hclosed]
  split
  · next hfin => simp [hfin]
  · next hfin => simp [hfin]

theorem getLast?_texts (s : CandidateStore) (h : s.finalized = true) :
    s.texts.getLast? = some s.trailing := by
  rw [texts_eq, h, if_pos rfl, List.getLast?_concat]

end CandidateStore
end WordCycle
