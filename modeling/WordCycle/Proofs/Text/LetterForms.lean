import WordCycle.Text.LetterCase

/-! The characters that stand for one letter. A run of the lower case table is undone by its
offset, so all characters that a search ignoring case can accept for a given one are computed from
the tables. -/

namespace WordCycle
set_option autoImplicit false

/-- The code points that the runs may send to the given one. -/
def CodeRun.sources (runs : List CodeRun) (n : Nat) : List Nat :=
  runs.filterMap fun run =>
    let source := (n - run.offset : Int).toNat
    if run.first ≤ source && source ≤ run.last then some source else none

theorem CodeRun.mem_sources (runs : List CodeRun) (n m : Nat) (h : find? runs n = some m)
    (hm : m ≠ 0) : n ∈ sources runs m := by
  fun_induction find? runs n with
  | case1 => cases h
  | case2 => cases h
  | case3 run rest n hfirst hlast hstep =>
    have hsum : (n + run.offset).toNat = m := Option.some.inj h
    have hsource : (m - run.offset : Int).toNat = n := by omega
    have hrange : (run.first ≤ n && n ≤ run.last) = true := by
      rw [Bool.and_eq_true, decide_eq_true_eq, decide_eq_true_eq]
      omega
    rw [sources, List.mem_filterMap]
    refine ⟨run, List.mem_cons_self, ?_⟩
    simp only [hsource, hrange, ↓reduceIte]
  | case4 => cases h
  | case5 run rest n hfirst hlast ih =>
    obtain ⟨run', hrun, hsource⟩ := List.mem_filterMap.mp (ih h)
    exact List.mem_filterMap.mpr ⟨run', List.mem_cons_of_mem run hrun, hsource⟩

/-- The characters whose lower case form is the given one. -/
def raisedForms (c : Char) : List Char :=
  c :: (CodeRun.sources loweringRuns c.toNat).map Char.ofNat

/-- The characters that a search ignoring case may accept for the given one. -/
def letterForms (p : Char) : List Char :=
  p :: (lowerForms (lowerChar p)).flatMap raisedForms

theorem eq_toNat_of_ofNat (n : Nat) (d : Char) (h : Char.ofNat n = d) (hd : d.toNat ≠ 0) :
    n = d.toNat := by
  by_cases hv : n.isValidChar
  · rw [← h, Char.ofNat, dif_pos hv]
    rfl
  · have hzero : Char.ofNat n = Char.ofNat 0 := by
      rw [Char.ofNat, dif_neg hv]
      rfl
    rw [← h, hzero] at hd
    exact absurd rfl hd

theorem mem_raisedForms (c d : Char) (h : lowerChar c = d) (hd : d.toNat ≠ 0) :
    c ∈ raisedForms d := by
  rw [lowerChar] at h
  split at h
  · next n hfind =>
    have hn : n = d.toNat := eq_toNat_of_ofNat n d h hd
    have hmem := CodeRun.mem_sources loweringRuns c.toNat n hfind (hn ▸ hd)
    rw [raisedForms, ← hn, ← Char.ofNat_toNat c]
    exact List.mem_cons_of_mem _ (List.mem_map_of_mem hmem)
  · rw [h]
    exact List.mem_cons_self

theorem mem_letterForms (p c : Char) (h : sameLetter p c = true)
    (hp : ∀ d ∈ lowerForms (lowerChar p), d.toNat ≠ 0) : c ∈ letterForms p := by
  rw [sameLetter] at h
  split at h
  · have hmem : lowerChar c ∈ lowerForms (lowerChar p) := List.contains_iff_mem.mp h
    refine List.mem_cons_of_mem _ (List.mem_flatMap.mpr ⟨lowerChar c, hmem, ?_⟩)
    exact mem_raisedForms c (lowerChar c) rfl (hp _ hmem)
  · rw [beq_iff_eq.mp h]
    exact List.mem_cons_self

end WordCycle
