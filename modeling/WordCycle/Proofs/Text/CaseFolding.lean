import WordCycle.Proofs.Text.CodePoint
import WordCycle.Proofs.Text.WordCase
import WordCycle.Text.CaseFolding

/-! Folding a text that is folded already changes nothing: what the tables of case folding send a character
to are characters that neither of them moves. The tables are compared run by run, by the ends of the runs
and, where runs of every second code point overlap, by parity. -/

namespace WordCycle
set_option autoImplicit false

/-! ## Code points at equal distances -/

/-- Whether every second code point from `first` on and those `step` apart from `first'` on are different. -/
def interleaves (first first' step : Nat) : Bool :=
  Nat.beq ((first + first') % 2) 1 && Nat.beq (step % 2) 0

/-- Whether the runs move none of the code points from `first` to `last` that are `step` apart. -/
def CodeRun.avoids : List CodeRun → Nat → Nat → Nat → Bool
  | [], _, _, _ => true
  | run :: rest, first, last, step =>
    bif Nat.blt last run.first then true
    else (Nat.blt run.last first || Nat.beq run.step 2 && interleaves run.first first step) &&
      avoids rest first last step

theorem ne_of_interleaves {first first' step : Nat} (h : interleaves first first' step = true)
    (k j : Nat) : first + 2 * j ≠ first' + step * k := by
  rw [interleaves, Bool.and_eq_true, Nat.beq_eq, Nat.beq_eq] at h
  have heven : step * k % 2 = 0 := by
    rw [Nat.mul_mod, h.2, Nat.zero_mul]
  omega

theorem CodeRun.find?_of_avoids {runs : List CodeRun} {first last step : Nat}
    (h : avoids runs first last step = true) (k : Nat) (hle : first + step * k ≤ last) :
    find? runs (first + step * k) = none := by
  induction runs with
  | nil => rfl
  | cons run rest ih =>
    simp only [avoids, Bool.cond_eq_ite, Nat.blt_eq] at h
    rw [find?]
    split at h
    · rw [if_pos (by omega)]
    · rw [Bool.and_eq_true, Bool.or_eq_true, Bool.and_eq_true, Nat.blt_eq, Nat.beq_eq] at h
      obtain ⟨hrun, hrest⟩ := h
      have hrest := ih hrest
      split
      · rfl
      · next hfirst =>
        rcases hrun with hbelow | ⟨htwo, hapart⟩
        · rw [if_neg (by omega), hrest]
        · split
          · have hodd := ne_of_interleaves hapart k ((first + step * k - run.first) / 2)
            rw [htwo, if_neg (by omega)]
          · exact hrest

/-! ## The tables of case folding -/

/-- Whether the code points from `first` to `last` that are `step` apart are those of characters that fold
to themselves. -/
def areFolded (first last step : Nat) : Bool :=
  (Nat.blt last 0xd800 || Nat.blt 0xdfff first && Nat.blt last 0x110000) &&
    CodeRun.avoids foldingRuns first last step &&
    longFoldings.all fun long =>
      Nat.blt long.1 first || Nat.blt last long.1 || interleaves long.1 first step

theorem foldChar_of_areFolded {first last step : Nat} (h : areFolded first last step = true) (k : Nat)
    (hle : first + step * k ≤ last) :
    Text.foldChar (Char.ofNat (first + step * k)) = [Char.ofNat (first + step * k)] := by
  rw [areFolded, Bool.and_eq_true, Bool.and_eq_true, Bool.or_eq_true, Bool.and_eq_true, Nat.blt_eq,
    Nat.blt_eq, Nat.blt_eq] at h
  obtain ⟨⟨hvalid, hruns⟩, hlong⟩ := h
  have hcode := CodePoint.toNat_ofNat (first + step * k) (by omega)
  have hlookup : longFoldings.lookup (first + step * k) = none := by
    rw [List.lookup_eq_none_iff]
    intro long hmem
    have hapart := List.all_eq_true.mp hlong long hmem
    rw [Bool.or_eq_true, Bool.or_eq_true, Nat.blt_eq, Nat.blt_eq] at hapart
    have hne : first + step * k ≠ long.1 := by
      rcases hapart with (hbelow | habove) | hodd
      · omega
      · omega
      · exact (ne_of_interleaves hodd k 0).symm
    simpa using hne
  rw [Text.foldChar, hcode, CodeRun.find?_of_avoids hruns k hle, hlookup]

/-- How far apart the code points of a run are, nothing for a single one. -/
def CodeRun.gap (run : CodeRun) : Nat := bif Nat.beq run.first run.last then 0 else run.step

theorem CodeRun.exists_of_mem_points {run : CodeRun} {n : Nat} (h : n ∈ run.points) (hle : n ≤ run.last) :
    ∃ k, n = run.first + run.gap * k := by
  obtain ⟨k, -, rfl⟩ := List.mem_range'.mp h
  rw [gap, Bool.cond_eq_ite]
  split
  · next hsingle =>
    rw [Nat.beq_eq] at hsingle
    exact ⟨0, by omega⟩
  · exact ⟨k, rfl⟩

theorem foldingRuns_areFolded : ∀ run ∈ foldingRuns, 0 ≤ run.first + run.offset ∧
    areFolded (run.first + run.offset).toNat (run.last + run.offset).toNat run.gap = true := by
  decide +kernel

theorem longFoldings_areFolded : ∀ long ∈ longFoldings, ∀ n ∈ long.2, areFolded n n 0 = true := by
  decide +kernel

namespace Text

/-! ## Folding twice -/

theorem foldChar_of_mem {c d : Char} (h : d ∈ foldChar c) : foldChar d = [d] := by
  cases hfind : CodeRun.find? foldingRuns c.toNat with
  | some n =>
    rw [foldChar, hfind] at h
    obtain rfl := List.mem_singleton.mp h
    obtain ⟨run, hrun, hpoint, -, hlast, rfl⟩ := CodeRun.exists_of_find? hfind
    obtain ⟨hnonneg, hfolded⟩ := foldingRuns_areFolded run hrun
    obtain ⟨k, hk⟩ := CodeRun.exists_of_mem_points hpoint hlast
    have htarget : (c.toNat + run.offset).toNat = (run.first + run.offset).toNat + run.gap * k := by
      omega
    rw [htarget]
    exact foldChar_of_areFolded hfolded k (by omega)
  | none =>
    cases hlookup : longFoldings.lookup c.toNat with
    | some ns =>
      rw [foldChar, hfind, hlookup] at h
      obtain ⟨n, hn, rfl⟩ := List.mem_map.mp h
      obtain ⟨before, behind, hlong, -⟩ := List.lookup_eq_some_iff.mp hlookup
      have hmem : (c.toNat, ns) ∈ longFoldings := by
        rw [hlong]
        exact List.mem_append_right before List.mem_cons_self
      exact foldChar_of_areFolded (longFoldings_areFolded _ hmem n hn) 0 (Nat.le_refl n)
    | none =>
      have hself : foldChar c = [c] := by rw [foldChar, hfind, hlookup]
      rw [hself] at h
      obtain rfl := List.mem_singleton.mp h
      exact hself

theorem foldCase_of_forall_mem {t : Text} (h : ∀ c ∈ t, foldChar c = [c]) : t.foldCase = t := by
  induction t with
  | nil => rfl
  | cons c t ih =>
    have hcons : foldCase (c :: t) = foldChar c ++ foldCase t := rfl
    rw [hcons, h c List.mem_cons_self, ih fun d hd => h d (List.mem_cons_of_mem c hd)]
    rfl

theorem foldCase_foldCase (t : Text) : t.foldCase.foldCase = t.foldCase := by
  apply foldCase_of_forall_mem
  intro d hd
  obtain ⟨c, -, hmem⟩ := List.mem_flatMap.mp hd
  exact foldChar_of_mem hmem

end Text
end WordCycle
