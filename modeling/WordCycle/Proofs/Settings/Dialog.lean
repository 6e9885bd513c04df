import WordCycle.Editor.Dialog
import WordCycle.Proofs.Settings.Group

/-! A dialog that shows settings gives them back when it is applied, but for the distance limit: it is shown
in units of 1024, so only whole units of it come back. -/

namespace WordCycle
set_option autoImplicit false

namespace Settings

/-! ## Whole units -/

/-- The settings with the distance limit cut down to whole units of 1024. -/
def inWholeUnits (s : Settings) : Settings := { s with distanceLimit := s.distanceLimitKb * 1024 }

theorem distanceLimitKb_inWholeUnits (s : Settings) :
    s.inWholeUnits.distanceLimitKb = s.distanceLimitKb :=
  Nat.mul_div_cancel s.distanceLimitKb (by decide)

theorem inWholeUnits_inWholeUnits (s : Settings) : s.inWholeUnits.inWholeUnits = s.inWholeUnits := by
  rw [inWholeUnits, distanceLimitKb_inWholeUnits]
  rfl

theorem inWholeUnits_eq_self_iff (s : Settings) : s.inWholeUnits = s ↔ 1024 ∣ s.distanceLimit := by
  constructor
  · intro h
    have hlimit : s.distanceLimitKb * 1024 = s.distanceLimit := congrArg Settings.distanceLimit h
    rw [← hlimit]
    exact Nat.dvd_mul_left 1024 _
  · intro h
    have hlimit : s.distanceLimitKb * 1024 = s.distanceLimit := Nat.div_mul_cancel h
    rw [inWholeUnits, hlimit]

theorem value_inWholeUnits (s : Settings) {key : Key} (h : key ≠ .distanceLimit) :
    s.inWholeUnits.value key = s.value key := by
  cases key with
  | distanceLimit => exact absurd rfl h
  | _ => rfl

theorem Valid.distanceLimitKb_le {s : Settings} (h : s.Valid) :
    s.distanceLimitKb ≤ distanceRangeKb.2 :=
  Nat.div_le_of_le_mul (Nat.mul_comm _ _ ▸ h.distance_le)

theorem Valid.inWholeUnits {s : Settings} (h : s.Valid) : s.inWholeUnits.Valid where
  candidates_ge := h.candidates_ge
  candidates_le := h.candidates_le
  distance_ge := Nat.zero_le _
  distance_le := Nat.mul_le_mul_right 1024 h.distanceLimitKb_le

/-! ## Giving a setting a value of its own -/

theorem assign_sortOrder (s : Settings) (o : SortOrder) :
    s.assign .sortOrder (.int o.rank) = .ok ({ s with sortOrder := o }, []) := by
  cases o <;> rfl

section
variable (s : Settings) {n : Nat}

theorem assign_candidatesLimit (hlow : candidatesRange.1 ≤ n) (hhigh : n ≤ candidatesRange.2) :
    s.assign .candidatesLimit (.int n) = .ok ({ s with candidatesLimit := n }, []) := by
  rw [assign, set, set?, integerWithin_natCast hlow hhigh]
  rfl

theorem assign_distanceLimitKb (hhigh : n ≤ distanceRangeKb.2) :
    s.assign .distanceLimitKb (.int n) = .ok ({ s with distanceLimit := n * 1024 }, []) := by
  have hlow : distanceRangeKb.1 * 1024 ≤ n * 1024 := Nat.mul_le_mul_right 1024 (Nat.zero_le n)
  have hset : s.set .distanceLimit (.int (n * 1024 : Nat)) =
      ({ s with distanceLimit := n * 1024 }, []) := by
    rw [set, set?, integerWithin_natCast hlow (Nat.mul_le_mul_right 1024 hhigh)]
    rfl
  rw [assign, toInteger, ← hset]
  rfl

end
end Settings

namespace SettingsDialog

/-! ## Showing settings -/

/-- Every input shows the settings. -/
def Shows (d : SettingsDialog) (s : Settings) : Prop := d.refresh s = d

theorem shows_refresh (d : SettingsDialog) (s : Settings) : (d.refresh s).Shows s := rfl

theorem shows_ofSettings (s : Settings) : (ofSettings s).Shows s := rfl

theorem Shows.withVisible {d : SettingsDialog} {s : Settings} (h : d.Shows s) (visible : Bool) :
    Shows { d with visible } s := by
  have hsame : d.refresh s = d := h
  exact congrArg (fun d : SettingsDialog => { d with visible := visible }) hsame

/-- What the inputs show are whole units already. -/
theorem Shows.inWholeUnits {d : SettingsDialog} {s : Settings} (h : d.Shows s) :
    d.Shows s.inWholeUnits := by
  rw [Shows, refresh, Settings.distanceLimitKb_inWholeUnits]
  exact h

theorem clamp_natCast {range : Nat × Nat} {n : Nat} (hlow : range.1 ≤ n) (hhigh : n ≤ range.2) :
    clamp range n = n := by
  rw [clamp]
  omega

theorem Shows.applied {d : SettingsDialog} {s : Settings} (h : d.Shows s) (hs : s.Valid) :
    d.applied s = .ok s.inWholeUnits := by
  have hcandidates := clamp_natCast hs.candidates_ge hs.candidates_le
  have hdistance := clamp_natCast (Nat.zero_le _) hs.distanceLimitKb_le
  rw [← h, SettingsDialog.applied, refresh, hcandidates, hdistance]
  dsimp only
  simp only [Settings.assign_sortOrder, Settings.assign_candidatesLimit _ hs.candidates_ge hs.candidates_le,
    Settings.assign_distanceLimitKb _ hs.distanceLimitKb_le, bind, Except.bind]
  rfl

end SettingsDialog
end WordCycle
