import WordCycle.Settings.Content

/-! Settings and the group they are stored in. Every setting holds a value of its own, whatever it was
given, so the group of any settings gives them back and nothing is noted. -/

namespace WordCycle.Settings
set_option autoImplicit false

/-- Settings that lie in their ranges. -/
structure Valid (s : Settings) : Prop where
  candidates_ge : candidatesRange.1 ≤ s.candidatesLimit
  candidates_le : s.candidatesLimit ≤ candidatesRange.2
  distance_ge : distanceRangeKb.1 * 1024 ≤ s.distanceLimit
  distance_le : s.distanceLimit ≤ distanceRangeKb.2 * 1024

theorem valid_default : Valid {} := ⟨by decide, by decide, by decide, by decide⟩

theorem integerWithin_natCast {low high n : Nat} (hlow : low ≤ n) (hhigh : n ≤ high) :
    integerWithin low high (.int n) = some n := by
  have hlow' : (low : Int) ≤ n := by omega
  have hhigh' : (n : Int) ≤ high := by omega
  rw [integerWithin, if_pos (by simp [hlow', hhigh']), Int.toNat_natCast]

theorem integerWithin_bounds {low high n : Nat} {v : Json.Value}
    (h : integerWithin low high v = some n) : low ≤ n ∧ n ≤ high := by
  cases v with
  | int m =>
    rw [integerWithin] at h
    split at h
    · next hm =>
      rw [Bool.and_eq_true, decide_eq_true_eq, decide_eq_true_eq] at hm
      obtain rfl := Option.some.inj h
      omega
    · cases h
  | _ => cases h

/-! ## One setting -/

theorem set?_valid {s s' : Settings} (h : s.Valid) {key : Key} {v : Json.Value}
    (hset : s.set? key v = some s') : s'.Valid := by
  cases key with
  | sortOrder =>
    obtain ⟨n, -, rfl⟩ := Option.map_eq_some_iff.mp hset
    exact ⟨h.candidates_ge, h.candidates_le, h.distance_ge, h.distance_le⟩
  | candidatesLimit =>
    obtain ⟨n, hn, rfl⟩ := Option.map_eq_some_iff.mp hset
    obtain ⟨hlow, hhigh⟩ := integerWithin_bounds hn
    exact ⟨hlow, hhigh, h.distance_ge, h.distance_le⟩
  | distanceLimit =>
    obtain ⟨n, hn, rfl⟩ := Option.map_eq_some_iff.mp hset
    obtain ⟨hlow, hhigh⟩ := integerWithin_bounds hn
    exact ⟨h.candidates_ge, h.candidates_le, hlow, hhigh⟩
  | skipFuzzyIfExact | removeTrailingWordPart =>
    obtain rfl := Option.some.inj hset
    exact ⟨h.candidates_ge, h.candidates_le, h.distance_ge, h.distance_le⟩

theorem restore_valid {s : Settings} (h : s.Valid) (key : Key) : (s.restore key).Valid := by
  have hinitial := valid_default
  cases key with
  | candidatesLimit =>
    exact ⟨hinitial.candidates_ge, hinitial.candidates_le, h.distance_ge, h.distance_le⟩
  | distanceLimit =>
    exact ⟨h.candidates_ge, h.candidates_le, hinitial.distance_ge, hinitial.distance_le⟩
  | _ => exact ⟨h.candidates_ge, h.candidates_le, h.distance_ge, h.distance_le⟩

theorem set_valid {s : Settings} (h : s.Valid) (key : Key) (v : Json.Value) :
    (s.set key v).1.Valid := by
  rw [set]
  split
  · next hset => exact set?_valid h hset
  · exact restore_valid h key

theorem change_valid {s s' : Settings} (h : s.Valid) {c : Change} {notices : List Notice}
    (hchange : s.change c = .ok (s', notices)) : s'.Valid := by
  have hset : ∃ key v, s.set key v = (s', notices) := by
    cases c with
    | set name v =>
      rw [change, setNamed] at hchange
      split at hchange
      · exact ⟨_, v, Except.ok.inj hchange⟩
      · cases hchange
    | assign p v =>
      rw [change] at hchange
      cases p with
      | sortOrder | distanceLimitKb =>
        rw [assign] at hchange
        cases hvalue : toInteger v with
        | error e =>
          rw [hvalue] at hchange
          cases hchange
        | ok n =>
          rw [hvalue] at hchange
          exact ⟨_, _, Except.ok.inj hchange⟩
      | _ => exact ⟨_, v, Except.ok.inj hchange⟩
  obtain ⟨key, v, hset⟩ := hset
  have hvalid := set_valid h key v
  rw [hset] at hvalid
  exact hvalid

/-- Settings are what they store. -/
theorem eq_of_value {s s' : Settings} (h : ∀ key, s.value key = s'.value key) : s = s' := by
  have horder := h .sortOrder
  have hcandidates := h .candidatesLimit
  have hdistance := h .distanceLimit
  have hskip := h .skipFuzzyIfExact
  have hremove := h .removeTrailingWordPart
  obtain ⟨order, _, _, _, _⟩ := s
  obtain ⟨order', _, _, _, _⟩ := s'
  simp only [value, Json.Value.int.injEq, Json.Value.bool.injEq, Int.natCast_inj] at *
  have hsame : order = order' := by cases order <;> cases order' <;> simp_all [SortOrder.rank]
  simp only [hsame, hcandidates, hdistance, hskip, hremove]

theorem value_of_set?_ne {s s' : Settings} {key other : Key} {v : Json.Value}
    (hset : s.set? key v = some s') (hne : other ≠ key) : s'.value other = s.value other := by
  cases key with
  | sortOrder | candidatesLimit | distanceLimit =>
    obtain ⟨n, -, rfl⟩ := Option.map_eq_some_iff.mp hset
    cases other <;> first | exact absurd rfl hne | rfl
  | skipFuzzyIfExact | removeTrailingWordPart =>
    obtain rfl := Option.some.inj hset
    cases other <;> first | exact absurd rfl hne | rfl

theorem exists_set?_value {s : Settings} (h : s.Valid) (before : Settings) (key : Key) :
    ∃ after, before.set? key (s.value key) = some after ∧ after.value key = s.value key := by
  cases key with
  | sortOrder =>
    refine ⟨{ before with sortOrder := s.sortOrder }, ?_, rfl⟩
    cases horder : s.sortOrder <;> rw [set?, value, horder] <;> rfl
  | candidatesLimit =>
    refine ⟨{ before with candidatesLimit := s.candidatesLimit }, ?_, rfl⟩
    rw [set?, value, integerWithin_natCast h.candidates_ge h.candidates_le]
    rfl
  | distanceLimit =>
    refine ⟨{ before with distanceLimit := s.distanceLimit }, ?_, rfl⟩
    rw [set?, value, integerWithin_natCast h.distance_ge h.distance_le]
    rfl
  | skipFuzzyIfExact => exact ⟨{ before with skipFuzzyIfExact := s.skipFuzzyIfExact }, rfl, rfl⟩
  | removeTrailingWordPart =>
    exact ⟨{ before with removeTrailingWordPart := s.removeTrailingWordPart }, rfl, rfl⟩

/-! ## The group -/

/-- One setting taken from a group. -/
def takeFrom (group : Json.Fields) (s : Settings × List Notice) (key : Key) :
    Settings × List Notice :=
  match group.get? (Json.letters key.name) with
  | none => s
  | some v => ((s.1.set key v).1, s.2 ++ (s.1.set key v).2)

theorem ofGroup_eq (group : Json.Fields) : ofGroup group = Key.all.foldl (takeFrom group) ({}, []) := by
  have hstep : (fun (x : Settings × List Notice) key =>
      match group.get? (Json.letters key.name) with
      | none => (x.1, x.2)
      | some v => ((x.1.set key v).1, x.2 ++ (x.1.set key v).2)) = takeFrom group := by
    funext x key
    rfl
  rw [← hstep]
  rfl

theorem ofGroup_valid (group : Json.Fields) : (ofGroup group).1.Valid := by
  rw [ofGroup_eq]
  have hfold : ∀ (keys : List Key) (s : Settings × List Notice), s.1.Valid →
      (keys.foldl (takeFrom group) s).1.Valid := by
    intro keys
    induction keys with
    | nil => exact fun s h => h
    | cons key keys ih =>
      intro s h
      refine ih _ ?_
      rw [takeFrom]
      split
      · exact h
      · exact set_valid h key _
  exact hfold Key.all _ valid_default

theorem mem_all (key : Key) : key ∈ Key.all := by cases key <;> decide

theorem get?_toFields (s : Settings) (key : Key) :
    Json.Fields.get? s.toFields (Json.letters key.name) = some (s.value key) := by
  cases key <;> rfl

/-- Taking all settings from the group of valid ones gives these. -/
theorem ofGroup_toFields {s : Settings} (h : s.Valid) : ofGroup s.toFields = (s, []) := by
  have hfold : ∀ (keys : List Key) (before : Settings), ∃ after,
      keys.foldl (takeFrom s.toFields) (before, []) = (after, []) ∧
        ∀ key, after.value key = if key ∈ keys then s.value key else before.value key := by
    intro keys
    induction keys with
    | nil => exact fun before => ⟨before, rfl, fun key => rfl⟩
    | cons key keys ih =>
      intro before
      obtain ⟨next, hset, hkey⟩ := exists_set?_value h before key
      obtain ⟨after, hfold, hafter⟩ := ih next
      refine ⟨after, ?_, fun other => ?_⟩
      · have hstep : takeFrom s.toFields (before, []) key = (next, []) := by
          rw [takeFrom, get?_toFields]
          simp only [set, hset, List.append_nil]
        rw [List.foldl_cons, hstep, hfold]
      · rw [hafter]
        by_cases hother : other ∈ keys
        · rw [if_pos hother, if_pos (List.mem_cons_of_mem _ hother)]
        · rw [if_neg hother]
          by_cases heq : other = key
          · rw [heq, hkey, if_pos List.mem_cons_self]
          · rw [value_of_set?_ne hset heq, if_neg (by simp [heq, hother])]
  obtain ⟨after, hall, hvalues⟩ := hfold Key.all {}
  have hsame : after = s := by
    apply eq_of_value
    intro key
    rw [hvalues, if_pos (mem_all key)]
  rw [ofGroup_eq, hall, hsame]

end WordCycle.Settings
