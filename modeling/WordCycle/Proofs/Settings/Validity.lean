import WordCycle.Proofs.Settings.Saving

/-! Settings hold values of their own at any time, whatever they were given and whether or not it was
refused. Loading goes through the group in the file setting by setting: what is wrong with one of them
makes no difference to the others. -/

namespace WordCycle
set_option autoImplicit false
open Json (Value Fields)

namespace Settings

/-! ## The values of a setting -/

/-- The least and the greatest value of a setting that is a number; none for a switch. -/
def Key.range? : Key → Option (Nat × Nat)
  | sortOrder => some (0, 1)
  | candidatesLimit => some (1, 100)
  | distanceLimit => some (0, 102400)
  | skipFuzzyIfExact => none
  | removeTrailingWordPart => none

def Key.Admits (key : Key) (v : Value) : Prop :=
  match key.range? with
  | some (low, high) => ∃ n : Int, v = .int n ∧ low ≤ n ∧ n ≤ high
  | none => ∃ b, v = .bool b

/-- What a setting holds when it was given a value. -/
inductive Key.Takes (key : Key) (v : Value) : Value → Prop
  | own (hnumber : key.range? ≠ none) (h : key.Admits v) : key.Takes v v
  | default (hnumber : key.range? ≠ none) (h : ¬key.Admits v) : key.Takes v (({} : Settings).value key)
  | truth (hswitch : key.range? = none) : key.Takes v (.bool (isTrue v))

theorem Valid.admits {s : Settings} (h : s.Valid) (key : Key) : key.Admits (s.value key) := by
  obtain ⟨hlow, hhigh, hnear, hfar⟩ := h
  cases key with
  | sortOrder =>
    refine ⟨_, rfl, ?_⟩
    cases s.sortOrder <;> decide
  | candidatesLimit =>
    exact ⟨_, rfl, Int.ofNat_le.mpr hlow, Int.ofNat_le.mpr hhigh⟩
  | distanceLimit =>
    exact ⟨_, rfl, Int.ofNat_le.mpr hnear, Int.ofNat_le.mpr hfar⟩
  | skipFuzzyIfExact => exact ⟨_, rfl⟩
  | removeTrailingWordPart => exact ⟨_, rfl⟩

/-! ## Setting one of them -/

/-- An integer inside the bounds is taken as it is, and anything else is not. -/
theorem integerWithin_cases (low high : Nat) (v : Value) :
    (∃ n : Nat, integerWithin low high v = some n ∧ v = .int n ∧ low ≤ n ∧ n ≤ high) ∨
      integerWithin low high v = none ∧ ∀ n : Int, v = .int n → ¬(low ≤ n ∧ n ≤ high) := by
  cases v with
  | int m =>
    by_cases hm : (low : Int) ≤ m ∧ m ≤ high
    · obtain ⟨n, rfl⟩ := Int.eq_ofNat_of_zero_le (by omega : 0 ≤ m)
      exact Or.inl ⟨n, integerWithin_natCast (by omega) (by omega), rfl, by omega, by omega⟩
    · refine Or.inr ⟨?_, ?_⟩
      · rw [integerWithin, if_neg (by simpa using hm)]
      · rintro n ⟨⟩
        exact hm
  | _ => exact Or.inr ⟨rfl, fun n hn => by cases hn⟩

theorem value_restore (s : Settings) (key : Key) :
    (s.restore key).value key = ({} : Settings).value key := by
  cases key <;> rfl

section
variable {s : Settings} {key : Key} {v : Value}

/-- A setting that is a number takes an integer in its range, and else goes back to its default. -/
theorem takes_of_range {low high : Nat} {put : Nat → Settings} (hrange : key.range? = some (low, high))
    (hset : s.set? key v = (integerWithin low high v).map put)
    (hput : ∀ n, low ≤ n → n ≤ high → (put n).value key = .int n) :
    key.Takes v ((s.set key v).1.value key) := by
  have hnumber : key.range? ≠ none := by simp [hrange]
  have hadmits : key.Admits v ↔ ∃ n : Int, v = .int n ∧ low ≤ n ∧ n ≤ high := by
    rw [Key.Admits, hrange]
  rcases integerWithin_cases low high v with ⟨n, hn, hv, hlow, hhigh⟩ | ⟨hn, hout⟩
  · have hvalue : (s.set key v).1.value key = v := by
      rw [set, hset, hn, hv]
      exact hput n hlow hhigh
    rw [hvalue]
    exact .own hnumber (hadmits.mpr ⟨n, hv, by omega, by omega⟩)
  · have hvalue : (s.set key v).1.value key = ({} : Settings).value key := by
      rw [set, hset, hn]
      exact s.value_restore key
    rw [hvalue]
    refine .default hnumber fun h => ?_
    obtain ⟨n, hv, hbounds⟩ := hadmits.mp h
    exact hout n hv hbounds

end

theorem value_set (s : Settings) (key : Key) (v : Value) :
    key.Takes v ((s.set key v).1.value key) := by
  cases key with
  | sortOrder =>
    have hset : s.set? .sortOrder v = (integerWithin 0 1 v).map fun n =>
      { s with sortOrder := .ofNumber n } := by
      rw [set?]
      cases integerWithin 0 1 v <;> rfl
    refine takes_of_range rfl hset fun n _ hn => ?_
    obtain rfl | rfl : n = 0 ∨ n = 1 := by omega
    · rfl
    · rfl
  | candidatesLimit =>
    have hset : s.set? .candidatesLimit v = (integerWithin 1 100 v).map fun n =>
      { s with candidatesLimit := n } := rfl
    exact takes_of_range rfl hset fun n _ _ => rfl
  | distanceLimit =>
    have hset : s.set? .distanceLimit v = (integerWithin 0 102400 v).map fun n =>
      { s with distanceLimit := n } := rfl
    exact takes_of_range rfl hset fun n _ _ => rfl
  | skipFuzzyIfExact => exact .truth rfl
  | removeTrailingWordPart => exact .truth rfl

theorem value_set_of_ne (s : Settings) {key other : Key} (v : Value) (hne : other ≠ key) :
    (s.set key v).1.value other = s.value other := by
  rw [set]
  split
  · next hset => exact value_of_set?_ne hset hne
  · cases key <;> cases other <;> first | exact absurd rfl hne | rfl

/-! ## Settings from a group -/

/-- Taking settings from a group, each once, gives them what the group holds and leaves the others. -/
theorem value_foldl_takeFrom (group : Fields) (keys : List Key) (hnodup : keys.Nodup)
    (before : Settings × List Notice) (key : Key) :
    match if key ∈ keys then group.get? (Json.letters key.name) else none with
    | some v => key.Takes v ((keys.foldl (takeFrom group) before).1.value key)
    | none => (keys.foldl (takeFrom group) before).1.value key = before.1.value key := by
  induction keys generalizing before with
  | nil => simp
  | cons first rest ih =>
    obtain ⟨hfirst, hrest⟩ := List.nodup_cons.mp hnodup
    have hlater := ih hrest (takeFrom group before first)
    rw [List.foldl_cons]
    by_cases heq : key = first
    · subst heq
      rw [if_neg hfirst] at hlater
      rw [if_pos List.mem_cons_self]
      simp only at hlater
      rw [hlater, takeFrom]
      cases hget : group.get? (Json.letters key.name) with
      | none => rfl
      | some v => exact value_set before.1 key v
    · have hkept : (takeFrom group before first).1.value key = before.1.value key := by
        unfold takeFrom
        split
        · rfl
        · exact value_set_of_ne before.1 _ heq
      simp only [List.mem_cons, heq, false_or]
      rw [hkept] at hlater
      exact hlater

theorem value_ofGroup (group : Fields) (key : Key) :
    match group.get? (Json.letters key.name) with
    | some v => key.Takes v ((ofGroup group).1.value key)
    | none => (ofGroup group).1.value key = ({} : Settings).value key := by
  have h := value_foldl_takeFrom group Key.all (by decide) ({}, []) key
  rw [if_pos (mem_all key)] at h
  rw [ofGroup_eq]
  exact h

end Settings

namespace SettingsFile

theorem run_of_refused {f : SettingsFile} {t : FileTree} {c : Settings.Change} {e : SettingsError}
    (h : (f.run t (.change c)).1 = .error e) : (f.run t (.change c)).2 = (f, t) := by
  unfold run at h ⊢
  simp only at h ⊢
  split at h
  · cases h
  · rfl

theorem holdsSettings_of_load {f : SettingsFile} {t : FileTree} {notices : List Settings.Notice}
    (h : (f.run t .load).1 = .ok notices) :
    HoldsSettings t f.path (f.run t .load).2.1.settings := by
  rcases loaded_holdsSettings t f.path with ⟨s, notices', hloaded, hsettings⟩ | ⟨e, hloaded, -⟩
  · rw [run, load, hloaded]
    exact hsettings
  · rw [run, load, hloaded] at h
    cases h

theorem HoldsGroup.unique {t : FileTree} {path : Path} {group group' : Fields}
    (h : HoldsGroup t path group) (h' : HoldsGroup t path group') : group = group' := by
  obtain ⟨text, fields, hread, hjson, hgroup⟩ := h
  obtain ⟨text', fields', hread', hjson', hgroup'⟩ := h'
  obtain rfl := Utf8.encode_injective (Except.ok.inj (hread.symm.trans hread'))
  obtain rfl := Value.obj.inj (Except.ok.inj (hjson.symm.trans hjson'))
  exact Value.obj.inj (Option.some.inj (hgroup.symm.trans hgroup'))

/-- At any time a settings file holds its five settings, each with a value of its own. A change that is
refused has no effect. A load that returns leaves each setting with what it takes from the group in the
file, or with its default if the group does not have it, whatever the others are; without a group all
have their defaults. -/
theorem Reachable.settings_in_range {f : SettingsFile} (h : Reachable f) :
    f.settings.toFields.map Prod.fst =
        ["sort_order", "candidates_limit", "distance_limit", "skip_fuzzy_if_exact",
          "remove_trailing_word_part"].map (fun name => Json.letters name.toList) ∧
      (∀ key : Settings.Key, ∃ v, Fields.get? f.settings.toFields (Json.letters key.name) = some v ∧
        key.Admits v) ∧
      (∀ t c e, (f.run t (.change c)).1 = .error e → (f.run t (.change c)).2 = (f, t)) ∧
      ∀ t notices, (f.run t .load).1 = .ok notices →
        (∀ group, HoldsGroup t f.path group → ∀ key : Settings.Key,
          match Fields.get? group (Json.letters key.name) with
          | some v => key.Takes v ((f.run t .load).2.1.settings.value key)
          | none => (f.run t .load).2.1.settings.value key = ({} : Settings).value key) ∧
        ((∀ group, ¬HoldsGroup t f.path group) → (f.run t .load).2.1.settings = {}) := by
  refine ⟨rfl, ?_, fun t c e => run_of_refused, ?_⟩
  · intro key
    exact ⟨_, f.settings.get?_toFields key, h.valid.admits key⟩
  · intro t notices hload
    have hsettings := holdsSettings_of_load hload
    generalize (f.run t .load).2.1.settings = s at hsettings ⊢
    cases hsettings with
    | group hgroup =>
      refine ⟨?_, fun hnone => absurd hgroup (hnone _)⟩
      intro group hgroup' key
      obtain rfl := hgroup.unique hgroup'
      exact Settings.value_ofGroup _ key
    | defaults hnone => exact ⟨fun group hgroup => absurd hgroup (hnone group), fun _ => rfl⟩

/-! ## A group with wrong values -/

def mixedGroup : Fields :=
  [(Json.letters "sort_order".toList, .int 7), (Json.letters "candidates_limit".toList, .int 30),
    (Json.letters "distance_limit".toList, .bool true),
    (Json.letters "skip_fuzzy_if_exact".toList, .arr [.null])]

def mixedFile : Value := .obj [(Settings.groupKey, .obj mixedGroup)]

def mixedTree : FileTree :=
  ({} : FileTree).put (freshHome ++ ["c.json".toList])
    (.file (Utf8.encode (Json.chars mixedFile.written.flatten)))

theorem mixedFile_plain : mixedFile.Plain := by
  refine .obj ?_ ?_ <;> simp only [List.forall_mem_cons]
  · exact ⟨⟨_, rfl⟩, List.forall_mem_nil _⟩
  refine ⟨.obj ?_ ?_, List.forall_mem_nil _⟩ <;> simp only [mixedGroup, List.forall_mem_cons]
  · exact ⟨⟨_, rfl⟩, ⟨_, rfl⟩, ⟨_, rfl⟩, ⟨_, rfl⟩, List.forall_mem_nil _⟩
  · refine ⟨.int _, .int _, .bool _, .arr ?_, List.forall_mem_nil _⟩
    simp only [List.forall_mem_cons]
    exact ⟨.null, List.forall_mem_nil _⟩

theorem mixedFile_readable : mixedFile.Readable 3 := by
  refine .obj (by decide) ?_
  simp only [List.forall_mem_cons]
  refine ⟨.obj (by decide) ?_, List.forall_mem_nil _⟩
  simp only [mixedGroup, List.forall_mem_cons]
  refine ⟨.int 1 (by decide +kernel), .int 1 (by decide +kernel), .bool 1 _, .arr ?_,
    List.forall_mem_nil _⟩
  simp only [List.forall_mem_cons]
  exact ⟨.null 0, List.forall_mem_nil _⟩

theorem Reachable.settings_in_range_mixed :
    Reachable sharedSettings ∧
      (sharedSettings.run mixedTree .load).1 = .ok [.ignored .sortOrder, .ignored .distanceLimit] ∧
      HoldsGroup mixedTree sharedSettings.path mixedGroup ∧
      (sharedSettings.run mixedTree .load).2.1.settings =
        { candidatesLimit := 30, skipFuzzyIfExact := true } ∧
      ∀ key : Settings.Key, match Fields.get? mixedGroup (Json.letters key.name) with
        | some v => key.Takes v ((sharedSettings.run mixedTree .load).2.1.settings.value key)
        | none => (sharedSettings.run mixedTree .load).2.1.settings.value key =
          ({} : Settings).value key := by
  have hopened : ofPath {} ⟨[], ["c.json".toList]⟩ = .ok (⟨⟨[], ["c.json".toList]⟩, {}⟩, []) := by
    decide +kernel
  have hf : Reachable sharedSettings :=
    .run (.opened hopened) {} (.change (.assign .candidatesLimit (.int 21)))
  have hload : (sharedSettings.run mixedTree .load).1 =
      .ok [.ignored .sortOrder, .ignored .distanceLimit] := by decide +kernel
  have hread : mixedTree.read sharedSettings.path =
      .ok (Utf8.encode (Json.chars mixedFile.written.flatten)) := by
    decide +kernel
  have hjson := Json.read_written mixedFile_plain (mixedFile_readable.mono (by decide))
  have hgroup : HoldsGroup mixedTree sharedSettings.path mixedGroup := ⟨_, _, hread, hjson, rfl⟩
  obtain ⟨-, -, -, hloads⟩ := hf.settings_in_range
  exact ⟨hf, hload, hgroup, by decide +kernel, (hloads mixedTree _ hload).1 _ hgroup⟩

end SettingsFile
end WordCycle
