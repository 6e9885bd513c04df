import WordCycle.Proofs.Json.RoundTrip
import WordCycle.Proofs.Settings.Group
import WordCycle.Proofs.Text.Utf8

/-! The content that is written for settings. Pieces are encoded up to the first with half of a
surrogate pair in it, so a content is whole exactly if the value has no such half. -/

namespace WordCycle.Settings
set_option autoImplicit false
open Json (Letter Value Fields Broken chars letters)

/-! ## Encoding pieces -/

theorem encodeRest_of_not_broken (pos : Nat) {s : List Letter} (h : ¬Broken s) :
    encodeRest pos s = .ok (Utf8.encode (chars s)) := by
  induction s generalizing pos with
  | nil => rfl
  | cons l s ih =>
    cases l with
    | char c =>
      rw [Json.broken_char_cons] at h
      rw [encodeRest, ih (pos + 1) h]
      rfl
    | half unit => exact absurd (Json.broken_half_cons unit s) h

theorem encodeRest_of_broken (pos : Nat) {s : List Letter} (h : Broken s) :
    ∃ before unit rest, s = letters before ++ .half unit :: rest ∧
      encodeRest pos s =
        .error ⟨unit, pos + before.length, 1 + (rest.takeWhile isHalf).length⟩ := by
  induction s generalizing pos with
  | nil => exact absurd h Json.not_broken_nil
  | cons l s ih =>
    cases l with
    | char c =>
      obtain ⟨before, unit, rest, hs, herror⟩ := ih (pos + 1) ((Json.broken_char_cons c s).mp h)
      refine ⟨c :: before, unit, rest, by rw [hs]; rfl, ?_⟩
      have hpos : pos + 1 + before.length = pos + (c :: before).length := by
        rw [List.length_cons]
        omega
      rw [encodeRest, herror, hpos]
      rfl
    | half unit => exact ⟨[], unit, s, rfl, rfl⟩

theorem encodePieces_of_not_broken {pieces : List (List Letter)} (h : ¬Broken pieces.flatten) :
    encodePieces pieces = (Utf8.encode (chars pieces.flatten), none) := by
  induction pieces with
  | nil => rfl
  | cons piece rest ih =>
    rw [List.flatten_cons, Json.broken_append, not_or] at h
    rw [encodePieces, encodeRest_of_not_broken 0 h.1, ih h.2, List.flatten_cons, Json.chars_append,
      Utf8.encode_append]

/-- The pieces before the first broken one are encoded, and the error tells of its first half. -/
theorem encodePieces_of_broken {pieces : List (List Letter)} (h : Broken pieces.flatten) :
    ∃ whole before unit rest more, pieces = whole ++ (letters before ++ .half unit :: rest) :: more ∧
      ¬Broken whole.flatten ∧
      encodePieces pieces = (Utf8.encode (chars whole.flatten),
        some ⟨unit, before.length, 1 + (rest.takeWhile isHalf).length⟩) := by
  induction pieces with
  | nil => exact absurd h Json.not_broken_nil
  | cons piece more ih =>
    by_cases hpiece : Broken piece
    · obtain ⟨before, unit, rest, hsplit, herror⟩ := encodeRest_of_broken 0 hpiece
      refine ⟨[], before, unit, rest, more, by rw [hsplit]; rfl, Json.not_broken_nil, ?_⟩
      rw [Nat.zero_add] at herror
      rw [encodePieces, herror]
      rfl
    · rw [List.flatten_cons, Json.broken_append] at h
      obtain ⟨whole, before, unit, rest, more', hsplit, hwhole, hencode⟩ := ih (h.resolve_left hpiece)
      refine ⟨piece :: whole, before, unit, rest, more', by rw [hsplit]; rfl, ?_, ?_⟩
      · rw [List.flatten_cons, Json.broken_append, not_or]
        exact ⟨hpiece, hwhole⟩
      · rw [encodePieces, encodeRest_of_not_broken 0 hpiece, hencode, List.flatten_cons,
          Json.chars_append, Utf8.encode_append]

theorem encodePieces_whole_iff (pieces : List (List Letter)) :
    (encodePieces pieces).2 = none ↔ ¬Broken pieces.flatten := by
  constructor
  · intro hwhole hbroken
    obtain ⟨whole, before, unit, rest, more, -, -, hencode⟩ := encodePieces_of_broken hbroken
    rw [hencode] at hwhole
    cases hwhole
  · intro h
    rw [encodePieces_of_not_broken h]

/-! ## The stored value -/

/-- The fields that are kept of a stored value. -/
def keptFields : Option Value → Fields
  | some (.obj fields) => fields
  | _ => []

theorem storedWith_eq (s : Settings) (old : Option Value) :
    s.storedWith old = .obj ((keptFields old).set groupKey (.obj s.toFields)) := by
  unfold storedWith
  cases old with
  | none => rfl
  | some v => cases v <;> rfl

theorem value_plain (s : Settings) (key : Key) : (s.value key).Plain := by
  cases key
  · exact .int _
  · exact .int _
  · exact .int _
  · exact .bool _
  · exact .bool _

theorem group_plain (s : Settings) : (Value.obj s.toFields).Plain := by
  refine .obj (fun f hf => ?_) (fun f hf => ?_)
  · obtain ⟨key, -, rfl⟩ := List.mem_map.mp hf
    exact ⟨key.name, rfl⟩
  · obtain ⟨key, -, rfl⟩ := List.mem_map.mp hf
    exact value_plain s key

theorem value_readable {s : Settings} (h : s.Valid) (room : Nat) (key : Key) :
    (s.value key).Readable room := by
  have hpow : 10 ^ 6 ≤ 10 ^ Json.maxDigits := Nat.pow_le_pow_right (by decide) (by decide)
  have hcandidates := h.candidates_le
  have hdistance := h.distance_le
  simp only [candidatesRange, distanceRangeKb] at hcandidates hdistance
  cases key with
  | sortOrder =>
    refine .int room ?_
    cases s.sortOrder <;> simp only [SortOrder.rank] <;> omega
  | candidatesLimit => exact .int room (by omega)
  | distanceLimit => exact .int room (by omega)
  | skipFuzzyIfExact | removeTrailingWordPart => exact .bool room _

theorem group_readable {s : Settings} (h : s.Valid) (room : Nat) :
    (Value.obj s.toFields).Readable (room + 1) := by
  have hkeys : (Fields.keys s.toFields).Nodup := by
    have hnames : Fields.keys s.toFields = Key.all.map fun key => letters key.name := rfl
    rw [hnames]
    decide
  refine .obj hkeys fun f hf => ?_
  obtain ⟨key, -, rfl⟩ := List.mem_map.mp hf
  exact value_readable h room key

theorem storedWith_plain (s : Settings) {old : Option Value}
    (hold : (Value.obj (keptFields old)).Plain) : (s.storedWith old).Plain := by
  rw [storedWith_eq]
  cases hold with
  | obj hkeys hplain =>
    refine .obj (fun f hf => ?_) (fun f hf => ?_)
    · rcases Fields.mem_set hf with hf | rfl
      · exact hkeys f hf
      · exact ⟨_, rfl⟩
    · rcases Fields.mem_set hf with hf | rfl
      · exact hplain f hf
      · exact group_plain s

theorem storedWith_readable {s : Settings} (h : s.Valid) {old : Option Value} {room : Nat}
    (hold : (Value.obj (keptFields old)).Readable (room + 2)) :
    (s.storedWith old).Readable (room + 2) := by
  rw [storedWith_eq]
  cases hold with
  | obj hkeys hreadable =>
    refine .obj (Fields.nodup_keys_set groupKey _ hkeys) fun f hf => ?_
    rcases Fields.mem_set hf with hf | rfl
    · exact hreadable f hf
    · exact group_readable h room

theorem ofStored_storedWith {s : Settings} (h : s.Valid) (old : Option Value) :
    ofStored (s.storedWith old) = (s, []) := by
  rw [storedWith_eq, ofStored, Fields.get?_set_self]
  exact ofGroup_toFields h

/-- What is written has a half of a surrogate pair exactly if another group has one. -/
theorem hasHalf_storedWith (s : Settings) {old : Option Value}
    (hkeys : (keptFields old).keys.Nodup) :
    (s.storedWith old).HasHalf ↔
      ∃ f ∈ keptFields old, f.1 ≠ groupKey ∧ (Broken f.1 ∨ f.2.HasHalf) := by
  rw [storedWith_eq, Value.hasHalf_obj]
  constructor
  · rintro ⟨f, hf, hhalf⟩
    rcases (Fields.mem_set_iff hkeys f).mp hf with ⟨hf, hne⟩ | rfl
    · exact ⟨f, hf, hne, hhalf⟩
    · rcases hhalf with hkey | hgroup
      · exact absurd hkey (Json.not_broken_letters _)
      · exact absurd hgroup (group_plain s).not_hasHalf
  · rintro ⟨f, hf, hne, hhalf⟩
    exact ⟨f, (Fields.mem_set_iff hkeys f).mpr (.inl ⟨hf, hne⟩), hhalf⟩

/-! ## The content -/

theorem keptFields_readable {old : Option Value} (h : ∀ v, old = some v → v.Readable Json.maxDepth) :
    (Value.obj (keptFields old)).Readable Json.maxDepth := by
  have hempty : (Value.obj []).Readable Json.maxDepth :=
    .obj List.nodup_nil (List.forall_mem_nil _)
  cases old with
  | none => exact hempty
  | some v =>
    have hv := h v rfl
    cases v with
    | obj fields => exact hv
    | _ => exact hempty

/-- What a text stores, from the outcome of reading it. -/
def storedFrom : Except Json.ReadError Value → Except SettingsError (Option Value)
  | .ok v => .ok (some v)
  | .error .malformed => .ok none
  | .error (.integerTooLong digits) => .error (.numeral (.tooLong digits))
  | .error (.nestedTooDeeply container) => .error (.nestedTooDeeply container)

theorem storedIn_encode (text : Text) :
    storedIn (Utf8.encode text) = storedFrom (Json.read text) := by
  have hdecode := (Utf8.decode_eq_ok_iff (Utf8.encode text) text).mpr rfl
  rw [storedIn, hdecode]
  rfl

theorem storedIn_encode_written {v : Value} (hplain : v.Plain)
    (hreadable : v.Readable Json.maxDepth) :
    storedIn (Utf8.encode (chars v.written.flatten)) = .ok (some v) := by
  rw [storedIn_encode, Json.read_written hplain hreadable]
  rfl

/-- A content written without a fault stores the value it was written for. -/
theorem storedIn_writtenOver {s : Settings} {old : Option Value} (hplain : (s.storedWith old).Plain)
    (hreadable : (s.storedWith old).Readable Json.maxDepth) :
    storedIn (s.writtenOver old).1 = .ok (some (s.storedWith old)) := by
  have hwhole : ¬Broken (s.storedWith old).written.flatten :=
    mt ((s.storedWith old).broken_rendered 0).mp hplain.not_hasHalf
  rw [writtenOver, encodePieces_of_not_broken hwhole]
  exact storedIn_encode_written hplain hreadable

/-- A content written without a fault stores an object with the group of the settings, whatever stands
beside it. -/
theorem exists_storedIn_writtenOver {s : Settings} {old : Option Value}
    (hkeys : (keptFields old).keys.Nodup) (hreadable : (s.storedWith old).Readable Json.maxDepth)
    (hwhole : (s.writtenOver old).2 = none) :
    ∃ fields, storedIn (s.writtenOver old).1 = .ok (some (.obj fields)) ∧
      Fields.get? fields groupKey = some (.obj s.toFields) := by
  have hbroken := (encodePieces_whole_iff _).mp hwhole
  have hhalf := mt ((s.storedWith old).broken_rendered 0).mpr hbroken
  rw [writtenOver, encodePieces_of_not_broken hbroken, storedIn_encode]
  rw [storedWith_eq] at hhalf hreadable ⊢
  obtain ⟨g, hg, hread⟩ := Json.exists_read_written hhalf hreadable
  have hgroup := hg (groupKey, .obj s.toFields)
    ((Fields.mem_set_iff hkeys _).mpr (.inr rfl)) (group_plain s)
  refine ⟨_, by rw [hread]; rfl, ?_⟩
  rw [Json.get?_map_replaceValue, Fields.get?_set_self, Option.map_some]
  exact congrArg some hgroup

end WordCycle.Settings
