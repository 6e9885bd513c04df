import WordCycle.Json.Reader
import Mathlib.Algebra.Group.Nat.Defs
import Mathlib.Data.List.Nodup

/-! JSON values by what they are made of: the keys of an object are kept apart by setting fields, and
a value may be free of lone halves of surrogate pairs, and readable within a number of containers. -/

namespace WordCycle.Json
set_option autoImplicit false

@[elab_as_elim]
theorem Value.induct {motive : Value → Prop} (null : motive .null) (bool : ∀ b, motive (.bool b))
    (int : ∀ n, motive (.int n)) (float : ∀ x, motive (.float x)) (str : ∀ s, motive (.str s))
    (arr : ∀ items : List Value, (∀ v ∈ items, motive v) → motive (.arr items))
    (obj : ∀ fields : Fields, (∀ f ∈ fields, motive f.2) → motive (.obj fields)) (v : Value) :
    motive v :=
  @Value.rec motive (fun items => ∀ v ∈ items, motive v) (fun fields => ∀ f ∈ fields, motive f.2)
    (fun f => motive f.2) null bool int float str arr obj
    (fun _ h => nomatch h) (fun _ _ hv hrest => List.forall_mem_cons.mpr ⟨hv, hrest⟩)
    (fun _ h => nomatch h) (fun _ _ hf hrest => List.forall_mem_cons.mpr ⟨hf, hrest⟩)
    (fun _ _ h => h) v

/-! ## Letters -/

/-- The characters among letters. -/
def chars (s : List Letter) : Text :=
  s.filterMap fun
    | .char c => some c
    | .half _ => none

/-- Whether letters hold half of a surrogate pair. -/
def Broken (s : List Letter) : Prop := ∃ unit, Letter.half unit ∈ s

@[simp]
theorem chars_letters (t : Text) : chars (letters t) = t := by
  induction t with
  | nil => rfl
  | cons c t ih => exact congrArg (c :: ·) ih

@[simp]
theorem chars_append (a b : List Letter) : chars (a ++ b) = chars a ++ chars b :=
  List.filterMap_append

@[simp]
theorem chars_nil : chars [] = [] := rfl

@[simp]
theorem chars_char_cons (c : Char) (s : List Letter) : chars (.char c :: s) = c :: chars s := rfl

@[simp]
theorem not_broken_letters (t : Text) : ¬Broken (letters t) := by
  rintro ⟨unit, h⟩
  simp [letters] at h

@[simp]
theorem broken_append (a b : List Letter) : Broken (a ++ b) ↔ Broken a ∨ Broken b := by
  simp only [Broken, List.mem_append, exists_or]

@[simp]
theorem not_broken_nil : ¬Broken [] := not_broken_letters []

@[simp]
theorem broken_char_cons (c : Char) (s : List Letter) : Broken (.char c :: s) ↔ Broken s := by
  simp [Broken]

@[simp]
theorem broken_half_cons (unit : Nat) (s : List Letter) : Broken (.half unit :: s) :=
  ⟨unit, List.mem_cons_self⟩

theorem exists_letters {s : List Letter} (h : ¬Broken s) : ∃ t, s = letters t := by
  induction s with
  | nil => exact ⟨[], rfl⟩
  | cons l s ih =>
    cases l with
    | char c =>
      obtain ⟨t, rfl⟩ := ih (mt (broken_char_cons c s).mpr h)
      exact ⟨c :: t, rfl⟩
    | half unit => exact absurd (broken_half_cons unit s) h

/-! ## Fields -/

namespace Fields

def keys (fields : Fields) : List (List Letter) := fields.map Prod.fst

theorem mem_set {key : List Letter} {value : Value} {fields : Fields} {f : List Letter × Value}
    (h : f ∈ fields.set key value) : f ∈ fields ∨ f = (key, value) := by
  induction fields with
  | nil => exact .inr (List.mem_singleton.mp h)
  | cons g rest ih =>
    obtain ⟨k, v⟩ := g
    simp only [set] at h
    split at h
    · next hk =>
      subst hk
      rcases List.mem_cons.mp h with rfl | hrest
      · exact .inr rfl
      · exact .inl (List.mem_cons_of_mem _ hrest)
    · rcases List.mem_cons.mp h with rfl | hrest
      · exact .inl List.mem_cons_self
      · exact (ih hrest).imp_left (List.mem_cons_of_mem _)

theorem mem_set_iff {key : List Letter} {value : Value} {fields : Fields} (hnodup : fields.keys.Nodup)
    (f : List Letter × Value) :
    f ∈ fields.set key value ↔ f ∈ fields ∧ f.1 ≠ key ∨ f = (key, value) := by
  induction fields with
  | nil => simp [set]
  | cons g rest ih =>
    obtain ⟨k, v⟩ := g
    obtain ⟨hk, hrest⟩ := List.nodup_cons.mp hnodup
    rw [set]
    split
    · next heq =>
      subst heq
      have hlater : ∀ f ∈ rest, f.1 ≠ k := by
        intro f hf heq
        exact hk (List.mem_map.mpr ⟨f, hf, heq⟩)
      constructor
      · intro h
        rcases List.mem_cons.mp h with rfl | h
        · exact .inr rfl
        · exact .inl ⟨List.mem_cons_of_mem _ h, hlater f h⟩
      · rintro (⟨h, hne⟩ | rfl)
        · rcases List.mem_cons.mp h with rfl | h
          · exact absurd rfl hne
          · exact List.mem_cons_of_mem _ h
        · exact List.mem_cons_self
    · next hne =>
      rw [List.mem_cons, List.mem_cons, ih hrest]
      constructor
      · rintro (rfl | ⟨h, hf⟩ | h)
        · exact .inl ⟨.inl rfl, hne⟩
        · exact .inl ⟨.inr h, hf⟩
        · exact .inr h
      · rintro (⟨rfl | h, hf⟩ | h)
        · exact .inl rfl
        · exact .inr (.inl ⟨h, hf⟩)
        · exact .inr (.inr h)

theorem keys_set_of_mem {key : List Letter} (value : Value) {fields : Fields}
    (h : key ∈ fields.keys) : (fields.set key value).keys = fields.keys := by
  induction fields with
  | nil => cases h
  | cons f rest ih =>
    obtain ⟨k, v⟩ := f
    simp only [set]
    split
    · rfl
    · next hk =>
      have hrest : key ∈ keys rest := (List.mem_cons.mp h).resolve_left (Ne.symm hk)
      exact congrArg (k :: ·) (ih hrest)

theorem set_of_notMem {key : List Letter} (value : Value) {fields : Fields}
    (h : key ∉ fields.keys) : fields.set key value = fields ++ [(key, value)] := by
  induction fields with
  | nil => rfl
  | cons f rest ih =>
    obtain ⟨k, v⟩ := f
    obtain ⟨hk, hrest⟩ := not_or.mp (mt List.mem_cons.mpr h)
    rw [set, if_neg (Ne.symm hk), ih hrest]
    rfl

theorem keys_set_of_notMem {key : List Letter} (value : Value) {fields : Fields}
    (h : key ∉ fields.keys) : (fields.set key value).keys = fields.keys ++ [key] := by
  rw [set_of_notMem value h, keys, List.map_append]
  rfl

theorem nodup_keys_set (key : List Letter) (value : Value) {fields : Fields}
    (h : fields.keys.Nodup) : (fields.set key value).keys.Nodup := by
  by_cases hkey : key ∈ fields.keys
  · rw [keys_set_of_mem value hkey]
    exact h
  · rw [keys_set_of_notMem value hkey]
    exact List.nodup_append_comm.mp (List.nodup_cons.mpr ⟨hkey, h⟩)

theorem get?_cons (f : List Letter × Value) (rest : Fields) (key : List Letter) :
    get? (f :: rest) key = if f.1 = key then some f.2 else rest.get? key := by
  by_cases h : f.1 = key
  · rw [if_pos h, ← h]
    exact List.lookup_cons_self
  · have hne : (key == f.1) = false := beq_eq_false_iff_ne.mpr (Ne.symm h)
    rw [if_neg h, get?, List.lookup_cons, hne]
    rfl

theorem get?_set_self (fields : Fields) (key : List Letter) (value : Value) :
    (fields.set key value).get? key = some value := by
  induction fields with
  | nil => rw [set, get?_cons, if_pos rfl]
  | cons f rest ih =>
    obtain ⟨k, v⟩ := f
    rw [set]
    split
    · next h => rw [get?_cons, if_pos h]
    · next h => rw [get?_cons, if_neg h, ih]

theorem get?_set_of_ne (fields : Fields) {key other : List Letter} (value : Value)
    (h : other ≠ key) : (fields.set key value).get? other = fields.get? other := by
  induction fields with
  | nil => rw [set, get?_cons, if_neg (Ne.symm h)]
  | cons f rest ih =>
    obtain ⟨k, v⟩ := f
    rw [set]
    split
    · next hk => rw [get?_cons, get?_cons, if_neg (hk ▸ Ne.symm h), if_neg (hk ▸ Ne.symm h)]
    · rw [get?_cons, get?_cons, ih]

theorem set_set (fields : Fields) (key : List Letter) (v w : Value) :
    (fields.set key v).set key w = fields.set key w := by
  induction fields with
  | nil => rw [set, set, set, if_pos rfl]
  | cons f rest ih =>
    obtain ⟨k, u⟩ := f
    by_cases h : k = key
    · rw [set, if_pos h, set, if_pos h, set, if_pos h]
    · rw [set, if_neg h, set, if_neg h, set, if_neg h, ih]

theorem ofWritten_eq (written : Fields) :
    ofWritten written = written.foldl (fun (fields : Fields) f => fields.set f.1 f.2) [] := rfl

/-- What fields written one after the other keep, if setting a field keeps it. -/
theorem ofWritten_induction {P : Fields → Prop} {written : Fields} (hnil : P [])
    (hset : ∀ fields f, f ∈ written → P fields → P (fields.set f.1 f.2)) : P (ofWritten written) := by
  have hfold : ∀ (rest fields : Fields), (∀ f ∈ rest, f ∈ written) → P fields →
      P (rest.foldl (fun (fields : Fields) f => fields.set f.1 f.2) fields) := by
    intro rest
    induction rest with
    | nil => exact fun fields _ h => h
    | cons f rest ih =>
      intro fields hmem h
      obtain ⟨hf, hrest⟩ := List.forall_mem_cons.mp hmem
      exact ih _ hrest (hset fields f hf h)
  rw [ofWritten_eq]
  exact hfold written [] (fun f hf => hf) hnil

theorem nodup_keys_ofWritten (written : Fields) : (ofWritten written).keys.Nodup :=
  ofWritten_induction (P := fun fields => fields.keys.Nodup) List.nodup_nil
    fun _ f _ h => nodup_keys_set f.1 f.2 h

theorem mem_of_mem_ofWritten {written : Fields} {f : List Letter × Value}
    (h : f ∈ ofWritten written) : f ∈ written := by
  have hall : ∀ g ∈ ofWritten written, g ∈ written := by
    refine ofWritten_induction (P := fun fields => ∀ g ∈ fields, g ∈ written) (fun g hg => nomatch hg) ?_
    intro fields f hf h g hg
    rcases mem_set hg with hold | rfl
    · exact h g hold
    · exact hf
  exact hall f h

/-- Fields whose keys are all different are kept as they were written. -/
theorem ofWritten_of_nodup {fields : Fields} (h : fields.keys.Nodup) : ofWritten fields = fields := by
  have hfold : ∀ (rest done : Fields), (keys (done ++ rest)).Nodup →
      rest.foldl (fun (fields : Fields) f => fields.set f.1 f.2) done = done ++ rest := by
    intro rest
    induction rest with
    | nil => exact fun done _ => (List.append_nil done).symm
    | cons f rest ih =>
      intro done hnodup
      have hkey : f.1 ∉ keys done := by
        intro hmem
        rw [keys, List.map_append] at hnodup
        exact hnodup.disjoint hmem List.mem_cons_self
      have hsplit : done ++ f :: rest = (done ++ [f]) ++ rest := List.append_cons done f rest
      rw [hsplit] at hnodup ⊢
      rw [← ih (done ++ [f]) hnodup, ← set_of_notMem f.2 hkey]
      rfl
  rw [ofWritten_eq]
  exact hfold fields [] h

end Fields

/-! ## Values -/

/-- A value in which half of a surrogate pair stands without the other half. -/
inductive Value.HasHalf : Value → Prop
  | str {s : List Letter} (h : Broken s) : HasHalf (.str s)
  | item {items : List Value} {v : Value} (hv : v ∈ items) (h : HasHalf v) : HasHalf (.arr items)
  | key {fields : Fields} {f : List Letter × Value} (hf : f ∈ fields) (h : Broken f.1) :
    HasHalf (.obj fields)
  | field {fields : Fields} {f : List Letter × Value} (hf : f ∈ fields) (h : HasHalf f.2) :
    HasHalf (.obj fields)

/-- A value made of null, truth values, integers, texts, and arrays and objects of these. -/
inductive Value.Plain : Value → Prop
  | null : Plain .null
  | bool (b : Bool) : Plain (.bool b)
  | int (n : Int) : Plain (.int n)
  | str (t : Text) : Plain (.str (letters t))
  | arr {items : List Value} (h : ∀ v ∈ items, Plain v) : Plain (.arr items)
  | obj {fields : Fields} (hkeys : ∀ f ∈ fields, ∃ t, f.1 = letters t)
    (h : ∀ f ∈ fields, Plain f.2) : Plain (.obj fields)

/-- A value that is read inside of so many containers that `room` more can be open at once: its
integers are not too long and no key of an object stands there twice. -/
inductive Value.Readable : Nat → Value → Prop
  | null (room : Nat) : Readable room .null
  | bool (room : Nat) (b : Bool) : Readable room (.bool b)
  | int (room : Nat) {n : Int} (h : n.natAbs < 10 ^ maxDigits) : Readable room (.int n)
  | float (room : Nat) (x : Float) : Readable room (.float x)
  | str (room : Nat) (s : List Letter) : Readable room (.str s)
  | arr {room : Nat} {items : List Value} (h : ∀ v ∈ items, Readable room v) :
    Readable (room + 1) (.arr items)
  | obj {room : Nat} {fields : Fields} (hkeys : fields.keys.Nodup)
    (h : ∀ f ∈ fields, Readable room f.2) : Readable (room + 1) (.obj fields)

theorem Value.Readable.mono {room more : Nat} {v : Value} (h : v.Readable room) (hle : room ≤ more) :
    v.Readable more := by
  induction h generalizing more with
  | null => exact .null more
  | bool _ b => exact .bool more b
  | int _ hn => exact .int more hn
  | float _ x => exact .float more x
  | str _ s => exact .str more s
  | arr _ ih =>
    obtain ⟨more, rfl⟩ := Nat.exists_eq_add_of_lt (Nat.lt_of_succ_le hle)
    exact .arr fun v hv => ih v hv (by omega)
  | obj hkeys _ ih =>
    obtain ⟨more, rfl⟩ := Nat.exists_eq_add_of_lt (Nat.lt_of_succ_le hle)
    exact .obj hkeys fun f hf => ih f hf (by omega)

end WordCycle.Json
