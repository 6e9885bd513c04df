import WordCycle.Proofs.Json.Floats

/-! Reading a value that was written gives the value again, its floats apart, of which others may be read.
The fuel of reading is bounded by the text that is left: each item costs two steps and at least the comma
in front of it. -/

namespace WordCycle.Json
set_option autoImplicit false

/-! ## Where parts begin -/

theorem chars_newline (level : Nat) :
    chars (newline level) = '\n' :: List.replicate (2 * level) ' ' := by
  have hblanks : List.replicate (2 * level) (Letter.char ' ') =
      letters (List.replicate (2 * level) ' ') := List.map_replicate.symm
  rw [newline, chars_char_cons, hblanks, chars_letters]

theorem chars_separator (level : Nat) : chars (separator level) = ',' :: chars (newline level) := rfl

theorem skipSpace_cons {c : Char} (rest : Text) (h : isSpace c = false) :
    skipSpace (c :: rest) = c :: rest :=
  List.dropWhile_cons_of_neg (by simp [h])

theorem skipSpace_newline (level : Nat) {c : Char} (rest : Text) (h : isSpace c = false) :
    skipSpace (chars (newline level) ++ c :: rest) = c :: rest := by
  have hblank : ∀ d ∈ chars (newline level), isSpace d = true := by
    intro d hd
    rw [chars_newline] at hd
    rcases List.mem_cons.mp hd with rfl | hd
    · rfl
    · obtain rfl := List.eq_of_mem_replicate hd
      rfl
  rw [skipSpace, List.dropWhile_append_of_pos hblank]
  exact skipSpace_cons rest h

/-- A value that was written begins with no blank and with no bracket that closes an array. -/
theorem Value.exists_head (v : Value) (level : Nat) :
    ∃ c rest, chars (v.rendered level) = c :: rest ∧ isSpace c = false ∧ c ≠ ']' := by
  cases v with
  | null =>
    rw [Value.rendered_of_scalar level rfl]
    exact ⟨'n', _, rfl, rfl, by decide⟩
  | bool b =>
    rw [Value.rendered_of_scalar level rfl]
    cases b
    · exact ⟨'f', _, rfl, rfl, by decide⟩
    · exact ⟨'t', _, rfl, rfl, by decide⟩
  | int n =>
    obtain ⟨c, text, htext, hc⟩ := integerText_head n
    rw [Value.rendered_of_scalar level rfl, chars_letters, htext]
    exact ⟨c, text, rfl, hc.apart.1, hc.apart.2.1⟩
  | float x =>
    obtain ⟨c, text, _, htext, hc, -⟩ := floatText_reads x
    rw [Value.rendered_of_scalar level rfl, chars_letters, htext]
    exact ⟨c, text, rfl, hc.apart.1, hc.apart.2.1⟩
  | str s =>
    rw [Value.rendered_of_scalar level rfl]
    exact ⟨'"', _, rfl, rfl, by decide⟩
  | arr items =>
    cases items with
    | nil => exact ⟨'[', _, by rw [rendered_arr_nil, chars_letters], rfl, by decide⟩
    | cons v rest =>
      rw [rendered_arr_cons, itemsRendered_cons]
      exact ⟨'[', _, rfl, rfl, by decide⟩
  | obj fields =>
    cases fields with
    | nil => exact ⟨'\x7b', _, by rw [rendered_obj_nil, chars_letters], rfl, by decide⟩
    | cons f rest =>
      rw [rendered_obj_cons]
      exact ⟨'\x7b', _, rfl, rfl, by decide⟩

theorem closes_newline (level : Nat) (tail : Text) : Closes (chars (newline level) ++ tail) := by
  rw [chars_newline]
  exact closes_cons _ (.inr rfl)

theorem Value.skipSpace_rendered (v : Value) (level : Nat) (rest : Text) :
    skipSpace (chars (v.rendered level) ++ rest) = chars (v.rendered level) ++ rest := by
  obtain ⟨c, t, htext, hc, -⟩ := v.exists_head level
  rw [htext, List.cons_append]
  exact skipSpace_cons _ hc

theorem Value.skipSpace_newline_rendered (v : Value) (outer level : Nat) (rest : Text) :
    skipSpace (chars (newline outer) ++ (chars (v.rendered level) ++ rest)) =
      chars (v.rendered level) ++ rest := by
  obtain ⟨c, t, htext, hc, -⟩ := v.exists_head level
  rw [htext, List.cons_append]
  exact skipSpace_newline outer _ hc

/-! ## Items and fields -/

/-- Wherever a value is written, reading gives the other one, if there is room for it and fuel for what is
left of the text. -/
def Value.ReadsAs (v w : Value) : Prop :=
  ∀ (level depth room fuel : Nat) (tail : Text), v.Readable room → depth + room ≤ maxDepth →
    Closes tail → 2 * (chars (v.rendered level) ++ tail).length ≤ fuel →
    readValue depth fuel (chars (v.rendered level) ++ tail) = .ok (w, tail)

/-- What stands behind an item, up to the end of its array and further. -/
def itemsBehind (level outer : Nat) (items : List Value) (tail : Text) : Text :=
  chars (itemsRendered level (separator level) items) ++ (chars (newline outer) ++ ']' :: tail)

theorem itemsBehind_nil (level outer : Nat) (tail : Text) :
    itemsBehind level outer [] tail = chars (newline outer) ++ ']' :: tail := by
  rw [itemsBehind, itemsRendered_nil]
  rfl

theorem itemsBehind_cons (level outer : Nat) (v : Value) (items : List Value) (tail : Text) :
    itemsBehind level outer (v :: items) tail =
      ',' :: (chars (newline level) ++
        (chars (v.rendered level) ++ itemsBehind level outer items tail)) := by
  rw [itemsBehind, itemsRendered_cons]
  simp [itemsBehind, chars_separator, List.append_assoc]

theorem closes_itemsBehind (level outer : Nat) (items : List Value) (tail : Text) :
    Closes (itemsBehind level outer items tail) := by
  cases items with
  | nil =>
    rw [itemsBehind_nil]
    exact closes_newline outer _
  | cons v items =>
    rw [itemsBehind_cons]
    exact closes_cons _ (.inl rfl)

theorem readItems_item {level depth room fuel : Nat} (hroom : depth + room ≤ maxDepth) {v w : Value}
    {behind : Text} (hreadable : v.Readable room) (hreads : v.ReadsAs w) (hbehind : Closes behind)
    (hfuel : 2 * (chars (v.rendered level) ++ behind).length ≤ fuel) :
    readItems depth (fuel + 1) (chars (v.rendered level) ++ behind) =
      match skipSpace behind with
      | ',' :: rest => do
        let (items, rest) ← readItems depth fuel (skipSpace rest)
        return (w :: items, rest)
      | ']' :: rest => return ([w], rest)
      | _ => throw .malformed := by
  have hvalue := hreads level depth room fuel behind hreadable hroom hbehind hfuel
  rw [readItems, hvalue]
  rfl

theorem readItems_rendered (level outer : Nat) {depth room : Nat} (hroom : depth + room ≤ maxDepth)
    (tail : Text) {g : Value → Value} {v : Value} {items : List Value}
    (hreadable : ∀ u ∈ v :: items, u.Readable room) (hreads : ∀ u ∈ v :: items, u.ReadsAs (g u))
    {fuel : Nat}
    (hfuel : 2 * (chars (v.rendered level) ++ itemsBehind level outer items tail).length < fuel) :
    readItems depth fuel (chars (v.rendered level) ++ itemsBehind level outer items tail) =
      .ok ((v :: items).map g, tail) := by
  induction items generalizing v fuel with
  | nil =>
    obtain ⟨fuel, rfl⟩ := Nat.exists_eq_add_one.mpr (Nat.zero_lt_of_lt hfuel)
    have hend := skipSpace_newline outer tail (c := ']') rfl
    rw [readItems_item hroom (hreadable v (by simp)) (hreads v (by simp))
      (closes_itemsBehind level outer [] tail) (by omega), itemsBehind_nil, hend]
    rfl
  | cons w items ih =>
    obtain ⟨fuel, rfl⟩ := Nat.exists_eq_add_one.mpr (Nat.zero_lt_of_lt hfuel)
    have hlater : readItems depth fuel
        (chars (w.rendered level) ++ itemsBehind level outer items tail) =
          .ok ((w :: items).map g, tail) := by
      refine ih (fun u hu => hreadable u (List.mem_cons_of_mem _ hu))
        (fun u hu => hreads u (List.mem_cons_of_mem _ hu)) ?_
      rw [itemsBehind_cons] at hfuel
      simp only [List.length_append, List.length_cons] at hfuel ⊢
      omega
    have hnext := w.skipSpace_newline_rendered level level (itemsBehind level outer items tail)
    rw [readItems_item hroom (hreadable v (by simp)) (hreads v (by simp))
      (closes_itemsBehind level outer (w :: items) tail) (by omega), itemsBehind_cons,
      skipSpace_cons _ rfl]
    change (readItems depth fuel (skipSpace (chars (newline level) ++ _)) >>= _) = _
    rw [hnext, hlater]
    rfl

/-- A field as it is written. -/
def fieldText (level : Nat) (f : List Letter × Value) : Text :=
  chars (quoted f.1) ++ ':' :: ' ' :: chars (f.2.rendered level)

/-- What stands behind a field, up to the end of its object and further. -/
def fieldsBehind (level outer : Nat) (fields : Fields) (tail : Text) : Text :=
  chars (fieldsRendered level (some (separator level)) fields) ++
    (chars (newline outer) ++ '\x7d' :: tail)

theorem fieldsBehind_nil (level outer : Nat) (tail : Text) :
    fieldsBehind level outer [] tail = chars (newline outer) ++ '\x7d' :: tail := by
  rw [fieldsBehind, fieldsRendered_nil]
  rfl

theorem fieldsBehind_cons (level outer : Nat) (f : List Letter × Value) (fields : Fields)
    (tail : Text) :
    fieldsBehind level outer (f :: fields) tail =
      ',' :: (chars (newline level) ++ (fieldText level f ++ fieldsBehind level outer fields tail)) := by
  rw [fieldsBehind, fieldsRendered_cons, Option.getD_some]
  simp [fieldsBehind, fieldText, chars_separator, List.append_assoc]

theorem closes_fieldsBehind (level outer : Nat) (fields : Fields) (tail : Text) :
    Closes (fieldsBehind level outer fields tail) := by
  cases fields with
  | nil =>
    rw [fieldsBehind_nil]
    exact closes_newline outer _
  | cons f fields =>
    rw [fieldsBehind_cons]
    exact closes_cons _ (.inl rfl)

theorem fieldText_eq {f : List Letter × Value} {key : Text} (hkey : f.1 = letters key)
    (level : Nat) (rest : Text) :
    fieldText level f ++ rest =
      '"' :: ((key.flatMap escape ++ ['"']) ++
        ':' :: ' ' :: (chars (f.2.rendered level) ++ rest)) := by
  rw [fieldText, hkey, chars_quoted]
  simp [List.append_assoc]

/-- A field with a value in place of its own. -/
def replaceValue (g : Value → Value) (f : List Letter × Value) : List Letter × Value := (f.1, g f.2)

theorem readFields_field {level depth room fuel : Nat} (hroom : depth + room ≤ maxDepth)
    {g : Value → Value} {f : List Letter × Value} {behind : Text} (hkey : ∃ t, f.1 = letters t)
    (hreadable : f.2.Readable room) (hreads : f.2.ReadsAs (g f.2)) (hbehind : Closes behind)
    (hfuel : 2 * (fieldText level f ++ behind).length ≤ fuel) :
    readFields depth (fuel + 1) (fieldText level f ++ behind) =
      match skipSpace behind with
      | ',' :: rest => do
        let (fields, rest) ← readFields depth fuel (skipSpace rest)
        return (replaceValue g f :: fields, rest)
      | '\x7d' :: rest => return ([replaceValue g f], rest)
      | _ => throw .malformed := by
  obtain ⟨k, v⟩ := f
  obtain ⟨key, rfl⟩ := hkey
  rw [fieldText_eq rfl] at hfuel ⊢
  have hvalue := hreads level depth room fuel behind hreadable hroom hbehind
    (by simp only [List.length_append, List.length_cons] at hfuel ⊢; omega)
  have hblank : skipSpace (' ' :: (chars (v.rendered level) ++ behind)) =
      chars (v.rendered level) ++ behind := v.skipSpace_rendered level behind
  rw [readFields, readString_quoted]
  change (readValue depth fuel (skipSpace (' ' :: (chars (v.rendered level) ++ behind))) >>= _) = _
  rw [hblank, hvalue]
  rfl

theorem readFields_rendered (level outer : Nat) {depth room : Nat} (hroom : depth + room ≤ maxDepth)
    (tail : Text) {g : Value → Value} {f : List Letter × Value} {fields : Fields}
    (hkeys : ∀ h ∈ f :: fields, ∃ t, h.1 = letters t)
    (hreadable : ∀ h ∈ f :: fields, h.2.Readable room)
    (hreads : ∀ h ∈ f :: fields, h.2.ReadsAs (g h.2)) {fuel : Nat}
    (hfuel : 2 * (fieldText level f ++ fieldsBehind level outer fields tail).length < fuel) :
    readFields depth fuel (fieldText level f ++ fieldsBehind level outer fields tail) =
      .ok ((f :: fields).map (replaceValue g), tail) := by
  induction fields generalizing f fuel with
  | nil =>
    obtain ⟨fuel, rfl⟩ := Nat.exists_eq_add_one.mpr (Nat.zero_lt_of_lt hfuel)
    have hend := skipSpace_newline outer tail (c := '\x7d') rfl
    rw [readFields_field hroom (hkeys f (by simp)) (hreadable f (by simp)) (hreads f (by simp))
      (closes_fieldsBehind level outer [] tail) (by omega), fieldsBehind_nil, hend]
    rfl
  | cons h fields ih =>
    obtain ⟨fuel, rfl⟩ := Nat.exists_eq_add_one.mpr (Nat.zero_lt_of_lt hfuel)
    have hlater : readFields depth fuel
        (fieldText level h ++ fieldsBehind level outer fields tail) =
          .ok ((h :: fields).map (replaceValue g), tail) := by
      refine ih (fun u hu => hkeys u (List.mem_cons_of_mem _ hu))
        (fun u hu => hreadable u (List.mem_cons_of_mem _ hu))
        (fun u hu => hreads u (List.mem_cons_of_mem _ hu)) ?_
      rw [fieldsBehind_cons] at hfuel
      simp only [List.length_append, List.length_cons] at hfuel ⊢
      omega
    obtain ⟨key, hkey⟩ := hkeys h (by simp)
    have hnext : skipSpace (chars (newline level) ++
        (fieldText level h ++ fieldsBehind level outer fields tail)) =
        fieldText level h ++ fieldsBehind level outer fields tail := by
      rw [fieldText_eq hkey]
      exact skipSpace_newline level _ rfl
    rw [readFields_field hroom (hkeys f (by simp)) (hreadable f (by simp)) (hreads f (by simp))
      (closes_fieldsBehind level outer (h :: fields) tail) (by omega),
      fieldsBehind_cons, skipSpace_cons _ rfl]
    change (readFields depth fuel (skipSpace (chars (newline level) ++ _)) >>= _) = _
    rw [hnext, hlater]
    rfl

/-! ## Values -/

theorem readValue_scalar {depth fuel : Nat} {c : Char} (rest : Text)
    (hc : c ≠ '"' ∧ c ≠ '[' ∧ c ≠ '\x7b') :
    readValue depth (fuel + 1) (c :: rest) = readScalar (c :: rest) := by
  obtain ⟨hquote, hbracket, hbrace⟩ := hc
  rw [readValue.eq_def]
  dsimp only
  split
  · next heq => exact absurd (List.cons.inj heq).1 hquote
  · next heq => exact absurd (List.cons.inj heq).1 hbracket
  · next heq => exact absurd (List.cons.inj heq).1 hbrace
  · rfl

theorem readValue_array {depth fuel : Nat} {rest t : Text} {c : Char} (hdepth : depth < maxDepth)
    (hskip : skipSpace rest = c :: t) (hc : c ≠ ']') :
    readValue depth (fuel + 1) ('[' :: rest) =
      (readItems (depth + 1) fuel (c :: t)).map fun (items, rest) => (.arr items, rest) := by
  rw [readValue, if_neg (Nat.not_le.mpr hdepth), hskip]
  split
  · next heq => exact absurd (List.cons.inj heq).1 hc
  · rfl

theorem readValue_object {depth fuel : Nat} {rest t : Text} {c : Char} (hdepth : depth < maxDepth)
    (hskip : skipSpace rest = c :: t) (hc : c ≠ '\x7d') :
    readValue depth (fuel + 1) ('\x7b' :: rest) =
      (readFields (depth + 1) fuel (c :: t)).map fun (fields, rest) =>
        (.obj (Fields.ofWritten fields), rest) := by
  rw [readValue, if_neg (Nat.not_le.mpr hdepth), hskip]
  split
  · next heq => exact absurd (List.cons.inj heq).1 hc
  · rfl

theorem readsAs_of_scalar {v w : Value} (c : Char) (text : Text)
    (hv : v.scalar? = some (letters (c :: text))) (hc : c ≠ '"' ∧ c ≠ '[' ∧ c ≠ '\x7b')
    (hread : ∀ room tail, v.Readable room → Closes tail →
      readScalar (c :: text ++ tail) = .ok (w, tail)) : v.ReadsAs w := by
  intro level depth room fuel tail hreadable _ htail hfuel
  rw [v.rendered_of_scalar level hv, chars_letters] at hfuel ⊢
  obtain ⟨fuel, rfl⟩ := Nat.exists_eq_add_one.mpr (Nat.lt_of_lt_of_le (by simp) hfuel)
  rw [List.cons_append, readValue_scalar _ hc]
  exact hread room tail hreadable htail

theorem readsAs_null : Value.null.ReadsAs .null :=
  readsAs_of_scalar 'n' "ull".toList rfl (by decide) fun _ _ _ _ => rfl

theorem readsAs_bool (b : Bool) : (Value.bool b).ReadsAs (.bool b) := by
  cases b with
  | false =>
    exact readsAs_of_scalar 'f' "alse".toList rfl (by decide) fun _ _ _ _ => rfl
  | true =>
    exact readsAs_of_scalar 't' "rue".toList rfl (by decide) fun _ _ _ _ => rfl

theorem readsAs_int (n : Int) : (Value.int n).ReadsAs (.int n) := by
  obtain ⟨c, text, htext, hc⟩ := integerText_head n
  refine readsAs_of_scalar c text (congrArg (fun t => some (letters t)) htext) hc.apart.2.2 ?_
  intro room tail hreadable htail
  cases hreadable with
  | int _ hn =>
    rw [← htext]
    exact readScalar_integerText hn htail

theorem exists_readsAs_float (x : Float) : ∃ y, (Value.float x).ReadsAs (.float y) := by
  obtain ⟨c, text, y, htext, hc, hread⟩ := floatText_reads x
  exact ⟨y, readsAs_of_scalar c text (congrArg (fun t => some (letters t)) htext) hc.apart.2.2
    fun _ tail _ htail => hread tail htail⟩

theorem readsAs_str (t : Text) : (Value.str (letters t)).ReadsAs (.str (letters t)) := by
  intro level depth room fuel tail _ _ _ hfuel
  rw [Value.rendered_of_scalar level rfl, chars_quoted] at hfuel ⊢
  obtain ⟨fuel, rfl⟩ := Nat.exists_eq_add_one.mpr (Nat.lt_of_lt_of_le (by simp) hfuel)
  rw [List.cons_append, readValue, readString_quoted]
  rfl

theorem readsAs_arr {g : Value → Value} {items : List Value}
    (hreads : ∀ v ∈ items, v.ReadsAs (g v)) : (Value.arr items).ReadsAs (.arr (items.map g)) := by
  intro level depth room fuel tail hreadable hroom htail hfuel
  cases hreadable with
  | arr hreadable =>
  rename_i room
  have hdepth : depth < maxDepth := by omega
  obtain ⟨fuel, rfl⟩ : ∃ more, fuel = more + 1 := by
    obtain ⟨c, text, htext, -⟩ := (Value.arr items).exists_head level
    rw [htext, List.cons_append, List.length_cons] at hfuel
    exact ⟨fuel - 1, by omega⟩
  cases items with
  | nil =>
    rw [rendered_arr_nil, chars_letters, List.cons_append, List.singleton_append, readValue,
      if_neg (Nat.not_le.mpr hdepth), skipSpace_cons _ rfl]
    rfl
  | cons v items =>
    have htext : chars ((Value.arr (v :: items)).rendered level) ++ tail =
        '[' :: (chars (newline (level + 1)) ++ (chars (v.rendered (level + 1)) ++
          itemsBehind (level + 1) level items tail)) := by
      rw [rendered_arr_cons, itemsRendered_cons, itemsBehind]
      simp [List.append_assoc]
    rw [htext] at hfuel ⊢
    obtain ⟨c, text, hhead, hc, hend⟩ := v.exists_head (level + 1)
    have hskip := v.skipSpace_newline_rendered (level + 1) (level + 1)
      (itemsBehind (level + 1) level items tail)
    rw [hhead, List.cons_append] at hskip
    have hitems : readItems (depth + 1) fuel (chars (v.rendered (level + 1)) ++
        itemsBehind (level + 1) level items tail) = .ok ((v :: items).map g, tail) := by
      refine readItems_rendered (level + 1) level (by omega) tail hreadable hreads ?_
      simp only [List.length_append, List.length_cons] at hfuel ⊢
      omega
    rw [hhead, List.cons_append] at hitems
    rw [hhead, List.cons_append, readValue_array hdepth hskip hend, hitems]
    rfl

theorem readsAs_obj {g : Value → Value} {fields : Fields}
    (hkeys : ∀ f ∈ fields, ∃ t, f.1 = letters t) (hreads : ∀ f ∈ fields, f.2.ReadsAs (g f.2)) :
    (Value.obj fields).ReadsAs (.obj (fields.map (replaceValue g))) := by
  intro level depth room fuel tail hreadable hroom htail hfuel
  cases hreadable with
  | obj hnodup hreadable =>
  rename_i room
  have hdepth : depth < maxDepth := by omega
  have hkept : Fields.keys (fields.map (replaceValue g)) = Fields.keys fields := List.map_map
  obtain ⟨fuel, rfl⟩ : ∃ more, fuel = more + 1 := by
    obtain ⟨c, text, htext, -⟩ := (Value.obj fields).exists_head level
    rw [htext, List.cons_append, List.length_cons] at hfuel
    exact ⟨fuel - 1, by omega⟩
  cases fields with
  | nil =>
    rw [rendered_obj_nil, chars_letters, List.cons_append, List.singleton_append, readValue,
      if_neg (Nat.not_le.mpr hdepth), skipSpace_cons _ rfl]
    rfl
  | cons f fields =>
    have htext : chars ((Value.obj (f :: fields)).rendered level) ++ tail =
        '\x7b' :: (chars (newline (level + 1)) ++
          (fieldText (level + 1) f ++ fieldsBehind (level + 1) level fields tail)) := by
      rw [rendered_obj_cons, fieldsRendered_cons, fieldsBehind, fieldText]
      simp [List.append_assoc]
    rw [htext] at hfuel ⊢
    obtain ⟨key, hkey⟩ := hkeys f (by simp)
    have hhead := fieldText_eq hkey (level + 1) (fieldsBehind (level + 1) level fields tail)
    have hfields : readFields (depth + 1) fuel (fieldText (level + 1) f ++
        fieldsBehind (level + 1) level fields tail) =
          .ok ((f :: fields).map (replaceValue g), tail) := by
      refine readFields_rendered (level + 1) level (by omega) tail hkeys hreadable hreads ?_
      simp only [List.length_append, List.length_cons] at hfuel ⊢
      omega
    rw [hhead] at hfields ⊢
    rw [readValue_object hdepth (skipSpace_newline (level + 1) _ rfl) (by decide), hfields]
    exact congrArg (fun fields => Except.ok (Value.obj fields, tail))
      (Fields.ofWritten_of_nodup (hkept ▸ hnodup))

/-- What several values read as, given as a function. -/
theorem exists_reader (values : List Value)
    (h : ∀ v ∈ values, ∃ w, v.ReadsAs w ∧ (v.Plain → w = v)) :
    ∃ g : Value → Value, ∀ v ∈ values, v.ReadsAs (g v) ∧ (v.Plain → g v = v) := by
  have hall : ∀ v, ∃ w, v ∈ values → v.ReadsAs w ∧ (v.Plain → w = v) := by
    intro v
    by_cases hv : v ∈ values
    · obtain ⟨w, hw⟩ := h v hv
      exact ⟨w, fun _ => hw⟩
    · exact ⟨v, fun hmem => absurd hmem hv⟩
  exact Classical.axiomOfChoice hall

theorem get?_map_replaceValue (g : Value → Value) (fields : Fields) (key : List Letter) :
    Fields.get? (fields.map (replaceValue g)) key = (fields.get? key).map g := by
  induction fields with
  | nil => rfl
  | cons f fields ih =>
    rw [List.map_cons, Fields.get?_cons, Fields.get?_cons, ih, replaceValue]
    split <;> rfl

theorem map_replaceValue_of_plain {g : Value → Value} {fields : Fields}
    (h : ∀ f ∈ fields, g f.2 = f.2) : fields.map (replaceValue g) = fields := by
  have hsame : ∀ f ∈ fields, replaceValue g f = f := by
    intro f hf
    rw [replaceValue, h f hf]
  rw [List.map_congr_left hsame, List.map_id']

theorem exists_readsAs_obj {fields : Fields} (hhalf : ¬(Value.obj fields).HasHalf)
    (h : ∀ f ∈ fields, ∃ w, f.2.ReadsAs w ∧ (f.2.Plain → w = f.2)) :
    ∃ g : Value → Value, (∀ f ∈ fields, f.2.Plain → g f.2 = f.2) ∧
      (Value.obj fields).ReadsAs (.obj (fields.map (replaceValue g))) := by
  rw [Value.hasHalf_obj] at hhalf
  obtain ⟨g, hg⟩ := exists_reader (fields.map Prod.snd) (List.forall_mem_map.mpr h)
  rw [List.forall_mem_map] at hg
  refine ⟨g, fun f hf => (hg f hf).2, readsAs_obj ?_ fun f hf => (hg f hf).1⟩
  exact fun f hf => exists_letters fun hkey => hhalf ⟨f, hf, .inl hkey⟩

/-- A value without half of a surrogate pair is read when it was written, and a plain one is read back. -/
theorem Value.exists_readsAs {v : Value} (h : ¬v.HasHalf) :
    ∃ w, v.ReadsAs w ∧ (v.Plain → w = v) := by
  induction v using Value.induct with
  | null => exact ⟨.null, readsAs_null, fun _ => rfl⟩
  | bool b => exact ⟨.bool b, readsAs_bool b, fun _ => rfl⟩
  | int n => exact ⟨.int n, readsAs_int n, fun _ => rfl⟩
  | float x =>
    obtain ⟨y, hreads⟩ := exists_readsAs_float x
    exact ⟨.float y, hreads, nofun⟩
  | str s =>
    obtain ⟨t, rfl⟩ := exists_letters (mt Value.HasHalf.str h)
    exact ⟨_, readsAs_str t, fun _ => rfl⟩
  | arr items ih =>
    have hitems := mt (Value.hasHalf_arr items).mpr h
    obtain ⟨g, hg⟩ := exists_reader items fun v hv => ih v hv fun hhalf => hitems ⟨v, hv, hhalf⟩
    refine ⟨_, readsAs_arr fun v hv => (hg v hv).1, fun hplain => ?_⟩
    cases hplain with
    | arr hplain => rw [List.map_congr_left fun v hv => (hg v hv).2 (hplain v hv), List.map_id']
  | obj fields ih =>
    have hfields := mt (Value.hasHalf_obj fields).mpr h
    obtain ⟨g, hg, hreads⟩ := exists_readsAs_obj h fun f hf =>
      ih f hf fun hhalf => hfields ⟨f, hf, .inr hhalf⟩
    refine ⟨_, hreads, fun hplain => ?_⟩
    cases hplain with
    | obj _ hplain => rw [map_replaceValue_of_plain fun f hf => hg f hf (hplain f hf)]

/-! ## Whole texts -/

theorem read_of_readsAs {v w : Value} (h : v.ReadsAs w) (hreadable : v.Readable maxDepth) :
    read (chars v.written.flatten) = .ok w := by
  have hwritten : chars v.written.flatten = chars (v.rendered 0) ++ [] := (List.append_nil _).symm
  have hvalue := h 0 0 maxDepth (2 * (chars (v.rendered 0) ++ []).length + 2) []
    hreadable (Nat.le_of_eq (Nat.zero_add maxDepth)) closes_nil (Nat.le_add_right _ 2)
  rw [hwritten, read, v.skipSpace_rendered, hvalue]
  rfl

/-- A whole text that was written is read back. -/
theorem read_written {v : Value} (hplain : v.Plain) (hreadable : v.Readable maxDepth) :
    read (chars v.written.flatten) = .ok v := by
  obtain ⟨w, hreads, hsame⟩ := Value.exists_readsAs hplain.not_hasHalf
  rw [hsame hplain] at hreads
  exact read_of_readsAs hreads hreadable

/-- Of an object that was written the keys are read back, and the fields with plain values. -/
theorem exists_read_written {fields : Fields} (hhalf : ¬(Value.obj fields).HasHalf)
    (hreadable : (Value.obj fields).Readable maxDepth) :
    ∃ g : Value → Value, (∀ f ∈ fields, f.2.Plain → g f.2 = f.2) ∧
      read (chars (Value.obj fields).written.flatten) = .ok (.obj (fields.map (replaceValue g))) := by
  have hfields := mt (Value.hasHalf_obj fields).mpr hhalf
  obtain ⟨g, hg, hreads⟩ := exists_readsAs_obj hhalf fun f hf =>
    Value.exists_readsAs fun hvalue => hfields ⟨f, hf, .inr hvalue⟩
  exact ⟨g, hg, read_of_readsAs hreads hreadable⟩

end WordCycle.Json
