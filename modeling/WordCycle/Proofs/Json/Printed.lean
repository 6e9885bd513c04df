import WordCycle.Json.Printer
import WordCycle.Proofs.Json.Value

/-! What a value looks like when its pieces are put together. The pieces of an item or a field begin
with what separates it from the one before, whatever the printer puts into one piece. -/

namespace WordCycle.Json
set_option autoImplicit false

def Value.rendered (level : Nat) (v : Value) : List Letter := (v.pieces level).flatten

def itemsRendered (level : Nat) (lead : List Letter) (items : List Value) : List Letter :=
  (itemPieces level lead items).flatten

def fieldsRendered (level : Nat) (lead : Option (List Letter)) (fields : Fields) : List Letter :=
  (fieldPieces level lead fields).flatten

/-! ## Equations -/

theorem Value.pieces_of_scalar {v : Value} {s : List Letter} (level : Nat) (h : v.scalar? = some s) :
    v.pieces level = [s] := by
  cases v with
  | arr | obj => cases h
  | _ =>
    obtain rfl := Option.some.inj h
    exact Value.pieces.eq_def level _

theorem Value.rendered_of_scalar {v : Value} {s : List Letter} (level : Nat)
    (h : v.scalar? = some s) : v.rendered level = s := by
  rw [Value.rendered, v.pieces_of_scalar level h, List.flatten_singleton]

theorem itemsRendered_nil (level : Nat) (lead : List Letter) : itemsRendered level lead [] = [] := by
  rw [itemsRendered, itemPieces]
  rfl

theorem itemsRendered_cons (level : Nat) (lead : List Letter) (v : Value) (rest : List Value) :
    itemsRendered level lead (v :: rest) =
      lead ++ v.rendered level ++ itemsRendered level (separator level) rest := by
  rw [itemsRendered, itemPieces, List.flatten_append]
  congr 1
  split
  · next s hs => rw [v.rendered_of_scalar level hs, List.flatten_singleton]
  · rfl

theorem fieldsRendered_nil (level : Nat) (lead : Option (List Letter)) :
    fieldsRendered level lead [] = [] := by
  rw [fieldsRendered, fieldPieces]
  rfl

theorem fieldsRendered_cons (level : Nat) (lead : Option (List Letter)) (f : List Letter × Value)
    (rest : Fields) :
    fieldsRendered level lead (f :: rest) =
      lead.getD [] ++ quoted f.1 ++ letters [':', ' '] ++ f.2.rendered level
        ++ fieldsRendered level (some (separator level)) rest := by
  obtain ⟨key, v⟩ := f
  rw [fieldsRendered, fieldPieces]
  cases lead <;> simp [Value.rendered, fieldsRendered]

theorem rendered_arr_nil (level : Nat) : (Value.arr []).rendered level = letters ['[', ']'] := by
  rw [Value.rendered, Value.pieces]
  rfl

theorem rendered_arr_cons (level : Nat) (v : Value) (rest : List Value) :
    (Value.arr (v :: rest)).rendered level =
      itemsRendered (level + 1) (.char '[' :: newline (level + 1)) (v :: rest)
        ++ newline level ++ [.char ']'] := by
  rw [Value.rendered, Value.pieces, if_neg (by simp), itemsRendered]
  simp

theorem rendered_obj_nil (level : Nat) : (Value.obj []).rendered level = letters ['\x7b', '\x7d'] := by
  rw [Value.rendered, Value.pieces]
  rfl

theorem rendered_obj_cons (level : Nat) (f : List Letter × Value) (rest : Fields) :
    (Value.obj (f :: rest)).rendered level =
      .char '\x7b' :: newline (level + 1) ++ fieldsRendered (level + 1) none (f :: rest)
        ++ newline level ++ [.char '\x7d'] := by
  rw [Value.rendered, Value.pieces, if_neg (by simp), fieldsRendered]
  simp

/-! ## Halves -/

theorem not_broken_newline (level : Nat) : ¬Broken (newline level) := by
  rintro ⟨unit, h⟩
  simp [newline] at h

theorem not_broken_separator (level : Nat) : ¬Broken (separator level) := by
  rw [separator, broken_char_cons]
  exact not_broken_newline level

theorem broken_quoted (s : List Letter) : Broken (quoted s) ↔ Broken s := by
  rw [quoted, List.cons_append, broken_char_cons, broken_append]
  constructor
  · rintro (⟨unit, h⟩ | h)
    · obtain ⟨c | half, hl, hmem⟩ := List.mem_flatMap.mp h
      · exact absurd ⟨unit, hmem⟩ (not_broken_letters _)
      · exact ⟨half, hl⟩
    · exact absurd h (not_broken_letters ['"'])
  · rintro ⟨unit, h⟩
    exact .inl ⟨unit, List.mem_flatMap.mpr ⟨_, h, List.mem_singleton_self _⟩⟩

theorem broken_itemsRendered (level : Nat) {lead : List Letter} (hlead : ¬Broken lead)
    (items : List Value) :
    Broken (itemsRendered level lead items) ↔ ∃ v ∈ items, Broken (v.rendered level) := by
  induction items generalizing lead with
  | nil => simp [itemsRendered_nil]
  | cons v rest ih =>
    rw [itemsRendered_cons, broken_append, broken_append, ih (not_broken_separator level)]
    simp [hlead]

theorem broken_fieldsRendered (level : Nat) {lead : Option (List Letter)}
    (hlead : ¬Broken (lead.getD [])) (fields : Fields) :
    Broken (fieldsRendered level lead fields) ↔
      ∃ f ∈ fields, Broken f.1 ∨ Broken (f.2.rendered level) := by
  induction fields generalizing lead with
  | nil => simp [fieldsRendered_nil]
  | cons f rest ih =>
    have hrest : Broken (fieldsRendered level (some (separator level)) rest) ↔ _ :=
      ih (not_broken_separator level)
    rw [fieldsRendered_cons, broken_append, broken_append, broken_append, broken_append,
      broken_quoted, hrest]
    simp [hlead]

theorem Value.hasHalf_arr (items : List Value) :
    (Value.arr items).HasHalf ↔ ∃ v ∈ items, v.HasHalf := by
  constructor
  · rintro ⟨⟩
    exact ⟨_, ‹_›, ‹_›⟩
  · rintro ⟨v, hv, h⟩
    exact .item hv h

theorem Value.hasHalf_obj (fields : Fields) :
    (Value.obj fields).HasHalf ↔ ∃ f ∈ fields, Broken f.1 ∨ f.2.HasHalf := by
  constructor
  · intro h
    cases h with
    | key hf h => exact ⟨_, hf, .inl h⟩
    | field hf h => exact ⟨_, hf, .inr h⟩
  · rintro ⟨f, hf, h | h⟩
    · exact .key hf h
    · exact .field hf h

/-- A value is written with half of a surrogate pair exactly if it holds one. -/
theorem Value.broken_rendered (v : Value) (level : Nat) : Broken (v.rendered level) ↔ v.HasHalf := by
  induction v using Value.induct generalizing level with
  | null | bool | int | float =>
    rw [Value.rendered_of_scalar level rfl]
    exact iff_of_false (not_broken_letters _) nofun
  | str s =>
    rw [Value.rendered_of_scalar level rfl, broken_quoted]
    exact ⟨.str, fun h => by cases h; assumption⟩
  | arr items ih =>
    rw [Value.hasHalf_arr]
    cases items with
    | nil => simp [rendered_arr_nil]
    | cons v rest =>
      have hlead : ¬Broken (.char '[' :: newline (level + 1)) := by
        rw [broken_char_cons]
        exact not_broken_newline _
      rw [rendered_arr_cons, broken_append, broken_append, broken_itemsRendered _ hlead]
      simp only [not_broken_newline, broken_char_cons, not_broken_nil, or_false]
      exact exists_congr fun v => and_congr_right fun hv => ih v hv (level + 1)
  | obj fields ih =>
    rw [Value.hasHalf_obj]
    cases fields with
    | nil => simp [rendered_obj_nil]
    | cons f rest =>
      have hlead : ¬Broken ((none : Option (List Letter)).getD []) := not_broken_nil
      rw [rendered_obj_cons, broken_append, broken_append, broken_append, broken_char_cons,
        broken_fieldsRendered _ hlead]
      simp only [not_broken_newline, broken_char_cons, not_broken_nil, or_false, false_or]
      exact exists_congr fun f => and_congr_right fun hf => or_congr_right (ih f hf (level + 1))

theorem Value.Plain.not_hasHalf {v : Value} (h : v.Plain) : ¬v.HasHalf := by
  induction h with
  | null | bool | int => nofun
  | str t =>
    rintro ⟨hbroken⟩
    exact not_broken_letters t hbroken
  | arr _ ih =>
    rw [Value.hasHalf_arr]
    rintro ⟨v, hv, hhalf⟩
    exact ih v hv hhalf
  | obj hkeys _ ih =>
    rw [Value.hasHalf_obj]
    rintro ⟨f, hf, hkey | hhalf⟩
    · obtain ⟨t, ht⟩ := hkeys f hf
      rw [ht] at hkey
      exact not_broken_letters t hkey
    · exact ih f hf hhalf

end WordCycle.Json
