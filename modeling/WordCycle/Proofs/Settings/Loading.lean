import WordCycle.Proofs.File.Tree
import WordCycle.Proofs.Settings.Content
import WordCycle.Settings.File

/-! Loading settings from any tree of files. A missing file, a directory and a text that is not JSON
leave the defaults; bytes that are no text, long runs of digits and deep nesting end in an error, and
nothing else does. -/

namespace WordCycle
set_option autoImplicit false
open Json (Letter Value Fields)

/-! ## What is stored -/

/-- What stands in the way of what a file stores: the path is too long to look up, the bytes are no
text, or reading the text stops at a long run of digits or under many opening brackets. -/
inductive Obstructs (t : FileTree) (path : Path) : SettingsError → Prop
  | lookup {e : FileError} (h : t.find? path = .error e) : Obstructs t path (.file e)
  | encoding {content : Bytes} {e : Utf8.DecodeError} (hread : t.read path = .ok content)
    (hdecode : Utf8.decode content = .error e) (htext : ∀ text, content ≠ Utf8.encode text) :
    Obstructs t path (.decode e)
  | digits {text run : Text} (hread : t.read path = .ok (Utf8.encode text))
    (hjson : Json.read text = .error (.integerTooLong run.length)) (hrun : run <:+: text)
    (hdigits : ∀ c ∈ run, c.isDigit = true) (hlong : Json.maxDigits < run.length) :
    Obstructs t path (.numeral (.tooLong run.length))
  | nesting {text : Text} {container : Json.Container}
    (hread : t.read path = .ok (Utf8.encode text))
    (hjson : Json.read text = .error (.nestedTooDeeply container))
    (hdeep : Json.maxDepth < text.countP Json.isOpening) :
    Obstructs t path (.nestedTooDeeply container)

/-- The outcome of looking for a stored value: one that is readable and was read from the text in the
file, none if there is no such text, or an error with what stands in the way. -/
inductive Stores (t : FileTree) (path : Path) : Except SettingsError (Option Value) → Prop
  | value {text : Text} {v : Value} (hread : t.read path = .ok (Utf8.encode text))
    (hjson : Json.read text = .ok v) (h : v.Readable Json.maxDepth) : Stores t path (.ok (some v))
  | nothing (h : ∀ text v, t.read path = .ok (Utf8.encode text) → Json.read text ≠ .ok v) :
    Stores t path (.ok none)
  | error {e : SettingsError} (h : Obstructs t path e) : Stores t path (.error e)

theorem storedIn_stores {t : FileTree} {path : Path} {content : Bytes}
    (hread : t.read path = .ok content) : Stores t path (Settings.storedIn content) := by
  cases hdecode : Utf8.decode content with
  | error e =>
    rw [Settings.storedIn, hdecode]
    refine .error (.encoding hread hdecode ?_)
    intro text htext
    rw [(Utf8.decode_eq_ok_iff content text).mpr htext] at hdecode
    cases hdecode
  | ok text =>
    obtain rfl := (Utf8.decode_eq_ok_iff content text).mp hdecode
    rw [Settings.storedIn_encode]
    rcases Json.read_explained text with ⟨v, hjson, hv⟩ | ⟨e, hjson, he⟩
    · rw [hjson]
      exact .value hread hjson hv
    · rw [hjson]
      cases he with
      | malformed =>
        refine .nothing fun text' v hread' hjson' => ?_
        have hsame := Utf8.encode_injective (Except.ok.inj (hread.symm.trans hread'))
        rw [hsame, hjson'] at hjson
        cases hjson
      | integerTooLong hrun hdigits hlong => exact .error (.digits hread hjson hrun hdigits hlong)
      | nestedTooDeeply container h =>
        rw [Nat.zero_add] at h
        exact .error (.nesting hread hjson h)

namespace SettingsFile

theorem contains_of_read {t : FileTree} {path : Path} {content : Bytes}
    (hread : t.read path = .ok content) : t.contains path = .ok true :=
  FileTree.contains_of_find ((t.read_eq_ok_iff path content).mp hread)

theorem stored_of_read {t : FileTree} {path : Path} {content : Bytes}
    (hread : t.read path = .ok content) : stored t path = Settings.storedIn content := by
  simp only [stored, contains_of_read hread, hread]
  rfl

theorem loaded_of_read {t : FileTree} {path : Path} {content : Bytes}
    (hread : t.read path = .ok content) : loaded t path = Settings.ofContent content := by
  simp only [loaded, contains_of_read hread, hread]
  rfl

theorem stored_stores (t : FileTree) (path : Path) : Stores t path (stored t path) := by
  cases hread : t.read path with
  | ok content =>
    rw [stored_of_read hread]
    exact storedIn_stores hread
  | error e =>
    have hnothing : Stores t path (.ok none) := by
      refine .nothing fun text v hread' => ?_
      rw [hread] at hread'
      cases hread'
    rw [stored, FileTree.contains]
    cases hfind : t.find? path with
    | error e => exact .error (.lookup hfind)
    | ok entry =>
      cases entry with
      | none => exact hnothing
      | some entry =>
        simp only [hread]
        exact hnothing

theorem loaded_cases (t : FileTree) (path : Path) :
    (∃ e, stored t path = .error e ∧ loaded t path = .error e) ∨
    (∃ v, stored t path = .ok (some v) ∧ loaded t path = .ok (Settings.ofStored v)) ∨
    (stored t path = .ok none ∧ ∃ notices, loaded t path = .ok ({}, notices)) := by
  cases hread : t.read path with
  | ok content =>
    rw [stored_of_read hread, loaded_of_read hread, Settings.ofContent]
    cases hstored : Settings.storedIn content with
    | error e => exact .inl ⟨e, rfl, rfl⟩
    | ok v =>
      cases v with
      | none => exact .inr (.inr ⟨rfl, _, rfl⟩)
      | some v => exact .inr (.inl ⟨v, rfl, rfl⟩)
  | error e =>
    rw [stored, loaded, FileTree.contains]
    cases hfind : t.find? path with
    | error e => exact .inl ⟨_, rfl, rfl⟩
    | ok entry =>
      cases entry with
      | none => exact .inr (.inr ⟨rfl, _, rfl⟩)
      | some entry =>
        simp only [hread]
        exact .inr (.inr ⟨rfl, _, rfl⟩)

/-! ## Loading -/

/-- The group of the settings is in the JSON object that a file holds. -/
def HoldsGroup (t : FileTree) (path : Path) (group : Fields) : Prop :=
  ∃ text fields, t.read path = .ok (Utf8.encode text) ∧ Json.read text = .ok (.obj fields) ∧
    Fields.get? fields Settings.groupKey = some (.obj group)

/-- The settings that a file holds: those of its group, or the defaults if it has none. -/
inductive HoldsSettings (t : FileTree) (path : Path) : Settings → Prop
  | group {group : Fields} (h : HoldsGroup t path group) :
    HoldsSettings t path (Settings.ofGroup group).1
  | defaults (h : ∀ group, ¬HoldsGroup t path group) : HoldsSettings t path {}

theorem HoldsSettings.valid {t : FileTree} {path : Path} {s : Settings}
    (h : HoldsSettings t path s) : s.Valid := by
  cases h with
  | group h => exact Settings.ofGroup_valid _
  | defaults h => exact Settings.valid_default

theorem ofStored_holdsSettings {t : FileTree} {path : Path} {text : Text} {v : Value}
    (hread : t.read path = .ok (Utf8.encode text)) (hjson : Json.read text = .ok v) :
    HoldsSettings t path (Settings.ofStored v).1 := by
  have hunique : ∀ group, HoldsGroup t path group → ∃ fields, v = .obj fields ∧
      Fields.get? fields Settings.groupKey = some (.obj group) := by
    rintro group ⟨text', fields, hread', hjson', hgroup⟩
    have hsame := Utf8.encode_injective (Except.ok.inj (hread.symm.trans hread'))
    rw [← hsame, hjson] at hjson'
    exact ⟨fields, Except.ok.inj hjson', hgroup⟩
  unfold Settings.ofStored
  split
  · next fields =>
    split
    · next hget =>
      refine .defaults fun group hgroup => ?_
      obtain ⟨fields', hv, hget'⟩ := hunique group hgroup
      obtain rfl := Value.obj.inj hv
      rw [hget] at hget'
      cases hget'
    · next group hget => exact .group ⟨text, fields, hread, hjson, hget⟩
    · next other hne hget =>
      refine .defaults fun group hgroup => ?_
      obtain ⟨fields', hv, hget'⟩ := hunique group hgroup
      obtain rfl := Value.obj.inj hv
      rw [hget] at hget'
      exact hne group (Option.some.inj hget')
  · next hobj =>
    refine .defaults fun group hgroup => ?_
    obtain ⟨fields, hv, -⟩ := hunique group hgroup
    exact hobj fields hv

theorem loaded_holdsSettings (t : FileTree) (path : Path) :
    (∃ s notices, loaded t path = .ok (s, notices) ∧ HoldsSettings t path s) ∨
      ∃ e, loaded t path = .error e ∧ Obstructs t path e := by
  have hstores := stored_stores t path
  rcases loaded_cases t path with
    ⟨e, hstored, hloaded⟩ | ⟨v, hstored, hloaded⟩ | ⟨hstored, notices, hloaded⟩
  · rw [hstored] at hstores
    cases hstores with
    | error h => exact .inr ⟨e, hloaded, h⟩
  · rw [hstored] at hstores
    cases hstores with
    | value hread hjson _ => exact .inl ⟨_, _, hloaded, ofStored_holdsSettings hread hjson⟩
  · rw [hstored] at hstores
    cases hstores with
    | nothing h =>
      refine .inl ⟨{}, notices, hloaded, .defaults ?_⟩
      rintro group ⟨text, fields, hread, hjson, -⟩
      exact h text _ hread hjson

theorem loaded_of_obstructs {t : FileTree} {path : Path} {e : SettingsError}
    (h : Obstructs t path e) : loaded t path = .error e := by
  cases h with
  | lookup h =>
    rw [loaded, FileTree.contains, h]
    rfl
  | encoding hread hdecode _ =>
    rw [loaded_of_read hread, Settings.ofContent, Settings.storedIn, hdecode]
    rfl
  | digits hread hjson _ _ _ =>
    rw [loaded_of_read hread, Settings.ofContent, Settings.storedIn_encode, hjson]
    rfl
  | nesting hread hjson _ =>
    rw [loaded_of_read hread, Settings.ofContent, Settings.storedIn_encode, hjson]
    rfl

/-- A settings file is opened, and loaded again, with the settings that it holds, unless something
stands in the way. Then both end in the same error, and loading leaves the defaults. A tree has no
permissions, so what stands in the way of a look-up is the length of the path, never a directory that
may not be entered. -/
theorem load_returns_unless_obstructed (f : SettingsFile) (t : FileTree) :
    ((∀ e, ¬Obstructs t f.path e) →
      ∃ settings notices, ofPath t f.path = .ok ({ f with settings }, notices) ∧
        f.load t = (.ok notices, { f with settings }) ∧ HoldsSettings t f.path settings) ∧
    ∀ e, Obstructs t f.path e →
      ofPath t f.path = .error e ∧ f.load t = (.error e, { f with settings := {} }) := by
  constructor
  · intro hclear
    rcases loaded_holdsSettings t f.path with ⟨s, notices, hloaded, hsettings⟩ | ⟨e, -, he⟩
    · refine ⟨s, notices, ?_, ?_, hsettings⟩
      · rw [ofPath, hloaded]
        rfl
      · rw [load, hloaded]
    · exact absurd he (hclear e)
  · intro e he
    have hloaded := loaded_of_obstructs he
    constructor
    · rw [ofPath, hloaded]
      rfl
    · rw [load, hloaded]

/-- A single byte that begins no character is neither opened nor loaded. -/
theorem load_fails_on_undecodable :
    let path : Path := ⟨[], ["c.json".toList]⟩
    let t := ({} : FileTree).put (freshHome ++ ["c.json".toList]) (.file [0xff])
    t.read path = .ok [0xff] ∧
      ofPath t path = .error (.decode ⟨0xff, 0, 1, .invalidStart⟩) ∧
      load { path } t = (.error (.decode ⟨0xff, 0, 1, .invalidStart⟩), { path }) := by
  decide +kernel

end SettingsFile
end WordCycle
