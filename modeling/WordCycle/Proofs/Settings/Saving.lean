import WordCycle.Proofs.Settings.Loading

/-! Saving settings over what a file stores. A file that was saved gives the settings back and keeps
the other groups. A save that fails before the file is opened keeps every file. One that fails after that,
since the system takes no more bytes or another group holds half of a surrogate pair, has emptied it. -/

namespace WordCycle.SettingsFile
set_option autoImplicit false
open Json (Letter Value Fields Broken chars letters)

/-! ## Reachable settings -/

/-- The settings files that come up: one is opened, and then commands are run, each on any tree. -/
inductive Reachable : SettingsFile → Prop
  | opened {t : FileTree} {path : Path} {f : SettingsFile} {notices : List Settings.Notice}
    (h : ofPath t path = .ok (f, notices)) : Reachable f
  | run {f : SettingsFile} (h : Reachable f) (t : FileTree) (c : Command) : Reachable (f.run t c).2.1

theorem ofPath_valid {t : FileTree} {path : Path} {f : SettingsFile}
    {notices : List Settings.Notice} (h : ofPath t path = .ok (f, notices)) : f.settings.Valid := by
  rcases loaded_holdsSettings t path with ⟨s, notices', hloaded, hsettings⟩ | ⟨e, hloaded, -⟩
  · rw [ofPath, hloaded] at h
    obtain ⟨rfl, -⟩ := Prod.mk.inj (Except.ok.inj h)
    exact hsettings.valid
  · rw [ofPath, hloaded] at h
    cases h

theorem run_valid {f : SettingsFile} (h : f.settings.Valid) (t : FileTree) (c : Command) :
    (f.run t c).2.1.settings.Valid := by
  cases c with
  | load =>
    rcases loaded_holdsSettings t f.path with ⟨s, notices, hloaded, hsettings⟩ | ⟨e, hloaded, -⟩
    · rw [run, load, hloaded]
      exact hsettings.valid
    · rw [run, load, hloaded]
      exact Settings.valid_default
  | save => exact h
  | change c =>
    rw [run]
    split
    · next hchange => exact Settings.change_valid h hchange
    · exact h

theorem Reachable.valid {f : SettingsFile} (h : Reachable f) : f.settings.Valid := by
  induction h with
  | opened h => exact ofPath_valid h
  | run _ t c ih => exact run_valid ih t c

/-! ## What saving comes to -/

/-- Everything that saving can come to, with what was done on the way. -/
inductive SavesAs (f : SettingsFile) (t : FileTree) :
    Except SettingsError (List Settings.Notice) × FileTree → Prop
  | unread {e : SettingsError} (hstored : stored t f.path = .error e) : SavesAs f t (.error e, t)
  | noDirectory {e : FileError} {t' : FileTree}
    (hmake : t.ensureDirectory f.path.parent = (.error e, t')) : SavesAs f t (.error (.file e), t')
  | unwritten {old : Option Value} {t₁ t' : FileTree} {e : FileError}
    (hstored : stored t f.path = .ok old) (hmake : t.ensureDirectory f.path.parent = (.ok (), t₁))
    (hwrite : t₁.write f.path (f.settings.writtenOver old).1 = (.error e, t')) :
    SavesAs f t (.error (.file e), t')
  | written {old : Option Value} {t₁ t' : FileTree} (hstored : stored t f.path = .ok old)
    (hmake : t.ensureDirectory f.path.parent = (.ok (), t₁))
    (hwrite : t₁.write f.path (f.settings.writtenOver old).1 = (.ok (), t'))
    (hwhole : (f.settings.writtenOver old).2 = none) : SavesAs f t (.ok [.saved], t')
  | cut {old : Option Value} {t₁ t' : FileTree} {e : EncodeError}
    (hstored : stored t f.path = .ok old)
    (hmake : t.ensureDirectory f.path.parent = (.ok (), t₁))
    (hwrite : t₁.write f.path (f.settings.writtenOver old).1 = (.ok (), t'))
    (hcut : (f.settings.writtenOver old).2 = some e) : SavesAs f t (.error (.encode e), t')

theorem save_savesAs (f : SettingsFile) (t : FileTree) : SavesAs f t (f.save t) := by
  unfold save
  split
  · next hstored => exact .unread hstored
  · next hstored =>
    split
    · next hmake => exact .noDirectory hmake
    · next hmake =>
      dsimp only
      split
      · next hwrite => exact .unwritten hstored hmake hwrite
      · next hwrite =>
        split
        · next hcut => exact .cut hstored hmake hwrite hcut
        · next hwhole => exact .written hstored hmake hwrite hwhole

theorem ensureDirectory_grows {t t' : FileTree} {path : Path} {r : Except FileError Unit}
    (h : t.ensureDirectory path = (r, t')) : FileTree.Grows t t' := by
  have hensures := t.ensureDirectory_ensures path
  rw [h] at hensures
  exact hensures.1

theorem find_of_ensureDirectory {t t' : FileTree} {path : Path}
    (h : t.ensureDirectory path = (.ok (), t')) : t'.find path = .ok .directory := by
  have hensures := t.ensureDirectory_ensures path
  rw [h] at hensures
  exact hensures.2 rfl

/-- With the directory there, saving is writing. -/
theorem save_of_write {f : SettingsFile} {t t' : FileTree} {old : Option Value}
    (hstored : stored t f.path = .ok old) (hparent : t.find f.path.parent = .ok .directory)
    (hwrite : t.write f.path (f.settings.writtenOver old).1 = (.ok (), t'))
    (hwhole : (f.settings.writtenOver old).2 = none) : f.save t = (.ok [.saved], t') := by
  rw [save, hstored]
  dsimp only
  rw [FileTree.ensureDirectory_of_find hparent]
  dsimp only
  rw [hwrite, hwhole]

theorem stored_readable {t : FileTree} {path : Path} {old : Option Value}
    (h : stored t path = .ok old) : (Value.obj (Settings.keptFields old)).Readable Json.maxDepth := by
  have hstores := stored_stores t path
  rw [h] at hstores
  cases hstores with
  | value _ _ hreadable =>
    refine Settings.keptFields_readable fun v hv => ?_
    obtain rfl := Option.some.inj hv
    exact hreadable
  | nothing => exact Settings.keptFields_readable nofun

theorem stored_nodup {t : FileTree} {path : Path} {old : Option Value}
    (h : stored t path = .ok old) : (Settings.keptFields old).keys.Nodup := by
  cases stored_readable h with
  | obj hkeys _ => exact hkeys

/-- Settings that were saved are opened again, whatever else the file holds. -/
theorem ofPath_of_save {f : SettingsFile} (hvalid : f.settings.Valid) {t t' : FileTree}
    {notices : List Settings.Notice} (hsave : f.save t = (.ok notices, t')) :
    ofPath t' f.path = .ok (f, []) := by
  have hsaves := save_savesAs f t
  rw [hsave] at hsaves
  cases hsaves with
  | @written old _ _ hstored _ hwrite hwhole =>
  have hreadable := Settings.storedWith_readable hvalid (stored_readable hstored)
  obtain ⟨fields, hcontent, hgroup⟩ :=
    Settings.exists_storedIn_writtenOver (stored_nodup hstored) hreadable hwhole
  rw [ofPath, loaded_of_read (FileTree.read_of_write hwrite), Settings.ofContent, hcontent]
  simp only [bind, Except.bind, Settings.ofStored, hgroup, Settings.ofGroup_toFields hvalid]
  rfl

/-! ## Saved settings -/

/-- The fields of the object that a file stores, none if it stores none. -/
def storedFields (t : FileTree) (path : Path) : Fields :=
  match stored t path with
  | .ok old => Settings.keptFields old
  | .error _ => []

theorem storedFields_of_stored {t : FileTree} {path : Path} {old : Option Value}
    (h : stored t path = .ok old) : storedFields t path = Settings.keptFields old := by
  rw [storedFields, h]

/-- One field of an object was given a value, and the others are as before. -/
structure Replaces (key : List Letter) (value : Value) (old new : Fields) : Prop where
  keys : new.keys = if key ∈ old.keys then old.keys else old.keys ++ [key]
  value : new.get? key = some value
  others : ∀ other, other ≠ key → new.get? other = old.get? other

theorem replaces_set (key : List Letter) (value : Value) (fields : Fields) :
    Replaces key value fields (fields.set key value) := by
  refine ⟨?_, Fields.get?_set_self fields key value, fun other hne => ?_⟩
  · split
    · next h => exact Fields.keys_set_of_mem value h
    · next h => exact Fields.keys_set_of_notMem value h
  · exact Fields.get?_set_of_ne fields value hne

/-- After saving over plain fields, opening the file gives the same settings, only the group of the
settings was replaced, and saving again changes nothing. -/
theorem save_round_trip {f : SettingsFile} (hf : Reachable f) {t t' : FileTree}
    {notices : List Settings.Notice} (hsave : f.save t = (.ok notices, t'))
    (hplain : (Value.obj (storedFields t f.path)).Plain) :
    ofPath t' f.path = .ok (f, []) ∧
      (∃ new, stored t' f.path = .ok (some (.obj new)) ∧
        Replaces Settings.groupKey (.obj f.settings.toFields) (storedFields t f.path) new) ∧
      f.save t' = (.ok [.saved], t') := by
  have hsaves := save_savesAs f t
  rw [hsave] at hsaves
  cases hsaves with
  | @written old _ _ hstored hmake hwrite hwhole =>
  rw [storedFields_of_stored hstored] at hplain ⊢
  have hvalid := hf.valid
  have hread := FileTree.read_of_write hwrite
  have hnewPlain := Settings.storedWith_plain f.settings hplain
  have hnewReadable : (f.settings.storedWith old).Readable Json.maxDepth :=
    Settings.storedWith_readable hvalid (stored_readable hstored)
  have hcontent := Settings.storedIn_writtenOver hnewPlain hnewReadable
  have hstored' : stored t' f.path = .ok (some (f.settings.storedWith old)) := by
    rw [stored_of_read hread, hcontent]
  refine ⟨?_, ⟨_, ?_, replaces_set _ _ _⟩, ?_⟩
  · rw [ofPath, loaded_of_read hread, Settings.ofContent, hcontent]
    simp only [bind, Except.bind]
    rw [Settings.ofStored_storedWith hvalid]
    rfl
  · rw [hstored', Settings.storedWith_eq]
  · have hagain : f.settings.writtenOver (some (f.settings.storedWith old)) =
        f.settings.writtenOver old := by
      have hsame : f.settings.storedWith (some (f.settings.storedWith old)) =
          f.settings.storedWith old := by
        rw [Settings.storedWith_eq, Settings.storedWith_eq, Settings.keptFields, Fields.set_set]
      rw [Settings.writtenOver, hsame, Settings.writtenOver]
    have hkeeps := FileTree.write_keepsDirectories hwrite
    refine save_of_write hstored' (hkeeps.find (find_of_ensureDirectory hmake)) ?_ ?_
    · rw [hagain]
      exact FileTree.write_of_write hwrite
    · rw [hagain]
      exact hwhole

/-- A file with another program's group, in which texts, numbers and containers stand. -/
def sharedFile : Value :=
  .obj [(letters "other".toList, .obj [
    (letters "ä".toList, .arr [.int (-12), .null, .arr []]),
    (letters "😀".toList, .str (letters "a\n\"".toList))])]

def sharedTree : FileTree :=
  ({} : FileTree).put (freshHome ++ ["c.json".toList])
    (.file (Utf8.encode (chars sharedFile.written.flatten)))

def sharedSettings : SettingsFile := ⟨⟨[], ["c.json".toList]⟩, { candidatesLimit := 21 }⟩

theorem sharedFile_plain : sharedFile.Plain := by
  have hitems : ∀ v ∈ [Value.int (-12), .null, .arr []], v.Plain := by
    simp only [List.forall_mem_cons]
    exact ⟨.int _, .null, .arr (List.forall_mem_nil _), List.forall_mem_nil _⟩
  refine .obj ?_ ?_ <;> simp only [List.forall_mem_cons]
  · exact ⟨⟨_, rfl⟩, List.forall_mem_nil _⟩
  refine ⟨.obj ?_ ?_, List.forall_mem_nil _⟩ <;> simp only [List.forall_mem_cons]
  · exact ⟨⟨_, rfl⟩, ⟨_, rfl⟩, List.forall_mem_nil _⟩
  · exact ⟨.arr hitems, .str _, List.forall_mem_nil _⟩

theorem sharedFile_readable : sharedFile.Readable 4 := by
  have hitems : ∀ v ∈ [Value.int (-12), .null, .arr []], v.Readable 1 := by
    simp only [List.forall_mem_cons]
    exact ⟨.int 1 (by decide +kernel), .null 1, .arr (List.forall_mem_nil _), List.forall_mem_nil _⟩
  refine .obj (by decide) ?_
  simp only [List.forall_mem_cons]
  refine ⟨.obj (by decide) ?_, List.forall_mem_nil _⟩
  simp only [List.forall_mem_cons]
  exact ⟨.arr hitems, .str 2 _, List.forall_mem_nil _⟩

theorem save_round_trip_shared :
    Reachable sharedSettings ∧
      sharedSettings.save sharedTree = (.ok [.saved], (sharedSettings.save sharedTree).2) ∧
      (Value.obj (storedFields sharedTree sharedSettings.path)).Plain ∧
      ofPath (sharedSettings.save sharedTree).2 sharedSettings.path = .ok (sharedSettings, []) ∧
      (∃ new, stored (sharedSettings.save sharedTree).2 sharedSettings.path = .ok (some (.obj new)) ∧
        Replaces Settings.groupKey (.obj sharedSettings.settings.toFields)
          (storedFields sharedTree sharedSettings.path) new) ∧
      sharedSettings.save (sharedSettings.save sharedTree).2 =
        (.ok [.saved], (sharedSettings.save sharedTree).2) := by
  have hopened : ofPath {} ⟨[], ["c.json".toList]⟩ = .ok (⟨⟨[], ["c.json".toList]⟩, {}⟩, []) := by
    decide +kernel
  have hf : Reachable sharedSettings :=
    .run (.opened hopened) {} (.change (.assign .candidatesLimit (.int 21)))
  have hsaved : (sharedSettings.save sharedTree).1 = .ok [.saved] := by decide +kernel
  have hsave : sharedSettings.save sharedTree =
      (.ok [.saved], (sharedSettings.save sharedTree).2) := by
    rw [← hsaved]
  have hread : sharedTree.read sharedSettings.path =
      .ok (Utf8.encode (chars sharedFile.written.flatten)) := by
    decide +kernel
  have hplain : (Value.obj (storedFields sharedTree sharedSettings.path)).Plain := by
    rw [storedFields, stored_of_read hread, Settings.storedIn_encode_written sharedFile_plain
      (sharedFile_readable.mono (by decide))]
    exact sharedFile_plain
  exact ⟨hf, hsave, hplain, save_round_trip hf hsave hplain⟩

/-! ## Failed saves -/

/-- Every file of a tree is there with its content in another. -/
def KeepsFiles (t t' : FileTree) : Prop :=
  ∀ path content, t.read path = .ok content → t'.read path = .ok content

/-- Half of a surrogate pair stands in a field besides the settings. -/
def HalfBeside (fields : Fields) : Prop :=
  ∃ g ∈ fields, g.1 ≠ Settings.groupKey ∧ (Broken g.1 ∨ g.2.HasHalf)

/-- The directory of a file cannot be made, or the file cannot be opened to be written. -/
def Refused (t : FileTree) (path : Path) (e : FileError) : Prop :=
  (t.ensureDirectory path.parent).1 = .error e ∨
    (t.ensureDirectory path.parent).2.openToWrite path = .error e

/-- The pieces of the fields of a file with the group of the settings put into them. -/
def newPieces (f : SettingsFile) (t : FileTree) : List (List Letter) :=
  (Value.obj ((storedFields t f.path).set Settings.groupKey (.obj f.settings.toFields))).written

/-- What saving does to the files. Once the file is opened to be written, which empties it, all of the new
pieces are written only if none holds half of a surrogate pair and the system takes them. -/
inductive SaveEnds (f : SettingsFile) (t : FileTree) :
    Except SettingsError (List Settings.Notice) × FileTree → Prop
  | saved {t' : FileTree} (hwriting : t.refusals.writing = none)
    (hhalf : ¬HalfBeside (storedFields t f.path))
    (hread : t'.read f.path = .ok (Utf8.encode (chars (f.newPieces t).flatten))) :
    SaveEnds f t (.ok [.saved], t')
  | unread {e : SettingsError} (h : Obstructs t f.path e) : SaveEnds f t (.error e, t)
  | refused {e : FileError} {t' : FileTree} (h : Refused t f.path e) (hkeeps : KeepsFiles t t') :
    SaveEnds f t (.error (.file e), t')
  | brokenOff {t' : FileTree} {fault : FileFault} {taken : Nat} {whole more : List (List Letter)}
    (hwriting : t.refusals.writing = some (fault, taken)) (hpieces : f.newPieces t = whole ++ more)
    (hwhole : ¬Broken whole.flatten) (hmore : ∀ piece ∈ more.head?, Broken piece)
    (hread : t'.read f.path = .ok ((Utf8.encode (chars whole.flatten)).take taken)) :
    SaveEnds f t (.error (.file (.brokenOff fault)), t')
  | cut {t' : FileTree} {whole more : List (List Letter)} {before : Text} {unit : Nat}
    {rest : List Letter} (hwriting : t.refusals.writing = none)
    (hhalf : HalfBeside (storedFields t f.path))
    (hpieces : f.newPieces t = whole ++ (letters before ++ .half unit :: rest) :: more)
    (hwhole : ¬Broken whole.flatten)
    (hread : t'.read f.path = .ok (Utf8.encode (chars whole.flatten))) :
    SaveEnds f t
      (.error (.encode ⟨unit, before.length, 1 + (rest.takeWhile Settings.isHalf).length⟩), t')

theorem broken_written_iff {t : FileTree} {path : Path} {old : Option Value}
    (hstored : stored t path = .ok old) (s : Settings) :
    Broken (s.storedWith old).written.flatten ↔ HalfBeside (Settings.keptFields old) :=
  ((s.storedWith old).broken_rendered 0).trans (s.hasHalf_storedWith (stored_nodup hstored))

theorem newPieces_of_stored {f : SettingsFile} {t : FileTree} {old : Option Value}
    (hstored : stored t f.path = .ok old) : f.newPieces t = (f.settings.storedWith old).written := by
  rw [newPieces, storedFields_of_stored hstored, Settings.storedWith_eq]

/-- The new pieces are written up to the first that holds half of a surrogate pair, if one does. -/
theorem exists_writtenOver {f : SettingsFile} {t : FileTree} {old : Option Value}
    (hstored : stored t f.path = .ok old) :
    ∃ whole more, f.newPieces t = whole ++ more ∧ ¬Broken whole.flatten ∧
      (∀ piece ∈ more.head?, Broken piece) ∧
      (f.settings.writtenOver old).1 = Utf8.encode (chars whole.flatten) := by
  rw [newPieces_of_stored hstored, Settings.writtenOver]
  by_cases hbroken : Broken (f.settings.storedWith old).written.flatten
  · obtain ⟨whole, before, unit, rest, more, hpieces, hwhole, hencode⟩ :=
      Settings.encodePieces_of_broken hbroken
    refine ⟨whole, _, hpieces, hwhole, ?_, by rw [hencode]⟩
    rintro piece ⟨⟩
    exact (Json.broken_append _ _).mpr (.inr (Json.broken_half_cons unit rest))
  · exact ⟨_, [], (List.append_nil _).symm, hbroken, by simp,
      by rw [Settings.encodePieces_of_not_broken hbroken]⟩

/-- Saving writes everything, or keeps every file, or fails when the file has been emptied: the system
then breaks off somewhere in what is written, or the first piece with half of a surrogate pair in it ends
the writing. -/
theorem save_ends (f : SettingsFile) (t : FileTree) : SaveEnds f t (f.save t) := by
  have hsaves := save_savesAs f t
  generalize f.save t = r at hsaves
  cases hsaves with
  | unread hstored =>
    have hstores := stored_stores t f.path
    rw [hstored] at hstores
    cases hstores with
    | error h => exact .unread h
  | noDirectory hmake =>
    refine .refused (.inl ?_) fun _ _ h => (ensureDirectory_grows hmake).read h
    rw [hmake]
  | @unwritten old t₁ _ _ hstored hmake hwrite =>
    have hgrows := ensureDirectory_grows hmake
    have hwrites := t₁.write_writes f.path (f.settings.writtenOver old).1
    rw [hwrite] at hwrites
    cases hwrites with
    | refused hopen =>
      refine .refused (.inr ?_) fun _ _ h => hgrows.read h
      rw [hmake]
      exact hopen
    | brokenOff hopen hwriting =>
      obtain ⟨whole, more, hpieces, hwhole, hmore, hbytes⟩ := exists_writtenOver hstored
      rw [hbytes]
      exact .brokenOff (hgrows.refusals ▸ hwriting) hpieces hwhole hmore (FileTree.read_put hopen _)
  | @written old t₁ _ hstored hmake hwrite hwhole =>
    obtain ⟨-, -, hwriting, -⟩ := FileTree.write_eq_ok hwrite
    have hread := FileTree.read_of_write hwrite
    have hbroken := (Settings.encodePieces_whole_iff _).mp hwhole
    have hhalf := mt (broken_written_iff hstored f.settings).mpr hbroken
    rw [Settings.writtenOver, Settings.encodePieces_of_not_broken hbroken] at hread
    rw [← storedFields_of_stored hstored] at hhalf
    rw [← newPieces_of_stored hstored] at hread
    exact .saved ((ensureDirectory_grows hmake).refusals ▸ hwriting) hhalf hread
  | @cut old t₁ _ _ hstored hmake hwrite hcut =>
    obtain ⟨-, -, hwriting, -⟩ := FileTree.write_eq_ok hwrite
    have hread := FileTree.read_of_write hwrite
    have hbroken : Broken (f.settings.storedWith old).written.flatten := by
      by_contra h
      rw [Settings.writtenOver, (Settings.encodePieces_whole_iff _).mpr h] at hcut
      cases hcut
    have hhalf := (broken_written_iff hstored f.settings).mp hbroken
    obtain ⟨whole, before, unit, rest, more, hpieces, hwhole, hencode⟩ :=
      Settings.encodePieces_of_broken hbroken
    rw [Settings.writtenOver, hencode] at hcut hread
    obtain rfl := Option.some.inj hcut
    rw [← newPieces_of_stored hstored] at hpieces
    rw [← storedFields_of_stored hstored] at hhalf
    exact .cut ((ensureDirectory_grows hmake).refusals ▸ hwriting) hhalf hpieces hwhole hread

-- A device that fills up is left with a beginning of the new fields, and nothing of the old ones.
example :
    let full : Refusals := { writing := some (.system 28 "No space left on device", 5) }
    let t := ({ refusals := full } : FileTree).put (freshHome ++ ["c.json".toList]) (.file [0x5b, 0x5d])
    let saved := save { path := ⟨[], ["c.json".toList]⟩ } t
    saved.1 = .error (.file (.brokenOff (.system 28 "No space left on device"))) ∧
      saved.2.read ⟨[], ["c.json".toList]⟩ = .ok (Utf8.encode "\x7b\n  \"".toList) := by
  decide +kernel

/-- Another program has stored half of a surrogate pair by its escape: the settings are opened, but
saving them leaves nothing of that program's value. -/
theorem save_cuts_other_group :
    let path : Path := ⟨[], ["c.json".toList]⟩
    let content := Utf8.encode "\x7b\"a\": \"\\ud83d\"\x7d".toList
    let t := ({} : FileTree).put (freshHome ++ ["c.json".toList]) (.file content)
    let saved := save { path } t
    t.read path = .ok content ∧ ofPath t path = .ok ({ path }, []) ∧
      saved.1 = .error (.encode ⟨0xd83d, 1, 1⟩) ∧
      saved.2.read path = .ok (Utf8.encode "\x7b\n  \"a\": ".toList) := by
  decide +kernel

end WordCycle.SettingsFile
