import WordCycle.File.Tree

/-! Requests to a tree of files: what is written is read, a file that is only opened has lost what it held,
directories stay where they are, and making directories adds nothing else, whether or not it comes to its
end. -/

namespace WordCycle.FileTree
set_option autoImplicit false

/-! ## Entries -/

theorem lookup_filter_ne {loc other : Location} (h : other ≠ loc) (entries : List (Location × Entry)) :
    (entries.filter fun x => x.1 ≠ loc).lookup other = entries.lookup other := by
  induction entries with
  | nil => rfl
  | cons x entries ih =>
    obtain ⟨k, e⟩ := x
    by_cases hk : k = loc
    · have hne : (other == k) = false := beq_eq_false_iff_ne.mpr (hk ▸ h)
      rw [List.filter_cons_of_neg (by simp [hk]), ih, List.lookup_cons, hne]
    · rw [List.filter_cons_of_pos (by simp [hk]), List.lookup_cons, List.lookup_cons, ih]

theorem entry?_put_self (t : FileTree) {loc : Location} (h : loc ≠ []) (e : Entry) :
    FileTree.entry? (t.put loc e) loc = some e := by
  have hloc : ¬loc.isEmpty = true := by rwa [List.isEmpty_iff]
  unfold entry?
  rw [if_neg hloc]
  exact List.lookup_cons_self

theorem entry?_put_of_ne (t : FileTree) {loc other : Location} (h : other ≠ loc) (e : Entry) :
    FileTree.entry? (t.put loc e) other = t.entry? other := by
  have hne : (other == loc) = false := beq_eq_false_iff_ne.mpr h
  unfold entry?
  rw [put, List.lookup_cons, hne]
  dsimp only
  rw [lookup_filter_ne h]

theorem put_put (t : FileTree) (loc : Location) (e e' : Entry) :
    (t.put loc e).put loc e' = t.put loc e' := by
  have hfilter : (((loc, e) :: t.entries.filter fun x => x.1 ≠ loc).filter fun x => x.1 ≠ loc) =
      t.entries.filter fun x => x.1 ≠ loc := by
    rw [List.filter_cons_of_neg (by simp), List.filter_filter]
    simp
  rw [put, put, put, hfilter]

theorem entry?_nil (t : FileTree) : t.entry? [] = some .directory := rfl

/-! ## Trees with the same directories -/

/-- A tree that has the directories of another. -/
structure KeepsDirectories (t t' : FileTree) : Prop where
  home : t'.home = t.home
  directory : ∀ {loc}, t.entry? loc = some .directory → t'.entry? loc = some .directory

theorem KeepsDirectories.follow {t t' : FileTree} (h : KeepsDirectories t t') {names : List Text}
    {loc found : Location} (hfollow : t.follow loc names = .ok found) :
    t'.follow loc names = .ok found := by
  induction names generalizing loc with
  | nil => exact hfollow
  | cons name rest ih =>
    rw [FileTree.follow.eq_def] at hfollow ⊢
    dsimp only at hfollow ⊢
    split at hfollow
    · cases hfollow
    · cases hfollow
    · next hentry =>
      rw [h.directory hentry]
      dsimp only
      split at hfollow
      · cases hfollow
      · next hname =>
        rw [if_neg hname]
        split at hfollow
        · next hup => rw [if_pos hup]; exact ih hfollow
        · next hup => rw [if_neg hup]; exact ih hfollow

theorem KeepsDirectories.locate {t t' : FileTree} (h : KeepsDirectories t t') {p : Path}
    {loc : Location} (hlocate : t.locate p = .ok loc) : t'.locate p = .ok loc := by
  unfold FileTree.locate at hlocate ⊢
  split at hlocate
  · cases hlocate
  · next hnull =>
    rw [if_neg hnull]
    split at hlocate
    · cases hlocate
    · next hlong =>
      rw [if_neg hlong, h.home]
      cases hfollow : t.follow (if p.root.isEmpty then t.home else []) p.parts with
      | error e =>
        rw [hfollow] at hlocate
        cases hlocate
      | ok found =>
        rw [hfollow] at hlocate
        rw [h.follow hfollow]
        exact hlocate

theorem find_eq_ok_iff (t : FileTree) (p : Path) (e : Entry) :
    t.find p = .ok e ↔ ∃ loc, t.locate p = .ok loc ∧ t.entry? loc = some e := by
  unfold find
  cases hlocate : t.locate p with
  | error f => exact iff_of_false nofun (by rintro ⟨loc, h, -⟩; cases h)
  | ok loc =>
    simp only [bind, Except.bind]
    cases hentry : t.entry? loc with
    | none => exact iff_of_false nofun (by rintro ⟨loc', ⟨⟩, h⟩; rw [hentry] at h; cases h)
    | some e' =>
      constructor
      · intro h
        obtain rfl := Except.ok.inj h
        exact ⟨loc, rfl, hentry⟩
      · rintro ⟨loc', hloc, h⟩
        obtain rfl := Except.ok.inj hloc
        rw [hentry] at h
        exact congrArg Except.ok (Option.some.inj h)

theorem read_eq_ok_iff (t : FileTree) (p : Path) (content : Bytes) :
    t.read p = .ok content ↔ t.find p = .ok (.file content) := by
  unfold read
  cases hfind : t.find p with
  | error e => exact iff_of_false nofun nofun
  | ok e =>
    cases e with
    | directory => exact iff_of_false nofun nofun
    | file content' =>
      constructor
      · intro h
        rw [Except.ok.inj h]
      · intro h
        obtain rfl := Entry.file.inj (Except.ok.inj h)
        rfl

theorem contains_of_find {t : FileTree} {p : Path} {e : Entry} (h : t.find p = .ok e) :
    t.contains p = .ok true := by
  rw [contains, find?, h]
  rfl

theorem isDirectory_of_find {t : FileTree} {p : Path} {e : Entry} (h : t.find p = .ok e) :
    t.isDirectory p = .ok (e = .directory) := by
  rw [isDirectory, find?, h]
  simp [Except.map]

theorem find_of_isDirectory {t : FileTree} {p : Path} (h : t.isDirectory p = .ok true) :
    t.find p = .ok .directory := by
  rw [isDirectory, find?] at h
  split at h
  · next e hfind =>
    rw [hfind]
    have he := Except.ok.inj h
    simp at he
    rw [he]
  · cases h
  · cases h

theorem KeepsDirectories.find {t t' : FileTree} (h : KeepsDirectories t t') {p : Path}
    (hfind : t.find p = .ok .directory) : t'.find p = .ok .directory := by
  obtain ⟨loc, hlocate, hentry⟩ := (find_eq_ok_iff t p _).mp hfind
  exact (find_eq_ok_iff t' p _).mpr ⟨loc, h.locate hlocate, h.directory hentry⟩

/-! ## Writing -/

theorem put_keepsDirectories {t : FileTree} {loc : Location} (h : t.entry? loc ≠ some .directory)
    (e : Entry) : KeepsDirectories t (t.put loc e) := by
  refine ⟨rfl, fun {other} hother => ?_⟩
  have hne : other ≠ loc := by
    rintro rfl
    exact h hother
  rw [entry?_put_of_ne t hne]
  exact hother

theorem openToWrite_eq_ok_iff (t : FileTree) (p : Path) (loc : Location) :
    t.openToWrite p = .ok loc ↔
      t.locate p = .ok loc ∧ t.entry? loc ≠ some .directory ∧ t.refusals.opening = none := by
  unfold openToWrite
  cases hlocate : t.locate p with
  | error e => exact iff_of_false nofun (by rintro ⟨⟨⟩, -⟩)
  | ok found =>
    simp only [bind, Except.bind]
    by_cases hentry : t.entry? found = some .directory
    · rw [if_pos hentry]
      refine iff_of_false nofun ?_
      rintro ⟨⟨⟩, hfile, -⟩
      exact hfile hentry
    · rw [if_neg hentry]
      cases hopening : t.refusals.opening with
      | some fault => exact iff_of_false nofun (by rintro ⟨-, -, ⟨⟩⟩)
      | none =>
        constructor
        · intro h
          obtain rfl := Except.ok.inj h
          exact ⟨rfl, hentry, rfl⟩
        · exact fun h => h.1

section
variable {t : FileTree} {p : Path} {loc : Location} (hopen : t.openToWrite p = .ok loc)
include hopen

theorem locate_put (content : Bytes) :
    (t.put loc (.file content)).locate p = .ok loc ∧
      FileTree.entry? (t.put loc (.file content)) loc = some (.file content) := by
  obtain ⟨hlocate, hentry, -⟩ := (openToWrite_eq_ok_iff t p loc).mp hopen
  have hloc : loc ≠ [] := by
    rintro rfl
    exact hentry t.entry?_nil
  exact ⟨(put_keepsDirectories hentry _).locate hlocate, t.entry?_put_self hloc _⟩

theorem openToWrite_put (content : Bytes) :
    (t.put loc (.file content)).openToWrite p = .ok loc := by
  obtain ⟨hlocate, hfile⟩ := locate_put hopen content
  have hopening := ((openToWrite_eq_ok_iff t p loc).mp hopen).2.2
  exact (openToWrite_eq_ok_iff _ p loc).mpr ⟨hlocate, by rw [hfile]; nofun, hopening⟩

theorem read_put (content : Bytes) : (t.put loc (.file content)).read p = .ok content := by
  rw [read_eq_ok_iff, find_eq_ok_iff]
  exact ⟨loc, locate_put hopen content⟩

end

/-- What writing a file comes to: it is not opened and nothing changes, or it is emptied, and then it holds
a beginning of what is written or all of it. -/
inductive Writes (t : FileTree) (p : Path) (content : Bytes) : Except FileError Unit × FileTree → Prop
  | refused {e : FileError} (hopen : t.openToWrite p = .error e) : Writes t p content (.error e, t)
  | brokenOff {loc : Location} {fault : FileFault} {taken : Nat} (hopen : t.openToWrite p = .ok loc)
    (hwriting : t.refusals.writing = some (fault, taken)) :
    Writes t p content (.error (.brokenOff fault), t.put loc (.file (content.take taken)))
  | whole {loc : Location} (hopen : t.openToWrite p = .ok loc) (hwriting : t.refusals.writing = none) :
    Writes t p content (.ok (), t.put loc (.file content))

theorem write_writes (t : FileTree) (p : Path) (content : Bytes) :
    Writes t p content (t.write p content) := by
  unfold write
  split
  · next hopen => exact .refused hopen
  · next hopen =>
    split
    · next hwriting => exact .brokenOff hopen hwriting
    · next hwriting => exact .whole hopen hwriting

theorem write_of_open {t : FileTree} {p : Path} {loc : Location} (hopen : t.openToWrite p = .ok loc)
    (hwriting : t.refusals.writing = none) (content : Bytes) :
    t.write p content = (.ok (), t.put loc (.file content)) := by
  rw [write, hopen]
  dsimp only
  rw [hwriting]

theorem write_eq_ok {t t' : FileTree} {p : Path} {content : Bytes}
    (h : t.write p content = (.ok (), t')) :
    ∃ loc, t.openToWrite p = .ok loc ∧ t.refusals.writing = none ∧
      t' = t.put loc (.file content) := by
  have hwrites := t.write_writes p content
  rw [h] at hwrites
  cases hwrites with
  | whole hopen hwriting => exact ⟨_, hopen, hwriting, rfl⟩

theorem write_keepsDirectories {t t' : FileTree} {p : Path} {content : Bytes}
    (h : t.write p content = (.ok (), t')) : KeepsDirectories t t' := by
  obtain ⟨loc, hopen, -, rfl⟩ := write_eq_ok h
  exact put_keepsDirectories ((openToWrite_eq_ok_iff t p loc).mp hopen).2.1 _

theorem read_of_write {t t' : FileTree} {p : Path} {content : Bytes}
    (h : t.write p content = (.ok (), t')) : t'.read p = .ok content := by
  obtain ⟨loc, hopen, -, rfl⟩ := write_eq_ok h
  exact read_put hopen content

theorem write_of_write {t t' : FileTree} {p : Path} {content : Bytes}
    (h : t.write p content = (.ok (), t')) : t'.write p content = (.ok (), t') := by
  obtain ⟨loc, hopen, hwriting, rfl⟩ := write_eq_ok h
  rw [write_of_open (openToWrite_put hopen content) hwriting, put_put]

/-- A file that can be written at all can be written with anything, and nothing else changes with it. -/
theorem write_of_writable {t : FileTree} {p : Path} {content : Bytes}
    (h : (t.write p content).1 = .ok ()) (new : Bytes) :
    ∃ loc, t.locate p = .ok loc ∧ t.write p new = (.ok (), t.put loc (.file new)) := by
  obtain ⟨loc, hopen, hwriting, -⟩ := write_eq_ok (Prod.ext h rfl)
  exact ⟨loc, ((openToWrite_eq_ok_iff t p loc).mp hopen).1, write_of_open hopen hwriting new⟩

/-! ## Making directories -/

/-- A tree with nothing but more directories than another. -/
structure Grows (t t' : FileTree) : Prop where
  home : t'.home = t.home
  refusals : t'.refusals = t.refusals
  entry : ∀ {loc e}, t.entry? loc = some e → t'.entry? loc = some e
  new : ∀ {loc e}, t'.entry? loc = some e → t.entry? loc = some e ∨ e = .directory

theorem Grows.refl (t : FileTree) : Grows t t := ⟨rfl, rfl, fun h => h, fun h => .inl h⟩

theorem Grows.trans {t t' t'' : FileTree} (h : Grows t t') (h' : Grows t' t'') : Grows t t'' := by
  refine ⟨h'.home.trans h.home, h'.refusals.trans h.refusals, fun he => h'.entry (h.entry he),
    fun he => ?_⟩
  rcases h'.new he with he | he
  · exact h.new he
  · exact .inr he

theorem Grows.keepsDirectories {t t' : FileTree} (h : Grows t t') : KeepsDirectories t t' :=
  ⟨h.home, h.entry⟩

theorem Grows.read {t t' : FileTree} (h : Grows t t') {p : Path} {content : Bytes}
    (hread : t.read p = .ok content) : t'.read p = .ok content := by
  rw [read_eq_ok_iff, find_eq_ok_iff] at hread ⊢
  obtain ⟨loc, hlocate, hentry⟩ := hread
  exact ⟨loc, h.keepsDirectories.locate hlocate, h.entry hentry⟩

theorem makeOne_grows {t t' : FileTree} {p : Path} (h : t.makeOne p = .ok t') :
    Grows t t' ∧ t'.find p = .ok .directory := by
  unfold makeOne at h
  cases hlocate : t.locate p with
  | error e =>
    rw [hlocate] at h
    cases h
  | ok loc =>
    rw [hlocate] at h
    simp only [bind, Except.bind] at h
    split at h
    · cases h
    · cases h
    · next hentry _ =>
      obtain rfl := Except.ok.inj h
      have hloc : loc ≠ [] := by
        rintro rfl
        cases hentry
      have hnot : t.entry? loc ≠ some .directory := by rw [hentry]; nofun
      have hself := t.entry?_put_self hloc .directory
      refine ⟨⟨rfl, rfl, fun {other e} he => ?_, fun {other e} he => ?_⟩, ?_⟩
      · have hne : other ≠ loc := by
          rintro rfl
          rw [hentry] at he
          cases he
        rw [entry?_put_of_ne t hne]
        exact he
      · by_cases hother : other = loc
        · rw [hother, hself] at he
          exact .inr (Option.some.inj he).symm
        · rw [entry?_put_of_ne t hother] at he
          exact .inl he
      · exact (find_eq_ok_iff _ p _).mpr ⟨loc, (put_keepsDirectories hnot _).locate hlocate, hself⟩

theorem ensureOne_grows {t t' : FileTree} {p : Path} (h : t.ensureOne p = .ok t') :
    Grows t t' ∧ t'.find p = .ok .directory := by
  unfold ensureOne at h
  split at h
  · next hmake =>
    obtain rfl := Except.ok.inj h
    exact makeOne_grows hmake
  · cases hdirectory : t.isDirectory p with
    | error e =>
      rw [hdirectory] at h
      cases h
    | ok b =>
      rw [hdirectory] at h
      cases b with
      | false => cases h
      | true =>
        obtain rfl := Except.ok.inj h
        exact ⟨.refl t, find_of_isDirectory hdirectory⟩

/-- What making directories comes to: more directories, and in the end the one asked for. -/
def Ensures (p : Path) (t : FileTree) (r : Except FileError Unit × FileTree) : Prop :=
  Grows t r.2 ∧ (r.1 = .ok () → r.2.find p = .ok .directory)

theorem finish_ensures (p : Path) (t : FileTree) : Ensures p t (ensureReversed.finish p t) := by
  unfold ensureReversed.finish
  split
  · next hone =>
    obtain ⟨hgrows, hfind⟩ := ensureOne_grows hone
    exact ⟨hgrows, fun _ => hfind⟩
  · exact ⟨.refl t, nofun⟩

theorem ensureReversed_ensures (root : Text) (limit : Nat) (above : List Text) (t : FileTree) :
    Ensures ⟨root, above.reverse⟩ t (ensureReversed root limit above t) := by
  induction limit generalizing above t with
  | zero =>
    cases above with
    | nil => exact finish_ensures _ t
    | cons name above => exact ⟨.refl t, nofun⟩
  | succ limit ih =>
    cases above with
    | nil => exact finish_ensures _ t
    | cons name above =>
      rw [ensureReversed]
      split
      · have habove := ih above t
        split
        · next hrest =>
          rw [hrest] at habove
          exact ⟨habove.1, nofun⟩
        · next t' hrest =>
          rw [hrest] at habove
          obtain ⟨hgrows, hfind⟩ := finish_ensures ⟨root, (name :: above).reverse⟩ t'
          exact ⟨habove.1.trans hgrows, hfind⟩
      · exact finish_ensures _ t

theorem ensureDirectory_ensures (t : FileTree) (p : Path) : Ensures p t (t.ensureDirectory p) := by
  have hensures := ensureReversed_ensures p.root maxMissing p.parts.reverse t
  rw [List.reverse_reverse] at hensures
  exact hensures

/-- A directory that is there is left alone. -/
theorem ensureDirectory_of_find {t : FileTree} {p : Path} (h : t.find p = .ok .directory) :
    t.ensureDirectory p = (.ok (), t) := by
  obtain ⟨loc, hlocate, hentry⟩ := (find_eq_ok_iff t p _).mp h
  have hmake : t.makeOne p = .error (.refused .occupied p.toText) := by
    unfold makeOne
    simp only [hlocate, bind, Except.bind, hentry]
    rfl
  have hfinish : ensureReversed.finish p t = (.ok (), t) := by
    rw [ensureReversed.finish, ensureOne, hmake]
    simp only [isDirectory_of_find h, bind, Except.bind]
    rfl
  have hpath : (⟨p.root, p.parts.reverse.reverse⟩ : Path) = p := by rw [List.reverse_reverse]
  rw [ensureDirectory]
  cases hparts : p.parts.reverse with
  | nil =>
    rw [hparts] at hpath
    rw [ensureReversed]
    exact hpath ▸ hfinish
  | cons name above =>
    rw [hparts] at hpath
    rw [maxMissing, ensureReversed, hpath, hmake]
    exact hfinish

end WordCycle.FileTree
