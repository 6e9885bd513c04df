import WordCycle.File.Tree
import WordCycle.Settings.Content

/-! Settings together with the file they are loaded from and saved to. -/

namespace WordCycle
set_option autoImplicit false

/-- Settings and the path of their file. -/
structure SettingsFile where
  path : Path
  settings : Settings := {}
  deriving DecidableEq

namespace SettingsFile

/-- The settings in the file at a path. They are the defaults if there is no file or the system does
not let it be read. -/
def loaded (t : FileTree) (path : Path) :
    Except SettingsError (Settings × List Settings.Notice) := do
  if ← (t.contains path).mapError .file then
    match t.read path with
    | .ok content => Settings.ofContent content
    | .error _ => return ({}, [.unreadable])
  else return ({}, [])

/-- The settings of the file at a path, if it can be loaded. -/
def ofPath (t : FileTree) (path : Path) :
    Except SettingsError (SettingsFile × List Settings.Notice) := do
  let (settings, notices) ← loaded t path
  return ({ path, settings }, notices)

/-- Loads the settings again. If that fails they are left at the defaults. -/
def load (f : SettingsFile) (t : FileTree) :
    Except SettingsError (List Settings.Notice) × SettingsFile :=
  match loaded t f.path with
  | .ok (settings, notices) => (.ok notices, { f with settings })
  | .error e => (.error e, { f with settings := {} })

/-- The value that the file stores; none if there is no file, or none that can be read as JSON. -/
def stored (t : FileTree) (path : Path) : Except SettingsError (Option Json.Value) := do
  if ← (t.contains path).mapError .file then
    match t.read path with
    | .ok content => Settings.storedIn content
    | .error _ => return none
  else return none

/-- Saves the settings. The directories on the way are made, and the file is emptied before the
first piece is written: a piece that cannot be encoded leaves those before it in the file. If the system
refuses these too, that is what saving fails with. -/
def save (f : SettingsFile) (t : FileTree) :
    Except SettingsError (List Settings.Notice) × FileTree :=
  match stored t f.path with
  | .error e => (.error e, t)
  | .ok old =>
    match t.ensureDirectory f.path.parent with
    | (.error e, t) => (.error (.file e), t)
    | (.ok _, t) =>
      let (bytes, failure) := f.settings.writtenOver old
      match t.write f.path bytes with
      | (.error e, t) => (.error (.file e), t)
      | (.ok _, t) =>
        match failure with
        | some e => (.error (.encode e), t)
        | none => (.ok [.saved], t)

/-! ## Requests -/

inductive Command
  | load
  | save
  | change (c : Settings.Change)

def run (f : SettingsFile) (t : FileTree) :
    Command → Except SettingsError (List Settings.Notice) × SettingsFile × FileTree
  | .load =>
    let (r, f) := f.load t
    (r, f, t)
  | .save =>
    let (r, t) := f.save t
    (r, f, t)
  | .change c =>
    match f.settings.change c with
    | .ok (settings, notices) => (.ok notices, { f with settings }, t)
    | .error e => (.error e, f, t)

end SettingsFile
end WordCycle
