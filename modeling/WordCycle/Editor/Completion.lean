import WordCycle.Editor.Basic

/-! Completion in the editor: installing and removing its actions, going round candidates, and the
settings dialog. -/

namespace WordCycle
set_option autoImplicit false

namespace Editor

/-! ## Actions -/

/-- How long a report is shown, in milliseconds. -/
def reportTime : Nat := 5000

/-- Puts the actions of completion into the tools menu. Those of an earlier installation stay. -/
def install (e : Editor) : Editor :=
  let n := e.installations
  let e := { e with
    tools := e.tools ++ Action.completion.map fun a => (n, a)
    installations := n + 1 }
  e.updatePlugin fun p => { p with installation := some n }

/-- Takes the actions of the last installation out of the menu again and forgets the session. -/
def cleanup (e : Editor) : Editor :=
  let tools := match e.plugin.bind Plugin.installation with
    | some n => e.tools.filter fun x => x.1 ≠ n
    | none => e.tools
  { e with tools }.updatePlugin fun p => { p with installation := none, session := {} }

/-- Forgets the session since the document changed. -/
def documentChanged (e : Editor) : Editor := e.updatePlugin fun p => { p with session := {} }

/-! ## Going round -/

/-- Completes the word before the caret, if completion has a window with a document. A report is
shown in the status bar. -/
def cycle (e : Editor) (direction : Direction) : Except Error (Option Text) × Editor :=
  match e.plugin with
  | none => (.error .absent, e)
  | some p =>
    if p.installation.isNone || !e.hasDocument then (.ok none, e)
    else
      match p.session.cycle p.file.settings 0 e.buffer direction with
      | .error fault => (.error (.edit fault), e)
      | .ok o =>
        let e := { e with buffer := o.buffer, plugin := some { p with session := o.session } }
        (.ok o.completion,
          match o.report with
          | some r => e.showStatus r.message reportTime
          | none => e)

/-! ## Settings -/

/-- Shows the settings dialog of the plugin, made anew only the first time. -/
def configure (e : Editor) : Editor :=
  e.updatePlugin fun p =>
    let d := (p.dialog.getD (.ofSettings p.file.settings)).refresh p.file.settings
    { p with dialog := some { d with visible := true } }

/-- Changes a setting of the plugin directly. -/
def changeSetting (e : Editor) (c : Settings.Change) : Except Error Unit × Editor :=
  match e.plugin with
  | none => (.error .absent, e)
  | some p =>
    match p.file.settings.change c with
    | .error fault => (.error (.settings fault), e)
    | .ok (settings, _) =>
      (.ok (), { e with plugin := some { p with file := { p.file with settings } } })

/-- Saves the settings, and says whether that succeeded. What the system refuses is shown in a box,
with words of its own for a directory that could not be made; other failures are not caught. -/
def saveSettings (e : Editor) (p : Plugin) : Except Error Bool × Editor :=
  let (r, files) := p.file.save e.files
  let e := { e with files }
  match r with
  | .ok _ => (.ok true, e)
  | .error (.file fault) =>
    if fault.isOfSystem then
      match files.isDirectory p.file.path.parent with
      | .error later => (.error (.file later), e)
      | .ok isThere =>
        let message := if isThere then
            "Plugin configuration could not be saved:\n".toList ++ fault.message.toList
          else "Plugin configuration directory could not be created.".toList
        (.ok false, e.showBox "Cycle Autocomplete".toList message)
    else (.error (.settings (.file fault)), e)
  | .error fault => (.error (.settings fault), e)

/-- Applies what the dialog shows to the settings and saves them. -/
def applyDialog (e : Editor) : Except Error Bool × Editor :=
  match e.dialog, e.plugin with
  | some d, some p =>
    match d.applied p.file.settings with
    | .error fault => (.error (.settings fault), e)
    | .ok settings =>
      let p := { p with file := { p.file with settings } }
      { e with plugin := some p }.saveSettings p
  | _, _ => (.error .absent, e)

def refreshDialog (e : Editor) : Editor :=
  match e.plugin with
  | some p => e.updateDialog fun d => d.refresh p.file.settings
  | none => e

/-- Presses a button of the dialog. The dialog closes on cancel, and on ok if the settings were
saved. -/
def press (e : Editor) : SettingsDialog.Button → Except Error Unit × Editor
  | .cancel => (.ok (), e.updateDialog fun d => { d with visible := false })
  | .apply =>
    let (r, e) := e.applyDialog
    (r.map fun _ => (), e)
  | .ok =>
    match e.applyDialog with
    | (.ok true, e) => (.ok (), e.updateDialog fun d => { d with visible := false })
    | (.ok false, e) => (.ok (), e)
    | (.error fault, e) => (.error fault, e)

end Editor
end WordCycle
