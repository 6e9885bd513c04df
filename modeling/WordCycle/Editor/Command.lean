import WordCycle.CommandLine
import WordCycle.Editor.Document

/-! Running the editor: how it starts, and the requests of its user. -/

namespace WordCycle
set_option autoImplicit false

namespace Editor

/-! ## Starting -/

/-- A window without completion. -/
def plain (files : FileTree) : Editor := { files }

/-- A window with completion beside it that is not installed. -/
def beside (files : FileTree) (settings : Path) : Except SettingsError Editor := do
  let (file, _) ← SettingsFile.ofPath files settings
  return { files, plugin := some { file } }

/-- A window with completion installed. -/
def withPlugin (files : FileTree) (settings : Path) : Except SettingsError Editor := do
  let e ← beside files settings
  return { e with tellsPlugin := true }.install

/-- The settings file of the options, if they give one that is not empty. -/
def settingsPath (o : CommandLine.Options) (default : Path) : Path :=
  match o.config with
  | some (some (c :: t)) => .ofText (c :: t)
  | _ => default

/-- The window as the program shows it, with the file of the options opened. -/
def start (files : FileTree) (default : Path) (o : CommandLine.Options) : Except Error Editor := do
  let e ← (withPlugin files (settingsPath o default)).mapError .settings
  match o.file with
  | some (c :: t) =>
    let (r, e) := e.openFile (.ofText (c :: t))
    let _ ← r
    return { e with visible := true }
  | _ => return { e with visible := true }

/-! ## Requests -/

/-- The requests of the user, and of the program around the window. -/
inductive Command
  | openFile (path : Path)
  | saveFile
  | close
  | answerFileDialog (name : Text)
  | type (t : Text)
  | select (anchor position : Int)
  | showText (t : Text)
  /-- Triggers the first action of a text. -/
  | menu (text : Text)
  /-- Triggers the first action of a shortcut. -/
  | key (shortcut : Text)
  | cycle (direction : Direction)
  | documentChanged
  | install
  | cleanup
  | configure
  /-- Makes the window offer no document any more. -/
  | withdrawDocument
  | changeSetting (c : Settings.Change)
  | newDialog
  | setInput (input : SettingsDialog.Input)
  | press (button : SettingsDialog.Button)
  | applyDialog
  | refreshDialog

inductive Answer
  | nothing
  | flag (b : Bool)
  | count (n : Nat)
  | completion (text : Option Text)
  deriving DecidableEq

/-- Does what an action is for. -/
def perform (e : Editor) : Operation → Except Error Unit × Editor
  | .openDialog => e.openChosen
  | .save =>
    let (r, e) := e.saveFile
    (r.map fun _ => (), e)
  | .close => (.ok (), e.close)
  | .cycle direction =>
    let (r, e) := e.cycle direction
    (r.map fun _ => (), e)
  | .configure => (.ok (), e.configure)

/-- Triggers the first action with a property, and says how many have it. -/
def trigger (e : Editor) (p : Action → Bool) : Except Error Answer × Editor :=
  match (e.menus.flatMap Menu.actions).filter p with
  | [] => (.ok (.count 0), e)
  | a :: others =>
    let (r, e) := e.perform a.operation
    (r.map fun _ => .count (others.length + 1), e)

/-- A request that is about the plugin. -/
def onPlugin (e : Editor) (f : Editor → Editor) : Except Error Answer × Editor :=
  if e.plugin.isSome then (.ok .nothing, f e) else (.error .absent, e)

/-- A request that is about the dialog. -/
def onDialog (e : Editor) (f : Editor → Editor) : Except Error Answer × Editor :=
  if e.dialog.isSome then (.ok .nothing, f e) else (.error .absent, e)

def run (e : Editor) : Command → Except Error Answer × Editor
  | .openFile path =>
    let (r, e) := e.openFile path
    (r.map .flag, e)
  | .saveFile =>
    let (r, e) := e.saveFile
    (r.map .flag, e)
  | .close => (.ok (.flag true), e.close)
  | .answerFileDialog name => (.ok .nothing, { e with dialogAnswer := name })
  | .type t => (.ok .nothing, { e with buffer := e.buffer.type t })
  | .select anchor position => (.ok .nothing, { e with buffer := e.buffer.place anchor position })
  | .showText t => (.ok .nothing, { e with buffer := e.buffer.showText t })
  | .menu text => e.trigger (·.text = text)
  | .key shortcut => e.trigger (·.shortcut = some shortcut)
  | .cycle direction =>
    let (r, e) := e.cycle direction
    (r.map .completion, e)
  | .documentChanged => e.onPlugin documentChanged
  | .install => e.onPlugin install
  | .cleanup => e.onPlugin cleanup
  | .configure => e.onPlugin configure
  | .withdrawDocument => (.ok .nothing, { e with hasDocument := false })
  | .changeSetting c =>
    let (r, e) := e.changeSetting c
    (r.map fun _ => .nothing, e)
  | .newDialog =>
    e.onPlugin fun e =>
      { e with looseDialog := e.plugin.map fun p => .ofSettings p.file.settings }
  | .setInput input => e.onDialog fun e => e.updateDialog (·.set input)
  | .press button =>
    if e.dialog.isSome then
      let (r, e) := e.press button
      (r.map fun _ => .nothing, e)
    else (.error .absent, e)
  | .applyDialog =>
    let (r, e) := e.applyDialog
    (r.map .flag, e)
  | .refreshDialog => e.onDialog refreshDialog

end Editor
end WordCycle
