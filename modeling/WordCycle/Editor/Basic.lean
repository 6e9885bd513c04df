import WordCycle.Buffer.Document
import WordCycle.Editor.Dialog
import WordCycle.Editor.Menu
import WordCycle.Session
import WordCycle.Settings.File

/-! The editor: a window with one document, the completion that is plugged into it, and the files
around it. -/

namespace WordCycle
set_option autoImplicit false

/-- Completion as it is plugged into a window: settings, session and dialog. -/
structure Plugin where
  file : SettingsFile
  session : Session := {}
  /-- The number of the installation whose actions it holds; none while it has no window. -/
  installation : Option Nat := none
  dialog : Option SettingsDialog := none
  deriving DecidableEq

structure Editor where
  files : FileTree := {}
  buffer : DocumentBuffer := { widget := {} }
  /-- The file of the document. -/
  path : Option Path := none
  title : Text := "CycleComplete".toList
  visible : Bool := false
  /-- The actions in the tools menu, with the number of the installation that put them there. -/
  tools : List (Nat × Action) := []
  /-- How many times completion was installed. -/
  installations : Nat := 0
  plugin : Option Plugin := none
  /-- Whether the window knows of the plugin and tells it what happens. -/
  tellsPlugin : Bool := false
  /-- Whether the window offers its document to the plugin. -/
  hasDocument : Bool := true
  /-- What the file dialogs answer; the empty text if they are cancelled. -/
  dialogAnswer : Text := []
  /-- A settings dialog opened on its own. -/
  looseDialog : Option SettingsDialog := none
  /-- What the status bar was sent, with the time it is shown in milliseconds. -/
  status : List (Text × Nat) := []
  /-- The message boxes that came up, by title and text. -/
  boxes : List (Text × Text) := []
  deriving DecidableEq

namespace Editor

/-- Why a request to the editor fails. -/
inductive Error
  | edit (e : EditError)
  | settings (e : SettingsError)
  | file (e : FileError)
  /-- There is no plugin or no dialog to turn to. -/
  | absent
  deriving DecidableEq

def Error.message : Error → String
  | edit e => e.message
  | settings e => e.message
  | file e => e.message
  | absent => "nothing to turn to"

def showStatus (e : Editor) (message : Text) (milliseconds : Nat) : Editor :=
  { e with status := e.status ++ [(message, milliseconds)] }

def showBox (e : Editor) (title message : Text) : Editor :=
  { e with boxes := e.boxes ++ [(title, message)] }

/-- The editor with no message shown. -/
def quiet (e : Editor) : Editor :=
  { e with status := [], boxes := [], buffer := { e.buffer with calls := [] } }

/-- Changes the plugin, if there is one. -/
def updatePlugin (e : Editor) (f : Plugin → Plugin) : Editor :=
  { e with plugin := e.plugin.map f }

def menus (e : Editor) : List Menu :=
  [.file, { title := "&Tools".toList, items := e.tools.map fun x => some x.2 }]

def pluginActions (e : Editor) : List Action :=
  match e.plugin.bind Plugin.installation with
  | some n => (e.tools.filter fun x => x.1 = n).map Prod.snd
  | none => []

/-- The dialog that is used: the loose one if there is one, else that of the plugin. -/
def dialog (e : Editor) : Option SettingsDialog := e.looseDialog.or (e.plugin.bind Plugin.dialog)

/-- Changes the dialog that is used. -/
def updateDialog (e : Editor) (f : SettingsDialog → SettingsDialog) : Editor :=
  if e.looseDialog.isSome then { e with looseDialog := e.looseDialog.map f }
  else e.updatePlugin fun p => { p with dialog := p.dialog.map f }

end Editor
end WordCycle
