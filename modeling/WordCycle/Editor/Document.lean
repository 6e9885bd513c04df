import WordCycle.Editor.Completion

/-! The file of the editor's document: opening and saving it, and closing the window. -/

namespace WordCycle
set_option autoImplicit false

/-- A text with all line ends written as one character. -/
def Text.unifyLineEnds : Text → Text
  | '\r' :: '\n' :: rest => '\n' :: unifyLineEnds rest
  | c :: rest => (if c = '\r' then '\n' else c) :: unifyLineEnds rest
  | [] => []

namespace Editor

/-- How long the confirmation of saving is shown, in milliseconds. -/
def savedTime : Nat := 3000

/-- The message that a file cannot be used. -/
def cannot (what : String) (path : Path) (reason : String) : Text :=
  ("Cannot " ++ what ++ " ").toList ++ path.toText ++ ":\n".toList ++ reason.toList

/-- Shows the text of a file in place of the document. The completion session ends there if the
window tells the plugin. -/
def showFile (e : Editor) (path : Path) (t : Text) : Editor :=
  let e := { e with
    buffer := e.buffer.showText t
    path := some path
    title := path.name ++ " - CycleComplete".toList }
  if e.tellsPlugin then e.documentChanged else e

/-- Opens a file, and says whether that succeeded. A file that cannot be read, or is no text, is
reported in a box and nothing changes. -/
def openFile (e : Editor) (path : Path) : Except Error Bool × Editor :=
  match e.files.read path with
  | .error .embeddedNull => (.error (.file .embeddedNull), e)
  | .error fault => (.ok false, e.showBox "Open".toList (cannot "open" path fault.message))
  | .ok content =>
    match Utf8.decode content with
    | .error fault => (.ok false, e.showBox "Open".toList (cannot "open" path fault.message))
    | .ok t => (.ok true, e.showFile path t.unifyLineEnds)

/-- Writes the document to a file, and says whether that succeeded. -/
def writeFile (e : Editor) (path : Path) : Except Error Bool × Editor :=
  let (r, files) := e.files.write path (Utf8.encode e.buffer.widget.text)
  let e := { e with files }
  match r with
  | .ok _ => (.ok true, e.showStatus ("Saved ".toList ++ path.toText) savedTime)
  | .error .embeddedNull => (.error (.file .embeddedNull), e)
  | .error fault => (.ok false, e.showBox "Save".toList (cannot "save" path fault.message))

/-- Saves the document, and says whether that succeeded. Without a file of its own the document
takes the one the file dialog names, before it is known whether it can be written. -/
def saveFile (e : Editor) : Except Error Bool × Editor :=
  match e.path with
  | some path => e.writeFile path
  | none =>
    if e.dialogAnswer.isEmpty then (.ok false, e)
    else
      let path := Path.ofText e.dialogAnswer
      { e with path := some path }.writeFile path

/-- Opens the file that the file dialog names. -/
def openChosen (e : Editor) : Except Error Unit × Editor :=
  if e.dialogAnswer.isEmpty then (.ok (), e)
  else
    let (r, e) := e.openFile (.ofText e.dialogAnswer)
    (r.map fun _ => (), e)

/-- Closes the window, which takes completion out of it if it was told of it. -/
def close (e : Editor) : Editor :=
  { if e.tellsPlugin then e.cleanup else e with visible := false }

end Editor
end WordCycle
