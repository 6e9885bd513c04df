import WordCycle.Rotation

/-! The menus of the editor window and what their actions do. -/

namespace WordCycle
set_option autoImplicit false

/-- What an action does when it is triggered. -/
inductive Operation
  | openDialog
  | save
  | close
  | cycle (direction : Direction)
  | configure
  deriving DecidableEq

/-- An entry of a menu that can be triggered by its text or by its shortcut. -/
structure Action where
  text : Text
  /-- The name that the program knows it by, empty if it needs none. -/
  name : Text := []
  shortcut : Option Text := none
  /-- Whether the shortcut is bound to the window expressly. -/
  windowWide : Bool := false
  operation : Operation
  deriving DecidableEq

/-- A menu: its title and its actions, with separators between some of them. -/
structure Menu where
  title : Text
  items : List (Option Action)
  deriving DecidableEq

def Menu.file : Menu where
  title := "&File".toList
  items := [
    some { text := "&Open...".toList, shortcut := some "Ctrl+O".toList, operation := .openDialog },
    some { text := "&Save".toList, shortcut := some "Ctrl+S".toList, operation := .save },
    none,
    some { text := "&Quit".toList, shortcut := some "Ctrl+Q".toList, operation := .close }]

/-- The actions of completion, which are put into the tools menu. -/
def Action.completion : List Action := [
  { text := "Cycle autocomplete forward".toList
    name := "cycle_autocomplete_forward".toList
    shortcut := some "Ctrl+Space".toList
    windowWide := true
    operation := .cycle .forward },
  { text := "Cycle autocomplete backward".toList
    name := "cycle_autocomplete_backward".toList
    shortcut := some "Ctrl+Shift+Space".toList
    windowWide := true
    operation := .cycle .backward },
  { text := "Cycle Autocomplete Settings...".toList
    name := "cycle_autocomplete_settings".toList
    operation := .configure }]

def Menu.actions (m : Menu) : List Action := m.items.filterMap id

end WordCycle
