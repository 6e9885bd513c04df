import WordCycle.Text.Decimal
import WordCycle.Text.Quoted

/-! The command line: three options and a file. All arguments are told apart first, then they are
taken in their order. Long options may be cut short, and everything behind two dashes is taken as
it is. -/

namespace WordCycle
set_option autoImplicit false

namespace CommandLine

/-! ## Answers -/

/-- What the program is asked to do. -/
structure Options where
  file : Option Text := none
  debug : Bool := false
  /-- The settings file, if its option is given. Two dashes as the value of the option give no
  path. -/
  config : Option (Option Text) := none
  deriving DecidableEq

inductive Outcome
  | run (options : Options)
  | help
  | refused (message : Text)
  deriving DecidableEq

/-- The first line of all answers that show how the program is called. -/
def usage : String := "usage: cyclecomplete [-h] [--debug] [--config PATH] [file]\n"

/-- What the help option shows. -/
def helpText : String :=
  usage ++ "
Plain-text editor with inline cycle autocompletion

positional arguments:
  file           File to open

options:
  -h, --help     show this help message and exit
  --debug        Enable debug logging
  --config PATH  Settings file (default: ~/.config/cyclecomplete/config.json)
"

/-- What is shown for a command line that is refused. -/
def refusalText (message : Text) : String :=
  usage ++ "cyclecomplete: error: " ++ String.ofList message ++ "\n"

/-- What the program leaves behind if it ends without starting the editor. -/
structure Reply where
  status : Nat
  output : String := ""
  errors : String := ""

/-- The reply to a command line that does not start the editor. -/
def Outcome.reply? : Outcome → Option Reply
  | run _ => none
  | help => some { status := 0, output := helpText }
  | refused message => some { status := 2, errors := refusalText message }

/-- The least level of the log messages that are kept. -/
def Options.logLevel (o : Options) : String := if o.debug then "DEBUG" else "INFO"

/-! ## Telling arguments apart -/

inductive Flag
  | help
  | debug
  | config
  deriving DecidableEq

/-- All ways to write an option, in the order in which they are listed. -/
def Flag.writings : List (Text × Flag) := [
  ("-h".toList, help), ("--help".toList, help), ("--debug".toList, debug),
  ("--config".toList, config)]

def Flag.name : Flag → Text
  | help => "-h/--help".toList
  | debug => "--debug".toList
  | config => "--config".toList

inductive Argument
  | plain (t : Text)
  /-- Two dashes, behind which all arguments are plain. -/
  | dashes
  /-- An option, whether it was written with one dash, and the value written with it. -/
  | flag (f : Flag) (short : Bool) (value : Option Text)
  /-- It looks like an option but is none. -/
  | unknown (t : Text)
  deriving DecidableEq

/-- The text before and behind the first equals sign. -/
def splitValue (t : Text) : Text × Option Text :=
  match t.dropWhile (· ≠ '=') with
  | [] => (t, none)
  | _ :: value => (t.takeWhile (· ≠ '='), some value)

/-- Whether an option is written with one dash. -/
def isShort (writing : Text) : Bool := writing[1]? ≠ some '-'

/-- The options that an argument may cut short, with their writings and the value written with
them. The option of one letter takes all behind the letter as its value. -/
def abbreviated (t : Text) : List (Text × Argument) :=
  match t with
  | '-' :: '-' :: _ =>
    let (start, value) := splitValue t
    Flag.writings.filterMap fun (writing, f) =>
      if start.isPrefixOf writing then some (writing, .flag f (isShort writing) value) else none
  | _ =>
    Flag.writings.filterMap fun (writing, f) =>
      if writing = t.take 2 then some (writing, .flag f true (some (t.drop 2)))
      else if t.isPrefixOf writing then some (writing, .flag f true none)
      else none

/-- Whether an argument is a dash and a number, which is no option. A line end behind it does not
matter. -/
def isNegativeNumber (t : Text) : Bool :=
  let isDigit (c : Char) := (decimalValue? c).isSome
  let isNumber (t : Text) : Bool :=
    match t.dropWhile isDigit with
    | [] => !t.isEmpty
    | '.' :: rest => !rest.isEmpty && rest.all isDigit
    | _ => false
  match t with
  | '-' :: rest =>
    isNumber rest || (rest.getLast? = some '\n' && isNumber rest.dropLast)
  | _ => false

/-- Tells what an argument before two dashes is. One that cuts several options short is refused. -/
def classify (t : Text) : Except Text Argument :=
  let (start, value) := splitValue t
  if t.head? ≠ some '-' then .ok (.plain t)
  else match Flag.writings.lookup t with
  | some f => .ok (.flag f (isShort t) none)
  | none =>
    if t.length = 1 then .ok (.plain t)
    else match if value.isSome then Flag.writings.lookup start else none with
    | some f => .ok (.flag f (isShort start) value)
    | none =>
      match abbreviated t with
      | [(_, argument)] => .ok argument
      | [] => if isNegativeNumber t || t.contains ' ' then .ok (.plain t) else .ok (.unknown t)
      | several =>
        .error ("ambiguous option: ".toList ++ t ++ " could match ".toList
          ++ ((several.map Prod.fst).intersperse [',', ' ']).flatten)

def classifyAll : List Text → Except Text (List Argument)
  | [] => .ok []
  | t :: rest =>
    if t = ['-', '-'] then .ok (.dashes :: rest.map .plain)
    else do
      let argument ← classify t
      return argument :: (← classifyAll rest)

/-! ## Taking arguments -/

/-- The refusal of the value of an option. -/
def refuseValue (f : Flag) (fault : Text) : Outcome :=
  .refused ("argument ".toList ++ f.name ++ ": ".toList ++ fault)

/-- The refusal of a value for an option that takes none. -/
def refuseExtraValue (f : Flag) (value : Text) : Outcome :=
  refuseValue f ("ignored explicit argument ".toList ++ value.quoted)

/-- The help option with letters behind it, which can only be the same option again. -/
def helpWith : Text → Outcome
  | [] => .help
  | c :: rest => if c = 'h' then helpWith rest else refuseExtraValue .help (c :: rest)

/-- What has been taken so far. -/
structure Taken where
  options : Options := {}
  /-- Whether the place of the file is taken, be it by two dashes alone. -/
  hasFile : Bool := false
  /-- The arguments that have no place, the first one first. -/
  extras : List Text := []

def Taken.aside (s : Taken) (t : Text) : Taken := { s with extras := s.extras ++ [t] }

/-- Gives the place of the file to an argument, or to none. -/
def Taken.withFile (s : Taken) (file : Option Text) : Taken :=
  { s with options := { s.options with file }, hasFile := true }

def Taken.withDebug (s : Taken) : Taken := { s with options := { s.options with debug := true } }

def Taken.withConfig (s : Taken) (path : Text) : Taken :=
  { s with options :=
    { s.options with config := some (if path = ['-', '-'] then none else some path) } }

/-- Takes the arguments one after the other. The file is the first plain argument; two dashes
before or behind it belong to it, and two dashes alone take its place without giving one. -/
def take : List Argument → Taken → Outcome
  | [], s =>
    if s.extras.isEmpty then .run s.options
    else .refused ("unrecognized arguments: ".toList ++ (s.extras.intersperse [' ']).flatten)
  | .unknown t :: rest, s => take rest (s.aside t)
  | .flag .help _ none :: _, _ => .help
  | .flag .help short (some value) :: _, _ =>
    if short && !value.isEmpty then helpWith value else refuseExtraValue .help value
  | .flag .debug _ none :: rest, s => take rest s.withDebug
  | .flag .debug _ (some value) :: _, _ => refuseExtraValue .debug value
  | .flag .config _ (some value) :: rest, s => take rest (s.withConfig value)
  | .flag .config _ none :: .plain value :: rest, s => take rest (s.withConfig value)
  | .flag .config _ none :: _, _ => refuseValue .config "expected one argument".toList
  | .dashes :: .plain t :: rest, s =>
    if s.hasFile then take (.plain t :: rest) (s.aside ['-', '-'])
    else take rest (s.withFile (some t))
  | .dashes :: rest, s =>
    take rest (if s.hasFile then s.aside ['-', '-'] else s.withFile none)
  | .plain t :: .dashes :: rest, s =>
    if s.hasFile then take (.dashes :: rest) (s.aside t) else take rest (s.withFile (some t))
  | .plain t :: rest, s => take rest (if s.hasFile then s.aside t else s.withFile (some t))

def read (arguments : List Text) : Outcome :=
  match classifyAll arguments with
  | .error message => .refused message
  | .ok arguments => take arguments {}

end CommandLine
end WordCycle
