import WordCycle.File.Error
import WordCycle.File.Path
import WordCycle.Text.Order
import WordCycle.Text.Utf8

/-! A tree of files and directories with a working directory, and the requests to it: looking up a
path, reading, writing, making directories. -/

namespace WordCycle
set_option autoImplicit false

/-- Where an entry is: the names on the way from the top of the tree. -/
abbrev Location := List Text

/-- What is found at a location. -/
inductive Entry
  | file (content : Bytes)
  | directory
  deriving DecidableEq

/-- The directories at the top of every tree. -/
def topNames : List Text :=
  ["bin", "dev", "etc", "home", "lib", "opt", "proc", "root", "run", "sbin", "sys", "tmp", "usr",
    "var"].map String.toList

/-- Where a fresh working directory is: under the directory for passing files, by the empty name. No
path spells that name (`Path.ne_nil_of_mem_split`), so what is in it is reached from it alone. -/
def freshHome : Location := ["tmp".toList, []]

/-- What the system refuses just now, though the entries would allow it. -/
structure Refusals where
  /-- To make directories. -/
  making : Option FileFault := none
  /-- To open files that are to be written, before they are emptied for it. -/
  opening : Option FileFault := none
  /-- To take more than so many bytes for a file that was opened, and to close it. -/
  writing : Option (FileFault × Nat) := none
  deriving DecidableEq

/-- A tree, as the entries at its locations. The top itself is a directory without an entry. -/
structure FileTree where
  entries : List (Location × Entry) :=
    (freshHome, .directory) :: topNames.map fun name => ([name], .directory)
  /-- The working directory. -/
  home : Location := freshHome
  refusals : Refusals := {}
  deriving DecidableEq

namespace FileTree

/-! ## Locations -/

/-- What is found at a location. -/
def entry? (t : FileTree) (loc : Location) : Option Entry :=
  if loc.isEmpty then some .directory else t.entries.lookup loc

def put (t : FileTree) (loc : Location) (e : Entry) : FileTree :=
  { t with entries := (loc, e) :: t.entries.filter fun x => x.1 ≠ loc }

/-- Whether a name is longer than a directory can hold, in bytes. -/
def isLongName (name : Text) : Bool := 255 < (Utf8.encode name).length

/-- Follows names from a location. Each step starts from a directory, and two dots lead up. -/
def follow (t : FileTree) : Location → List Text → Except FileFault Location
  | loc, [] => .ok loc
  | loc, name :: rest =>
    match t.entry? loc with
    | none => .error .missing
    | some (.file _) => .error .notDirectory
    | some .directory =>
      if isLongName name then .error .nameTooLong
      else if name = ['.', '.'] then t.follow loc.dropLast rest
      else t.follow (loc ++ [name]) rest

/-- The location of a path, at which there need not be an entry. -/
def locate (t : FileTree) (p : Path) : Except FileError Location :=
  if p.toText.contains '\x00' then .error .embeddedNull
  else if 4096 ≤ (Utf8.encode p.toText).length then .error (.refused .nameTooLong p.toText)
  else
    (t.follow (if p.root.isEmpty then t.home else []) p.parts).mapError (.refused · p.toText)

/-- The entry of a path. -/
def find (t : FileTree) (p : Path) : Except FileError Entry := do
  match t.entry? (← t.locate p) with
  | some e => return e
  | none => throw (.refused .missing p.toText)

/-- The entry of a path, if the answer is that there is none rather than an error. A path that leads
nowhere has none; one too long to look up is an error. -/
def find? (t : FileTree) (p : Path) : Except FileError (Option Entry) :=
  match t.find p with
  | .ok e => .ok (some e)
  | .error (.refused .nameTooLong path) => .error (.refused .nameTooLong path)
  | .error _ => .ok none

def contains (t : FileTree) (p : Path) : Except FileError Bool := (t.find? p).map Option.isSome

def isDirectory (t : FileTree) (p : Path) : Except FileError Bool :=
  (t.find? p).map (· = some .directory)

/-! ## Files -/

/-- Nothing keeps a file from being read: entries have no permissions of their own. -/
def read (t : FileTree) (p : Path) : Except FileError Bytes := do
  match ← t.find p with
  | .file content => return content
  | .directory => throw (.refused .isDirectory p.toText)

/-- Where a file is that can be opened to be written. It need not be there yet. -/
def openToWrite (t : FileTree) (p : Path) : Except FileError Location := do
  let loc ← t.locate p
  if t.entry? loc = some .directory then throw (.refused .isDirectory p.toText)
  match t.refusals.opening with
  | some fault => throw (.refused fault p.toText)
  | none => return loc

/-- Writes a file anew, which is made if it is not there. A file that is opened is emptied: if writing
is broken off, what it held is lost, and no more is in it than what the system took till then. -/
def write (t : FileTree) (p : Path) (content : Bytes) : Except FileError Unit × FileTree :=
  match t.openToWrite p with
  | .error e => (.error e, t)
  | .ok loc =>
    match t.refusals.writing with
    | some (fault, taken) => (.error (.brokenOff fault), t.put loc (.file (content.take taken)))
    | none => (.ok (), t.put loc (.file content))

/-! ## Directories -/

/-- Makes one directory, in a directory that is there already. -/
def makeOne (t : FileTree) (p : Path) : Except FileError FileTree := do
  let loc ← t.locate p
  match t.entry? loc, t.refusals.making with
  | some _, _ => throw (.refused .occupied p.toText)
  | none, some fault => throw (.refused fault p.toText)
  | none, none => return t.put loc .directory

/-- Makes a directory, unless it is there already. -/
def ensureOne (t : FileTree) (p : Path) : Except FileError FileTree :=
  match t.makeOne p with
  | .ok t => .ok t
  | .error e => do if ← t.isDirectory p then return t else throw e

/-- The most directories, one in the other, that can be made at once: each takes one of a thousand nested
calls, and this many are left by the calls under way when settings are saved. Like `Json.maxDepth` it is
some more if fewer calls are under way. -/
def maxMissing : Nat := 985

/-- Makes the directory of a way given from its end, and first the one above it if that is missing,
for at most `limit` names of the way. Directories made before a refusal stay. -/
def ensureReversed (root : Text) :
    (limit : Nat) → List Text → FileTree → Except FileError Unit × FileTree
  | _, [], t => finish ⟨root, []⟩ t
  | 0, _ :: _, t => (.error .tooManyMissing, t)
  | limit + 1, name :: above, t =>
    let p : Path := ⟨root, (name :: above).reverse⟩
    match t.makeOne p with
    | .error (.refused .missing _) =>
      match ensureReversed root limit above t with
      | (.error e, t) => (.error e, t)
      | (.ok _, t) => finish p t
    | _ => finish p t
where
  finish (p : Path) (t : FileTree) : Except FileError Unit × FileTree :=
    match t.ensureOne p with
    | .ok t => (.ok (), t)
    | .error e => (.error e, t)

/-- Makes a directory with all that are missing on the way to it. -/
def ensureDirectory (t : FileTree) (p : Path) : Except FileError Unit × FileTree :=
  ensureReversed p.root maxMissing p.parts.reverse t

def namesIn (t : FileTree) (loc : Location) : List Text :=
  (t.entries.filterMap fun x =>
    if x.1.dropLast = loc && !x.1.isEmpty then x.1.getLast? else none).mergeSort Text.isBefore

end FileTree
end WordCycle
