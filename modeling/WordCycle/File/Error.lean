import WordCycle.Text.Quoted

/-! Why a request to a tree of files is refused. -/

namespace WordCycle
set_option autoImplicit false

inductive FileFault
  | missing
  | occupied
  | notDirectory
  | isDirectory
  | nameTooLong
  /-- A fault of the system itself, such as a full device, by its number and its words for it. -/
  | system (number : Nat) (words : String)
  deriving DecidableEq

def FileFault.number : FileFault → Nat
  | missing => 2
  | occupied => 17
  | notDirectory => 20
  | isDirectory => 21
  | nameTooLong => 36
  | system number _ => number

def FileFault.message : FileFault → String
  | missing => "No such file or directory"
  | occupied => "File exists"
  | notDirectory => "Not a directory"
  | isDirectory => "Is a directory"
  | nameTooLong => "File name too long"
  | system _ words => words

inductive FileError
  /-- The system refused it for the path shown. -/
  | refused (fault : FileFault) (path : Text)
  /-- The system broke off writing to a file that it had opened. No path is shown then. -/
  | brokenOff (fault : FileFault)
  /-- The path holds a character that ends paths. -/
  | embeddedNull
  /-- More directories are missing on the way than can be made at once. -/
  | tooManyMissing
  deriving DecidableEq

/-- Whether it is the system that refuses, and not the request that makes no sense. -/
def FileError.isOfSystem : FileError → Bool
  | refused _ _ | brokenOff _ => true
  | embeddedNull | tooManyMissing => false

def FileError.message : FileError → String
  | refused fault path => shown fault ++ ": " ++ String.ofList path.quoted
  | brokenOff fault => shown fault
  | embeddedNull => "embedded null byte"
  | tooManyMissing => "maximum recursion depth exceeded while calling a Python object"
where
  shown (fault : FileFault) : String :=
    "[Errno " ++ toString fault.number ++ "] " ++ fault.message

end WordCycle
