import WordCycle.Editor.Command

/-! The program: it reads its command line, and shows the help, the reason of a refusal, or the
document of the editor as it starts. It works on a tree of files of its own. -/

open WordCycle

/-- Where settings are kept unless an option says otherwise. -/
def WordCycle.Editor.defaultSettings : Path :=
  { parts := [".config".toList, "cyclecomplete".toList, "config.json".toList] }

/-- Runs the program and gives its exit status. -/
def main (arguments : List String) : IO UInt32 := do
  let outcome := CommandLine.read (arguments.map String.toList)
  match outcome with
  | .run options =>
    match Editor.start {} Editor.defaultSettings options with
    | .error e =>
      IO.eprintln e.message
      return 1
    | .ok e =>
      IO.println (String.ofList e.title)
      for (title, message) in e.boxes do
        IO.eprintln (String.ofList (title ++ [':', ' '] ++ message))
      IO.print (String.ofList e.buffer.text)
      return 0
  | _ =>
    match outcome.reply? with
    | some reply =>
      IO.print reply.output
      IO.eprint reply.errors
      return reply.status.toUInt32
    | none => return 0
