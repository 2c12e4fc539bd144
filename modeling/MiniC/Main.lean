import MiniC.Command

/-!
# The command line program

Reads the files that an invocation names, runs the command on them, and does what the outcome asks
for.
-/

namespace MiniC.Command

/-- The answer of the file system to a failed operation. -/
def fileError (e : IO.Error) : FileError :=
  match e with
  | .noFileOrDirectory .. => .missing
  | .inappropriateType _ 20 _ => .notDirectory
  | .inappropriateType .. => .isDirectory
  | .invalidArgument _ 36 _ => .nameTooLong
  | e => .other (toString e)

def readBytes (path : String) : IO (Except FileError ByteArray) := do
  try
    let bytes ← IO.FS.readBinFile path
    return .ok bytes
  catch e =>
    return .error (fileError e)

/-- The files that an invocation reads, already read. -/
def loadDisk (inv : Invocation) : IO Disk := do
  let mut known : List (String × Except FileError ByteArray) := []
  for path in inv.options.toList ++ [inv.input] do
    known := known ++ [(path, ← readBytes path)]
  let answers := known
  let read (path : String) := ((answers.find? (·.1 = path)).map (·.2)).getD (.error .missing)
  return ⟨read, fun _ => none⟩

/-- Writes the file of an outcome; where that fails the run is repeated with this knowledge. -/
def settle (disk : Disk) (inv : Invocation) : IO Outcome := do
  let outcome := execute disk inv
  match outcome.written with
  | none => return outcome
  | some (path, text) =>
    try
      IO.FS.writeFile path text
      return outcome
    catch e =>
      return execute { disk with refusal := fun _ => some (fileError e) } inv

def start (args : List String) : IO Outcome := do
  match parseArguments args with
  | .error halt => return halt.outcome
  | .ok inv => settle (← loadDisk inv) inv

end MiniC.Command

def main (args : List String) : IO UInt32 := do
  let outcome ← MiniC.Command.start args
  IO.eprint outcome.stderr
  IO.print outcome.stdout
  return outcome.exit.toUInt32
