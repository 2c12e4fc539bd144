import MiniC.Command.Arguments
import MiniC.Command.Files
import MiniC.Compile
import MiniC.Estree.Encode

/-!
# The command

A run of the command is a function of its arguments and of what the disk holds. Its outcome says
what is printed, which file is written and with which exit code it ends. A run that fails writes
nothing and prints nothing but diagnostics and the log.
-/

namespace MiniC.Command

structure Outcome where
  exit : Nat
  stdout : String
  /-- The log and the diagnostics. -/
  stderr : String
  /-- The file that is written, with its text. -/
  written : Option (String × String)
  deriving DecidableEq, Repr

def versionText : String := "casmc 0.1.0"

def usageText : String :=
  "Usage: casmc [OPTIONS] <INPUT>"

def helpText : String :=
  "Translate a restricted C syntax tree into an asm.js module\n\n" ++ usageText ++ "\n\n" ++
  "Arguments:\n" ++
  "  <INPUT>  Input syntax tree (JSON)\n\n" ++
  "Options:\n" ++
  "  -o, --output <OUTPUT>            Output file for the ESTree JSON (stdout if omitted)\n" ++
  "      --grammar <GRAMMAR>          Grammar of the input tree [default: auto] " ++
  "[possible values: tagged, declarative, auto]\n" ++
  "      --module-name <MODULE_NAME>  Name of the generated module function\n" ++
  "      --options <OPTIONS>          JSON file with translation options\n" ++
  "      --pretty                     Pretty-print the output JSON\n" ++
  "      --check                      Only check the input; write nothing\n" ++
  "  -v, --verbose                    Enable debug logging\n" ++
  "  -h, --help                       Print help\n" ++
  "  -V, --version                    Print version"

/-- The arguments gave no invocation. -/
def Halt.outcome : Halt → Outcome
  | .usage => ⟨2, "", "error: invalid arguments\n\n" ++ usageText ++
      "\n\nFor more information, try '--help'.\n", none⟩
  | .help => ⟨0, helpText ++ "\n", "", none⟩
  | .version => ⟨0, versionText ++ "\n", "", none⟩

/-- The text of a file; a file that cannot be read fails the run. -/
def readFile (disk : Disk) (path : String) : Except Failure String :=
  (disk.readText path).mapError fun e => .io e.message

/-- The options of a run: those of the options file, with the module name of the arguments. -/
def loadOptions (disk : Disk) (inv : Invocation) : Except Failure Options := do
  let options ← match inv.options with
    | none => pure Options.default
    | some path =>
      let text ← readFile disk path
      match Options.parse? text with
      | some options => pure options
      | none => throw (.input ("invalid options file " ++ path))
  return { options with moduleName := inv.moduleName.getD options.moduleName }

/-- What a successful run leaves behind. -/
structure Product where
  stdout : String
  written : Option (String × String)

/-- The product of checking a text. -/
def checkProduct (inv : Invocation) (text : String) : Except Failure Product := do
  let m ← parseModule text inv.grammar
  let typed ← m.analyze.mapError .ofFault
  return ⟨inv.input ++ ": ok (" ++ Decimal.ofNat typed.functions.length ++ " function(s))\n", none⟩

/-- The product of compiling a text. -/
def compileProduct (disk : Disk) (inv : Invocation) (options : Options) (text : String) :
    Except Failure Product := do
  let program ← compileText text inv.grammar options
  let rendered := program.render inv.indented ++ "\n"
  match inv.output with
  | none => return ⟨rendered, none⟩
  | some path =>
    match disk.refusal path with
    | some e => throw (.io e.message)
    | none => return ⟨"", some (path, rendered)⟩

/-- The product of a run and the events of the part of it that took place. -/
def perform (disk : Disk) (inv : Invocation) : Except Failure Product × List Event :=
  match loadOptions disk inv with
  | .error failure => (.error failure, [])
  | .ok options =>
    match readFile disk inv.input with
    | .error failure => (.error failure, [])
    | .ok text =>
      if inv.checkOnly then
        (checkProduct inv text, checkTextEvents text inv.grammar)
      else
        match compileProduct disk inv options text with
        | .error failure => (.error failure, compileTextEvents text inv.grammar options)
        | .ok product =>
          let written := product.written.map fun (path, _) => Event.written path
          (.ok product, compileTextEvents text inv.grammar options ++ written.toList)

/-- The log that a run shows: nothing unless asked for, and no traces. -/
def logText (inv : Invocation) (events : List Event) : String :=
  if inv.verbose then String.join ((events.filter (·.level ≠ .trace)).map Event.record) else ""

def execute (disk : Disk) (inv : Invocation) : Outcome :=
  let (result, events) := perform disk inv
  let log := logText inv events
  match result with
  | .ok product => ⟨0, product.stdout, log, product.written⟩
  | .error failure =>
    let diagnostic := (Diagnostic.ofFailure failure).withNote ("while translating " ++ inv.input)
    ⟨1, "", log ++ diagnostic.text ++ "\n", none⟩

/-- A run of the command. -/
def run (disk : Disk) (args : List String) : Outcome :=
  match parseArguments args with
  | .error halt => halt.outcome
  | .ok inv => execute disk inv

/-- A run in a directory: its outcome and what the directory holds afterwards. -/
def runIn (directory : Directory) (args : List String) : Outcome × Directory :=
  let outcome := run directory.disk args
  match outcome.written with
  | none => (outcome, directory)
  | some (path, text) => (outcome, directory.write path text.toUTF8)

end MiniC.Command
