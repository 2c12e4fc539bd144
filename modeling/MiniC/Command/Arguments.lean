import MiniC.Grammar

/-!
# Arguments of the command

An invocation names an input and may set options and flags, each at most once. An option takes its
value from the same argument, after `=`, or from the next one, which must not look like an option.
Short names may be run together. Everything after `--` is an input. Asking for help or the version
ends the reading of the arguments, unless they were already wrong before.
-/

namespace MiniC.Command

structure Invocation where
  input : String
  output : Option String
  grammar : Grammar
  moduleName : Option String
  options : Option String
  indented : Bool
  checkOnly : Bool
  verbose : Bool
  deriving DecidableEq, Repr

/-- Why the arguments give no invocation. -/
inductive Halt where
  | usage
  | help
  | version
  deriving DecidableEq, Repr

/-- An option with a value. -/
inductive Setting where
  | output
  | grammar
  | moduleName
  | options
  deriving DecidableEq, Repr

inductive Flag where
  | indented
  | checkOnly
  | verbose
  deriving DecidableEq, Repr

/-- What a name on the command line stands for. -/
inductive Name where
  | setting (setting : Setting)
  | flag (flag : Flag)
  | halt (halt : Halt)

def longName? : String → Option Name
  | "output" => some (.setting .output)
  | "grammar" => some (.setting .grammar)
  | "module-name" => some (.setting .moduleName)
  | "options" => some (.setting .options)
  | "pretty" => some (.flag .indented)
  | "check" => some (.flag .checkOnly)
  | "verbose" => some (.flag .verbose)
  | "help" => some (.halt .help)
  | "version" => some (.halt .version)
  | _ => none

def shortName? : Char → Option Name
  | 'o' => some (.setting .output)
  | 'v' => some (.flag .verbose)
  | 'h' => some (.halt .help)
  | 'V' => some (.halt .version)
  | _ => none

/-- The arguments read so far. -/
structure Draft where
  input : Option String
  settings : List (Setting × String)
  flags : List Flag

namespace Draft

def empty : Draft := ⟨none, [], []⟩

/-- Paths are not empty and grammars have a name; a module may have any name. -/
def accepts (setting : Setting) (value : String) : Bool :=
  match setting with
  | .output | .options => !value.isEmpty
  | .grammar => (Grammar.ofName? value).isSome
  | .moduleName => true

def get? (draft : Draft) (setting : Setting) : Option String :=
  (draft.settings.find? (·.1 = setting)).map (·.2)

def set (draft : Draft) (setting : Setting) (value : String) : Except Halt Draft :=
  if (draft.get? setting).isSome || !accepts setting value then .error .usage
  else .ok { draft with settings := (setting, value) :: draft.settings }

def raise (draft : Draft) (flag : Flag) : Except Halt Draft :=
  if flag ∈ draft.flags then .error .usage else .ok { draft with flags := flag :: draft.flags }

def addInput (draft : Draft) (value : String) : Except Halt Draft :=
  if draft.input.isSome || value.isEmpty then .error .usage else .ok { draft with input := value }

def addInputs (draft : Draft) : List String → Except Halt Draft
  | [] => .ok draft
  | value :: rest => do
    let draft ← draft.addInput value
    draft.addInputs rest

def finish (draft : Draft) : Except Halt Invocation :=
  match draft.input with
  | none => .error .usage
  | some input => .ok {
      input := input
      output := draft.get? .output
      grammar := ((draft.get? .grammar).bind Grammar.ofName?).getD .auto
      moduleName := draft.get? .moduleName
      options := draft.get? .options
      indented := .indented ∈ draft.flags
      checkOnly := .checkOnly ∈ draft.flags
      verbose := .verbose ∈ draft.flags }

end Draft

/-- A draft, or an option that still waits for its value. -/
inductive Step where
  | done (draft : Draft)
  | waiting (draft : Draft) (setting : Setting)

/-- An argument that starts with two dashes, which are left out here. -/
def readLong (draft : Draft) (name : List Char) : Except Halt Step := do
  let key := String.ofList (name.takeWhile (· ≠ '='))
  match longName? key, name.dropWhile (· ≠ '=') with
  | some (.setting setting), [] => return .waiting draft setting
  | some (.setting setting), _ :: value =>
    return .done (← draft.set setting (String.ofList value))
  | some (.flag flag), [] => return .done (← draft.raise flag)
  | some (.halt halt), [] => throw halt
  | _, _ => throw .usage

/-- The short names of an argument that starts with one dash. -/
def readShort (draft : Draft) : List Char → Except Halt Step
  | [] => return .done draft
  | c :: rest =>
    match shortName? c, rest with
    | some (.setting setting), [] => return .waiting draft setting
    | some (.setting setting), '=' :: value =>
      return .done (← draft.set setting (String.ofList value))
    | some (.setting setting), value =>
      return .done (← draft.set setting (String.ofList value))
    | some (.flag flag), rest => do
      let draft ← draft.raise flag
      readShort draft rest
    | some (.halt halt), _ => throw halt
    | none, _ => throw .usage

/-- Whether an argument is a value rather than an option; a single dash is a value. -/
def isValue (arg : String) : Bool :=
  match arg.toList with
  | '-' :: _ :: _ => false
  | _ => true

/-- One argument other than `--`. -/
def readArgument (draft : Draft) (arg : String) : Except Halt Step :=
  match arg.toList with
  | '-' :: '-' :: name => readLong draft name
  | '-' :: c :: names => readShort draft (c :: names)
  | _ => return .done (← draft.addInput arg)

def readArguments : Draft → List String → Except Halt Draft
  | draft, [] => return draft
  | draft, "--" :: rest => draft.addInputs rest
  | draft, arg :: rest => do
    match ← readArgument draft arg with
    | .done draft => readArguments draft rest
    | .waiting draft setting =>
      match rest with
      | value :: rest =>
        if isValue value then
          let draft ← draft.set setting value
          readArguments draft rest
        else throw .usage
      | [] => throw .usage

/-- The invocation that arguments stand for. -/
def parseArguments (args : List String) : Except Halt Invocation := do
  let draft ← readArguments .empty args
  draft.finish

end MiniC.Command
