import MiniC.Json.Reader

/-!
# Options of a compilation

Options are written as a JSON object with the keys `moduleName` and `directive`, or as an array of
the two values in this order. Either may be left out; both are strings and no key may be given
twice. Fields with other keys are skipped unread.
-/

namespace MiniC

structure Options where
  /-- The name of the function around the module. -/
  moduleName : String
  /-- The text of the first statement of the module. -/
  directive : String
  deriving DecidableEq, Repr

namespace Options

def default : Options := ⟨"Module", "use asm"⟩

/-- What has been read of the options. -/
structure Draft where
  moduleName : Option String
  directive : Option String

def Draft.empty : Draft := ⟨none, none⟩

def Draft.finish (draft : Draft) : Options :=
  ⟨draft.moduleName.getD default.moduleName, draft.directive.getD default.directive⟩

/-- A field of the object: a string for a key of the options, anything for another key. -/
inductive Field where
  | moduleName (value : String)
  | directive (value : String)
  | other

def readString : List Char → Option (String × List Char)
  | '"' :: rest => Quoted.read rest
  | _ => none

def readFieldValue (bound : Nat) (key : String) (cs : List Char) : Option (Field × List Char) :=
  if key = "moduleName" then (readString cs).map fun (s, rest) => (.moduleName s, rest)
  else if key = "directive" then (readString cs).map fun (s, rest) => (.directive s, rest)
  else (Json.skip bound bound cs).map fun (_, rest) => (.other, rest)

def readField (bound : Nat) (cs : List Char) : Option (Field × List Char) := do
  let (key, rest) ← readString cs
  match Json.dropBlank rest with
  | ':' :: rest => readFieldValue bound key (Json.dropBlank rest)
  | _ => none

/-- The fields of an object together; a repeated key is refused. -/
def ofFields : Draft → List Field → Option Options
  | draft, [] => some draft.finish
  | draft, .moduleName value :: rest =>
    if draft.moduleName.isSome then none else ofFields { draft with moduleName := value } rest
  | draft, .directive value :: rest =>
    if draft.directive.isSome then none else ofFields { draft with directive := value } rest
  | draft, .other :: rest => ofFields draft rest

/-- The values of an array in order. -/
def ofValues : List String → Option Options
  | [] => some default
  | [moduleName] => some { default with moduleName := moduleName }
  | [moduleName, directive] => some ⟨moduleName, directive⟩
  | _ => none

def read (cs : List Char) : Option (Options × List Char) :=
  match cs with
  | '{' :: rest => do
    let (fields, rest) ← Json.readInside (readField cs.length) '}' cs.length rest
    let options ← ofFields .empty fields
    some (options, rest)
  | '[' :: rest => do
    let (values, rest) ← Json.readInside readString ']' cs.length rest
    let options ← ofValues values
    some (options, rest)
  | _ => none

/-- The options that a text holds. -/
def parse? (text : String) : Option Options := do
  let (options, rest) ← read (Json.dropBlank text.toList)
  if (Json.dropBlank rest).isEmpty then some options else none

end Options

end MiniC
