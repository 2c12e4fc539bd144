import MiniC.Json.Numeral
import MiniC.Json.Quoted
import MiniC.Json.Value

/-!
# Reading JSON text

The grammar is the strict one: four characters are blank, there are no comments, no trailing commas
and no text after the value. How deeply arrays and objects may nest is a parameter. `Json.skip`
follows the same grammar for a value nobody looks at, where a number may be too large and a
surrogate may stand alone.

Lists of entries are read with a bound on their number; the length of the text is such a bound,
since every entry has a character.
-/

namespace MiniC.Json

def isBlank (c : Char) : Bool :=
  c = ' ' || c = '\t' || c = '\n' || c = '\r'

def dropBlank (cs : List Char) : List Char :=
  cs.dropWhile isBlank

/-- Entries separated by commas up to a closing character; at least one. -/
def readEntries {α : Type} (entry : List Char → Option (α × List Char)) (close : Char) :
    Nat → List Char → Option (List α × List Char)
  | 0, _ => none
  | bound + 1, cs =>
    match entry (dropBlank cs) with
    | none => none
    | some (a, rest) =>
      match dropBlank rest with
      | [] => none
      | c :: rest =>
        if c = ',' then
          (readEntries entry close bound rest).map fun (as, rest) => (a :: as, rest)
        else if c = close then some ([a], rest)
        else none

/-- The inside of an array or object whose opening character has been read. -/
def readInside {α : Type} (entry : List Char → Option (α × List Char)) (close : Char)
    (bound : Nat) (cs : List Char) : Option (List α × List Char) :=
  match dropBlank cs with
  | [] => none
  | c :: rest => if c = close then some ([], rest) else readEntries entry close bound (c :: rest)

/-- A key with its colon, and the value behind it. -/
def readField {α : Type} (key : List Char → Option (String × List Char))
    (value : List Char → Option (α × List Char)) (cs : List Char) :
    Option ((String × α) × List Char) :=
  match cs with
  | '"' :: rest =>
    match key rest with
    | none => none
    | some (k, rest) =>
      match dropBlank rest with
      | ':' :: rest => (value (dropBlank rest)).map fun (v, rest) => ((k, v), rest)
      | _ => none
  | _ => none

/-- The value at the start of a text and what follows it, with at most `depth` containers around
one another. -/
def readValue (bound : Nat) : Nat → List Char → Option (Json × List Char)
  | depth, cs =>
    match cs with
    | 'n' :: 'u' :: 'l' :: 'l' :: rest => some (.null, rest)
    | 't' :: 'r' :: 'u' :: 'e' :: rest => some (.bool true, rest)
    | 'f' :: 'a' :: 'l' :: 's' :: 'e' :: rest => some (.bool false, rest)
    | '"' :: rest => (Quoted.read rest).map fun (s, rest) => (.str s, rest)
    | '[' :: rest =>
      match depth with
      | 0 => none
      | depth + 1 =>
        (readInside (readValue bound depth) ']' bound rest).map fun (items, rest) =>
          (.arr items, rest)
    | '{' :: rest =>
      match depth with
      | 0 => none
      | depth + 1 =>
        (readInside (readField Quoted.read (readValue bound depth)) '}' bound rest).map
          fun (fields, rest) => (.obj fields, rest)
    | cs =>
      match Numeral.read cs with
      | none => none
      | some (numeral, rest) => numeral.toNumber?.map fun n => (.num n, rest)

/-- A text that holds one value, with containers nested at most `depth` deep. -/
def parse? (depth : Nat) (text : String) : Option Json :=
  let cs := text.toList
  match readValue cs.length depth (dropBlank cs) with
  | some (v, rest) => if (dropBlank rest).isEmpty then some v else none
  | none => none

/-- A string nobody looks at; only its pieces must be well written. -/
def skipString (cs : List Char) : Option (String × List Char) :=
  (Quoted.readPieces [] cs).map fun (_, rest) => ("", rest)

/-- What follows the value at the start of a text. -/
def skip (bound : Nat) : Nat → List Char → Option (Unit × List Char)
  | depth, cs =>
    match cs with
    | 'n' :: 'u' :: 'l' :: 'l' :: rest => some ((), rest)
    | 't' :: 'r' :: 'u' :: 'e' :: rest => some ((), rest)
    | 'f' :: 'a' :: 'l' :: 's' :: 'e' :: rest => some ((), rest)
    | '"' :: rest => (skipString rest).map fun (_, rest) => ((), rest)
    | '[' :: rest =>
      match depth with
      | 0 => none
      | depth + 1 => (readInside (skip bound depth) ']' bound rest).map fun (_, rest) => ((), rest)
    | '{' :: rest =>
      match depth with
      | 0 => none
      | depth + 1 =>
        (readInside (readField skipString (skip bound depth)) '}' bound rest).map
          fun (_, rest) => ((), rest)
    | cs => (Numeral.read cs).map fun (_, rest) => ((), rest)

end MiniC.Json
