import MiniC.Json.Quoted
import MiniC.Json.Value

/-!
# Writing JSON text

Compact text has no blanks. Indented text puts every item and field on a line of its own, two
spaces deeper than its container, and keeps empty containers on one line.
-/

namespace MiniC.Json

mutual

def compactChars : Json → List Char
  | .null => ['n', 'u', 'l', 'l']
  | .bool true => ['t', 'r', 'u', 'e']
  | .bool false => ['f', 'a', 'l', 's', 'e']
  | .num n => n.text.toList
  | .str s => Quoted.write s
  | .arr items => '[' :: (compactItems items ++ [']'])
  | .obj fields => '{' :: (compactFields fields ++ ['}'])

def compactItems : List Json → List Char
  | [] => []
  | [v] => compactChars v
  | v :: w :: rest => compactChars v ++ ',' :: compactItems (w :: rest)

def compactFields : List (String × Json) → List Char
  | [] => []
  | [(k, v)] => Quoted.write k ++ ':' :: compactChars v
  | (k, v) :: w :: rest =>
    Quoted.write k ++ ':' :: (compactChars v ++ ',' :: compactFields (w :: rest))

end

/-- Text without blanks. -/
def compact (v : Json) : String :=
  String.ofList (compactChars v)

/-- A new line at a level of indentation. -/
def newline (level : Nat) : List Char :=
  '\n' :: List.replicate (2 * level) ' '

mutual

/-- Indented text of a value that starts on a line of the given level. -/
def prettyChars (level : Nat) : Json → List Char
  | .null => ['n', 'u', 'l', 'l']
  | .bool true => ['t', 'r', 'u', 'e']
  | .bool false => ['f', 'a', 'l', 's', 'e']
  | .num n => n.text.toList
  | .str s => Quoted.write s
  | .arr [] => ['[', ']']
  | .arr (v :: rest) => '[' :: (prettyItems (level + 1) (v :: rest) ++ newline level ++ [']'])
  | .obj [] => ['{', '}']
  | .obj (f :: rest) => '{' :: (prettyFields (level + 1) (f :: rest) ++ newline level ++ ['}'])

def prettyItems (level : Nat) : List Json → List Char
  | [] => []
  | [v] => newline level ++ prettyChars level v
  | v :: w :: rest => newline level ++ (prettyChars level v ++ ',' :: prettyItems level (w :: rest))

def prettyFields (level : Nat) : List (String × Json) → List Char
  | [] => []
  | [(k, v)] => newline level ++ (Quoted.write k ++ ':' :: ' ' :: prettyChars level v)
  | (k, v) :: w :: rest =>
    newline level ++ (Quoted.write k ++ ':' :: ' ' :: (prettyChars level v ++
      ',' :: prettyFields level (w :: rest)))

end

/-- Indented text. -/
def pretty (v : Json) : String :=
  String.ofList (prettyChars 0 v)

end MiniC.Json
