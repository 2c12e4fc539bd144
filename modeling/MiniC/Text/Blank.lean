/-!
# Blank characters

The characters with the Unicode property `White_Space`, and the words between them.
-/

namespace MiniC.Text

def isBlank (c : Char) : Bool :=
  let n := c.toNat
  (0x09 ≤ n && n ≤ 0x0D) || n = 0x20 || n = 0x85 || n = 0xA0 || n = 0x1680 ||
    (0x2000 ≤ n && n ≤ 0x200A) || n = 0x2028 || n = 0x2029 || n = 0x202F || n = 0x205F || n = 0x3000

/-- The words of a text, where `word` holds the characters of the current one in reverse. -/
def splitWords (word : List Char) : List Char → List String
  | [] => if word.isEmpty then [] else [String.ofList word.reverse]
  | c :: rest =>
    if isBlank c then
      if word.isEmpty then splitWords [] rest
      else String.ofList word.reverse :: splitWords [] rest
    else splitWords (c :: word) rest

/-- The longest runs of characters that are not blank, in order. -/
def words (text : String) : List String :=
  splitWords [] text.toList

end MiniC.Text
