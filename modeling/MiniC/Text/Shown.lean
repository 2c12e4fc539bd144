import MiniC.Text.Unprintable

/-!
# Text as it is shown in messages

A text is put between quotes. Quotes, backslashes, tabs, line ends and the null character are
escaped with a backslash; a character without an appearance of its own is shown by its code point.
-/

namespace MiniC.Text

def showChar (c : Char) : List Char :=
  if c = '\x00' then ['\\', '0']
  else if c = '\t' then ['\\', 't']
  else if c = '\r' then ['\\', 'r']
  else if c = '\n' then ['\\', 'n']
  else if c = '\\' || c = '"' then ['\\', c]
  else if isUnprintable c then '\\' :: 'u' :: '{' :: Nat.toDigits 16 c.toNat ++ ['}']
  else [c]

def shown (text : String) : String :=
  String.ofList ('"' :: (text.toList.flatMap showChar ++ ['"']))

end MiniC.Text
