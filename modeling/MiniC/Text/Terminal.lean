/-!
# Text without terminal controls

Text that is not shown on a terminal is shown without control characters and without the sequences
that a terminal takes for commands. A sequence starts with an escape character. A control sequence
and a short escape end with a letter or a like character; strings end with a bell, with a string
terminator or with a new escape, according to their kind. Cancelling ends all of them.
-/

namespace MiniC.Text

/-- Where a reader of terminal output stands: in plain text or inside a sequence. -/
inductive Terminal where
  | plain
  | escape
  /-- An escape with more characters to come before its last one. -/
  | longEscape
  | control
  /-- A command of the operating system, as for titles. -/
  | command
  /-- The three parts in front of the body of a device string. -/
  | deviceEntry
  | deviceParameters
  | deviceIntermediate
  /-- The body of a device string, or a string that no device reads. -/
  | string
  deriving DecidableEq, Repr

/-- The control characters that only lay text out. -/
def isLayout (c : Char) : Bool :=
  c = '\t' || c = '\n' || c = '\x0c' || c = '\r'

/-- The characters of plain text. -/
def isVisible (c : Char) : Bool :=
  isLayout c || (0x20 ≤ c.toNat && c ≠ '\x7f')

namespace Terminal

/-- Whether a character is shown although it may stand inside a sequence. -/
def shows (mode : Terminal) (c : Char) : Bool :=
  match mode with
  | .plain => isVisible c
  | .escape | .longEscape | .control => isLayout c
  | _ => false

/-- The string terminator is looked for among the bytes of a character. -/
def hasTerminator (c : Char) : Bool :=
  (String.utf8EncodeChar c).contains 0x9C

/-- What a printable ASCII character does. -/
def afterPrintable (mode : Terminal) (c : Char) : Terminal :=
  let isIntermediate := c.toNat < 0x30
  let isParameter := 0x30 ≤ c.toNat && c.toNat < 0x40
  match mode with
  | .plain => .plain
  | .escape =>
    if isIntermediate then .longEscape
    else if c = '[' then .control
    else if c = ']' then .command
    else if c = 'P' then .deviceEntry
    else if c = 'X' || c = '^' || c = '_' then .string
    else .plain
  | .longEscape => if isIntermediate then .longEscape else .plain
  | .control => if isIntermediate || isParameter then .control else .plain
  | .command => .command
  | .deviceEntry =>
    if isIntermediate then .deviceIntermediate
    else if isParameter then .deviceParameters
    else .string
  | .deviceParameters =>
    if isIntermediate then .deviceIntermediate
    else if isParameter && c.toNat < 0x3C then .deviceParameters
    else .string
  | .deviceIntermediate => if isIntermediate then .deviceIntermediate else .string
  | .string => .string

def next (mode : Terminal) (c : Char) : Terminal :=
  if c = '\x1b' then .escape
  else if c = '\x18' || c = '\x1a' then .plain
  else if c = '\x07' && mode = .command then .plain
  else if c.toNat < 0x20 || c = '\x7f' then mode
  else if c.toNat < 0x80 then mode.afterPrintable c
  else if mode = .string && hasTerminator c then .plain
  else mode

/-- The characters that are shown. A layout character inside a sequence is shown, and so is all
plain text after it: then `showing` holds. The next character that is hidden belongs to the
sequence again, unless a character beyond ASCII came before it. -/
def visible (mode : Terminal) (showing : Bool) : List Char → List Char
  | [] => []
  | c :: rest =>
    if mode.shows c || (showing && isVisible c) then
      c :: visible (if c.toNat < 0x80 then mode else .plain) true rest
    else
      visible (mode.next c) false rest

end Terminal

def withoutControls (text : String) : String :=
  String.ofList (Terminal.visible .plain false text.toList)

end MiniC.Text
