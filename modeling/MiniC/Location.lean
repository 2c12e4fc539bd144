import MiniC.Decimal

/-!
# Places in a source text

A `Location` names a text, a line and a column. A `Span` runs from one location to another; the
span of a node that was given a single place starts and ends there.
-/

namespace MiniC

structure Location where
  file : String
  line : UInt32
  column : UInt32
  deriving DecidableEq, Repr

namespace Location

/-- Where a node stands that carries no place. -/
def unknown : Location := ⟨"<unknown>", 0, 0⟩

/-- A place in the text that is being read. -/
def inInput (line column : UInt32) : Location := ⟨"<input>", line, column⟩

/-- Line and column, separated by a colon. -/
def lineColumn (place : Location) : String :=
  Decimal.ofNat place.line.toNat ++ ":" ++ Decimal.ofNat place.column.toNat

def text (place : Location) : String :=
  place.file ++ ":" ++ place.lineColumn

end Location

structure Span where
  start : Location
  stop : Location
  deriving DecidableEq, Repr

namespace Span

/-- The span that holds one place only. -/
def point (place : Location) : Span := ⟨place, place⟩

def unknown : Span := point .unknown

/-- The shortest unambiguous form: parts that the two ends share are written once. -/
def text (span : Span) : String :=
  if span.start.file ≠ span.stop.file then
    span.start.text ++ " to " ++ span.stop.text
  else if span.start.line ≠ span.stop.line then
    span.start.text ++ "-" ++ span.stop.lineColumn
  else if span.start.column ≠ span.stop.column then
    span.start.text ++ "-" ++ Decimal.ofNat span.stop.column.toNat
  else
    span.start.text

end Span

end MiniC
