import TemplateLexer.Report.Style
import TemplateLexer.Source.Basic

/-! The place of a report, shown in its source: the line, the one before it, and a caret below the
character. -/
namespace TemplateLexer

/-- The place may lie outside the source; lines that do not exist are left out. -/
structure Excerpt where
  source : Source
  location : Location
  help? : Option String
  deriving DecidableEq, Repr

/-- The caret would stand so far to the right that its row cannot be written. -/
structure CaretTooFar where
  offset : Nat
  deriving DecidableEq, Repr

namespace Excerpt

/-- What a character of the source takes up in a row: a tab is four spaces wide. -/
def cell (c : Char) : List Char := if c = '\t' then List.replicate 4 ' ' else [c]

def digitCount (n : Nat) : Nat := (Nat.toDigits 10 n).length

/-- A bar, and in front of it the line's number or as much space. -/
def gutter (width : Nat) (number? : Option Nat) : Row :=
  (match number? with
    | some n => [⟨[.bold, .cyan], Nat.toDigits 10 n⟩, .spaces (width - digitCount n)]
    | none => [.spaces width]) ++
  [.spaces 1, ⟨[.bold, .cyan], ['┃']⟩, .spaces 1]

def cells (highlighted? : Option Nat) (text : List Char) : Row :=
  text.mapIdx fun i c =>
    ⟨if highlighted? = some (i + 1) then [.underline, .bold, .red] else [], cell c⟩

def width (e : Excerpt) : Nat := digitCount e.location.line

def header (e : Excerpt) : Row :=
  [.spaces e.width, ⟨[.bold, .cyan], "-->".toList⟩, .spaces 1,
    .plain (e.source.name.toList ++ ':' :: Nat.toDigits 10 e.location.line ++
      ':' :: Nat.toDigits 10 e.location.column)]

def sourceRow? (e : Excerpt) (number : Nat) (highlighted? : Option Nat) : Option Row :=
  (e.source.line? number).map fun text =>
    gutter e.width (some number) ++ cells highlighted? text.toList

def previousRow? (e : Excerpt) : Option Row :=
  if 1 < e.location.line then e.sourceRow? (e.location.line - 1) none else none

def locatedRow? (e : Excerpt) : Option Row :=
  e.sourceRow? e.location.line (some e.location.column)

/-- How far the caret stands from the start of the line: as far as what comes before its column
reaches, and one further for each column behind the end of the line. -/
def caretOffset (e : Excerpt) : Nat :=
  let text := ((e.source.line? e.location.line).getD "").toList
  let before := e.location.column - 1
  ((text.take before).flatMap cell).length + (before - text.length)

def helpSpans (e : Excerpt) : Row :=
  match e.help? with
  | some help => [.spaces 1, ⟨[.bold], "help".toList⟩, .plain (": " ++ help).toList]
  | none => []

def caretRow (e : Excerpt) : Row :=
  gutter e.width none ++ [.spaces e.caretOffset, ⟨[.bold, .red], ['^']⟩] ++ e.helpSpans

def rows (e : Excerpt) : List Row :=
  [e.header, gutter e.width none] ++ e.previousRow?.toList ++ e.locatedRow?.toList ++ [e.caretRow]

/-- The greatest number of spaces that can be written before the caret. -/
def caretLimit : Nat := 65535

def render (e : Excerpt) : Except CaretTooFar (List Char) :=
  if e.caretOffset ≤ caretLimit then .ok (e.rows.flatMap fun row => row.render ++ ['\n'])
  else .error ⟨e.caretOffset⟩

end Excerpt

end TemplateLexer
