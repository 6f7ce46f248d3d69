import TemplateLexer.Source.Cursor
import TemplateLexer.Source.Lines

/-! A source: a text with the name that reports show for it. -/
namespace TemplateLexer

structure Source where
  name : String
  content : String
  deriving DecidableEq, Repr

namespace Source

def anonymous (content : String) : Source := ⟨"<anonymous>", content⟩

def cursor (s : Source) : Cursor := .ofString s.content

def lineSpans (s : Source) : List ByteSpan := TemplateLexer.lineSpans s.content.toList

/-- A text without any terminator is one line, and a terminator at its very end opens an empty
one. -/
def lineCount (s : Source) : Nat := s.lineSpans.length

/-- The line with the given number, counted from 1, without its terminator. -/
def line? (s : Source) : Nat → Option String
  | 0 => none
  | n + 1 => do
    let span ← s.lineSpans[n]?
    let text ← span.slice? s.content.toList
    return String.ofList (trimLineEnd text)

end Source

end TemplateLexer
