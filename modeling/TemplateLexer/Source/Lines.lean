/-! Where the lines of a text lie. A line feed, a carriage return, and a carriage return with a line
feed behind it each end a line; the spans of the lines, terminators included, lie end to end. -/
namespace TemplateLexer

/-- A stretch of a text, measured in the bytes of its UTF-8 form, from `start` up to `stop`. -/
structure ByteSpan where
  start : Nat
  stop : Nat
  deriving DecidableEq, Repr

/-- Cuts a text behind its first `n` bytes; `none` if it is shorter, or if a character lies across
the cut. -/
def splitAtByte? : Nat → List Char → Option (List Char × List Char)
  | 0, text => some ([], text)
  | _ + 1, [] => none
  | n + 1, c :: text =>
    if c.utf8Size ≤ n + 1 then
      (splitAtByte? (n + 1 - c.utf8Size) text).map fun (front, back) => (c :: front, back)
    else none

/-- The characters inside a span; `none` if an end of the span is no character boundary. -/
def ByteSpan.slice? (span : ByteSpan) (text : List Char) : Option (List Char) := do
  let (_, tail) ← splitAtByte? span.start text
  let (piece, _) ← splitAtByte? (span.stop - span.start) tail
  return piece

/-- The spans of the lines of the text that begins at byte `position`, where the current line began
at byte `start`. -/
def lineSpansFrom (start position : Nat) : List Char → List ByteSpan
  | [] => [⟨start, position⟩]
  | '\r' :: '\n' :: text => ⟨start, position + 2⟩ :: lineSpansFrom (position + 2) (position + 2) text
  | c :: text =>
    if c = '\n' ∨ c = '\r' then
      ⟨start, position + 1⟩ :: lineSpansFrom (position + 1) (position + 1) text
    else lineSpansFrom start (position + c.utf8Size) text

def lineSpans (text : List Char) : List ByteSpan := lineSpansFrom 0 0 text

/-- Drops every line feed and carriage return at the end of a text. -/
def trimLineEnd (text : List Char) : List Char :=
  (text.reverse.dropWhile fun c => c = '\n' ∨ c = '\r').reverse

end TemplateLexer
