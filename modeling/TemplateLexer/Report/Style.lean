/-! Text for a console. A styled text is wrapped in an escape sequence for each of its styles, each
with a reset of its own. -/
namespace TemplateLexer

inductive Style where
  | bold
  | underline
  | red
  | green
  | yellow
  | blue
  | cyan
  deriving DecidableEq, Repr

def Style.code : Style → List Char
  | bold => "\x1b[1m".toList
  | underline => "\x1b[4m".toList
  | red => "\x1b[31m".toList
  | green => "\x1b[32m".toList
  | yellow => "\x1b[33m".toList
  | blue => "\x1b[34m".toList
  | cyan => "\x1b[36m".toList

def Style.reset : List Char := "\x1b[0m".toList

/-- A piece of text and its styles, the outermost first. -/
structure Span where
  styles : List Style
  text : List Char
  deriving DecidableEq, Repr

namespace Span

def plain (text : List Char) : Span := ⟨[], text⟩

def spaces (n : Nat) : Span := plain (List.replicate n ' ')

def render (s : Span) : List Char :=
  s.styles.foldr (fun style inner => style.code ++ inner ++ Style.reset) s.text

end Span

abbrev Row := List Span

/-- A sequence that only sets how a terminal shows what follows. -/
def IsEscape (sequence : List Char) : Prop :=
  ∃ digits : List Char, (∀ c ∈ digits, c.isDigit) ∧ sequence = '\x1b' :: '[' :: (digits ++ ['m'])

/-- The second text is the first one with escape sequences in it left out. -/
inductive Unstyled : List Char → List Char → Prop where
  | nil : Unstyled [] []
  | shown {c : Char} {printed seen : List Char} :
      Unstyled printed seen → Unstyled (c :: printed) (c :: seen)
  | hidden {sequence printed seen : List Char} :
      IsEscape sequence → Unstyled printed seen → Unstyled (sequence ++ printed) seen

namespace Unstyled

variable {text printed seen printed' seen' : List Char}

theorem append (first : Unstyled printed seen) (second : Unstyled printed' seen') :
    Unstyled (printed ++ printed') (seen ++ seen') := by
  induction first with
  | nil => exact second
  | shown _ ih => exact .shown ih
  | hidden escape _ ih => simpa using Unstyled.hidden escape ih

end Unstyled

namespace Row

def render (r : Row) : List Char := r.flatMap Span.render

end Row

end TemplateLexer
