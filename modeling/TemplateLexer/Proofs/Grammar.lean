import Mathlib.Data.List.Chain
import TemplateLexer.Tokenization

/-! The grammar of template expressions, told without any scan: how each lexeme may be written, what
cannot stand right behind it, and which rows of blanks and lexemes are whole texts. -/
namespace TemplateLexer

/-- Between two of the given quotes, the first text stands for the second. -/
inductive Quoted.Body (quote : Char) : List Char → List Char → Prop where
  | nil : Body quote [] []
  | plain {c : Char} {body value : List Char} :
      c ≠ '\\' → c ≠ quote → Body quote body value → Body quote (c :: body) (c :: value)
  | escaped {letter c : Char} {body value : List Char} :
      (letter, c) ∈ Quoted.escapes → Body quote body value →
        Body quote ('\\' :: letter :: body) (c :: value)

def AllDigits (text : List Char) : Prop := ∀ c ∈ text, c.isDigit

/-- The text is one of the ways to write the lexeme. -/
inductive Spells : List Char → Lexeme → Prop where
  | openTemplate : Spells ['{'] .openTemplate
  | closeTemplate : Spells ['}'] .closeTemplate
  | openParenthesis : Spells ['('] .openParenthesis
  | closeParenthesis : Spells [')'] .closeParenthesis
  | whole {whole : List Char} : whole ≠ [] → AllDigits whole →
      Spells whole (.number (.ofDecimal (.ofDigits whole [])))
  | decimal {whole fraction : List Char} : whole ≠ [] → AllDigits whole → AllDigits fraction →
      Spells (whole ++ '.' :: fraction) (.number (.ofDecimal (.ofDigits whole fraction)))
  | string {quote : Char} {body value : List Char} : isQuote quote → Quoted.Body quote body value →
      Spells (quote :: (body ++ [quote])) (.string (String.ofList value))
  | null : Spells ['n', 'u', 'l', 'l'] (.keyword .null)
  | undefined : Spells ['u', 'n', 'd', 'e', 'f', 'i', 'n', 'e', 'd'] (.keyword .undefined)
  | symbol {c : Char} {tail : List Char} : startsWord c → (∀ x ∈ tail, continuesWord x) →
      String.ofList (c :: tail) ≠ "null" → String.ofList (c :: tail) ≠ "undefined" →
        Spells (c :: tail) (.symbol (String.ofList (c :: tail)))
  | unaryOperator (operator : UnaryOperator) :
      Spells operator.spelling.toList (.unaryOperator operator)
  | binaryOperator (operator : BinaryOperator) :
      Spells operator.spelling.toList (.binaryOperator operator)

/-- Right behind the lexeme, written as `text`, the character would belong to it. -/
def Fuses (text : List Char) (lexeme : Lexeme) (c : Char) : Prop :=
  match lexeme.kind with
  | .number => c.isDigit
  | .keyword | .symbol => continuesWord c
  | .unaryOperator | .binaryOperator => ∃ spelling ∈ operatorSpellings, text ++ [c] <+: spelling
  | _ => False

/-- Brackets and strings have a last character that shows their end. -/
def Lexeme.endsItself (lexeme : Lexeme) : Bool :=
  match lexeme.kind with
  | .openTemplate | .closeTemplate | .openParenthesis | .closeParenthesis | .string => true
  | _ => false

/-- What follows shows that the lexeme, written as `text`, has ended. A point never does so for a
number: it is the number's own, or one too many. -/
def Ends (text : List Char) (lexeme : Lexeme) (rest : List Char) : Prop :=
  lexeme.endsItself ∨
    ∃ c ∈ rest.head?, ¬ Fuses text lexeme c ∧ (lexeme.kind = .number → c ≠ '.')

/-- The lexeme can be read at the front of the text, from its first `n` characters. -/
def ReadsAs (text : List Char) (n : Nat) (lexeme : Lexeme) : Prop :=
  ∃ front rest : List Char,
    text = front ++ rest ∧ front.length = n ∧ Spells front lexeme ∧ Ends front lexeme rest

/-- All of the text may belong to a lexeme that has not ended yet. -/
inductive Unfinished : List Char → Prop where
  | empty : Unfinished []
  | whole {whole : List Char} : whole ≠ [] → AllDigits whole → Unfinished whole
  | decimal {whole fraction : List Char} : whole ≠ [] → AllDigits whole → AllDigits fraction →
      Unfinished (whole ++ '.' :: fraction)
  | string {quote : Char} {body value : List Char} : isQuote quote → Quoted.Body quote body value →
      Unfinished (quote :: body)
  | escape {quote : Char} {body value : List Char} : isQuote quote → Quoted.Body quote body value →
      Unfinished (quote :: (body ++ ['\\']))
  | word {c : Char} {tail : List Char} : startsWord c → (∀ x ∈ tail, continuesWord x) →
      Unfinished (c :: tail)
  | operator {text spelling : List Char} : text ≠ [] → spelling ∈ operatorSpellings →
      text <+: spelling → Unfinished text

/-- No lexeme can be read at the front of the text, for the given reason, which shows behind the
first `n` characters. -/
def FailsWith (text : List Char) (n : Nat) : Fault → Prop
  | .unexpectedEnd => Unfinished text ∧ n = text.length
  | .unmatched => False
  | .unexpectedDot => ∃ whole fraction rest : List Char,
      whole ≠ [] ∧ AllDigits whole ∧ AllDigits fraction ∧
        text = whole ++ '.' :: (fraction ++ '.' :: rest) ∧ n = whole.length + 1 + fraction.length
  | .unknownOperator name => ∃ (c d : Char) (rest : List Char),
      c ∈ ['=', '&', '|', '?'] ∧ d ≠ c ∧ text = c :: d :: rest ∧ name = String.ofList [c] ∧ n = 1
  | .unknownToken => n = 0 ∧ ∃ (c : Char) (rest : List Char), text = c :: rest ∧
      c ∉ ['{', '}', '(', ')'] ∧ ¬ isQuote c ∧ ¬ c.isDigit ∧
        (∀ spelling ∈ operatorSpellings, spelling.head? ≠ some c) ∧ ¬ startsWord c
  | .invalidEscape letter => ∃ (quote : Char) (body value rest : List Char),
      isQuote quote ∧ Quoted.Body quote body value ∧ (∀ entry ∈ Quoted.escapes, entry.1 ≠ letter) ∧
        text = quote :: (body ++ '\\' :: letter :: rest) ∧ n = body.length + 3

/-- A lexeme as it is written, with the blanks in front of it. -/
structure Piece where
  blanks : List Char
  text : List Char
  lexeme : Lexeme

namespace Piece

def written (p : Piece) : List Char := p.blanks ++ p.text

structure WellFormed (p : Piece) : Prop where
  blanks : ∀ c ∈ p.blanks, isBlank c
  spells : Spells p.text p.lexeme

/-- Where no blank divides two pieces, the second must not run into the first. -/
def Separate (p q : Piece) : Prop :=
  q.blanks = [] → ∀ c ∈ q.text.head?, ¬ Fuses p.text p.lexeme c

def tokens (l : Location) : List Piece → List Token
  | [] => []
  | p :: pieces => ⟨l.afterAll p.blanks, p.lexeme⟩ :: tokens (l.afterAll p.written) pieces

end Piece

/-- A row of pieces that makes up a whole text. -/
structure Sentence (pieces : List Piece) : Prop where
  wellFormed : ∀ p ∈ pieces, p.WellFormed
  separate : pieces.IsChain Piece.Separate
  ended : ∀ p ∈ pieces.getLast?, p.lexeme.endsItself

end TemplateLexer
