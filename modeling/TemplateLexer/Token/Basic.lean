import TemplateLexer.Numeral.Shortest
import TemplateLexer.Source.Location
import TemplateLexer.Token.Quoted
import TemplateLexer.Token.Vocabulary

/-! Tokens of template expressions. A token is a lexeme and the place of its first character; a
lexeme has one preferred spelling, its text. -/
namespace TemplateLexer

inductive Lexeme where
  | openTemplate
  | closeTemplate
  | openParenthesis
  | closeParenthesis
  | number (value : Binary64)
  | string (value : String)
  | keyword (word : Keyword)
  | symbol (name : String)
  | unaryOperator (operator : UnaryOperator)
  | binaryOperator (operator : BinaryOperator)
  deriving DecidableEq, Repr

namespace Lexeme

inductive Kind where
  | openTemplate
  | closeTemplate
  | openParenthesis
  | closeParenthesis
  | number
  | string
  | keyword
  | symbol
  | unaryOperator
  | binaryOperator
  deriving DecidableEq, Repr

def Kind.all : List Kind :=
  [openTemplate, closeTemplate, openParenthesis, closeParenthesis, number, string, keyword, symbol,
    unaryOperator, binaryOperator]

def kind : Lexeme → Kind
  | openTemplate => .openTemplate
  | closeTemplate => .closeTemplate
  | openParenthesis => .openParenthesis
  | closeParenthesis => .closeParenthesis
  | number _ => .number
  | string _ => .string
  | keyword _ => .keyword
  | symbol _ => .symbol
  | unaryOperator _ => .unaryOperator
  | binaryOperator _ => .binaryOperator

def text : Lexeme → List Char
  | openTemplate => ['{']
  | closeTemplate => ['}']
  | openParenthesis => ['(']
  | closeParenthesis => [')']
  | number value => value.text
  | string value => Quoted.quote value.toList
  | keyword word => word.spelling.toList
  | symbol name => name.toList
  | unaryOperator operator => operator.spelling.toList
  | binaryOperator operator => operator.spelling.toList

/-- Numbers are equal as values; all else is equal only to itself. -/
def valueEq : Lexeme → Lexeme → Bool
  | number x, number y => x.valueEq y
  | x, y => x == y

def compare? : Lexeme → Lexeme → Option Ordering
  | number x, number y => x.compare? y
  | string x, string y => some (compare x y)
  | keyword x, keyword y => some (compare x y)
  | symbol x, symbol y => some (compare x y)
  | unaryOperator x, unaryOperator y => some (compare x y)
  | binaryOperator x, binaryOperator y => some (compare x y)
  | x, y => if x = y then some .eq else none

end Lexeme

structure Token where
  location : Location
  lexeme : Lexeme
  deriving DecidableEq, Repr

namespace Token

def text (t : Token) : List Char := t.lexeme.text

instance : ToString Token := ⟨fun t => String.ofList t.text⟩

def valueEq (s t : Token) : Bool := s.location == t.location && s.lexeme.valueEq t.lexeme

/-- Places decide first. Only tokens at one place can fail to have an order. -/
def compare? (s t : Token) : Option Ordering :=
  match compare s.location t.location with
  | .eq => s.lexeme.compare? t.lexeme
  | order => some order

end Token

end TemplateLexer
