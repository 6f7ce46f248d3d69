import TemplateLexer.Scan.Basic
import TemplateLexer.Token.Basic

/-! Scanning operators by narrowing: with each character only the operators that go on with it stay
candidates, and the run ends where none would be left. -/
namespace TemplateLexer

def operatorSpellings : List (List Char) :=
  (Vocabulary.all : List UnaryOperator).map (·.spelling.toList) ++
    (Vocabulary.all : List BinaryOperator).map (·.spelling.toList)

/-- What is left of a text that starts with `c`. -/
def behind? (c : Char) : List Char → Option (List Char)
  | [] => none
  | x :: text => if x = c then some text else none

/-- The longest front of a text that is also a front of some candidate. -/
def narrow (candidates : List (List Char)) : List Char → List Char
  | [] => []
  | c :: text =>
    let left := candidates.filterMap (behind? c)
    if left.isEmpty then [] else c :: narrow left text

def startsOperator (c : Char) : Bool :=
  operatorSpellings.any fun spelling => spelling.head? == some c

def operatorLexeme (text : String) : Except Fault Lexeme :=
  match (Vocabulary.ofSpelling? text : Option BinaryOperator) with
  | some operator => .ok (.binaryOperator operator)
  | none =>
    match (Vocabulary.ofSpelling? text : Option UnaryOperator) with
    | some operator => .ok (.unaryOperator operator)
    | none => .error (.unknownOperator text)

def scanOperator (text : List Char) : Scan Lexeme :=
  let taken := narrow operatorSpellings text
  .run taken (text.drop taken.length) (operatorLexeme (String.ofList taken))

end TemplateLexer
