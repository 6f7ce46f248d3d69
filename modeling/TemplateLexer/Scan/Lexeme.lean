import TemplateLexer.Scan.Operator

/-! Scanning one lexeme at the front of a text. Letters and digits are the ASCII ones. -/
namespace TemplateLexer

def isBlank (c : Char) : Bool := c == ' ' || c == '\t' || c == '\n' || c == '\r'

def startsWord (c : Char) : Bool := c.isAlpha || c == '$' || c == '_'

def continuesWord (c : Char) : Bool := startsWord c || c.isDigit

def isQuote (c : Char) : Bool := c == '"' || c == '\''

def bracket? : Char → Option Lexeme
  | '{' => some .openTemplate
  | '}' => some .closeTemplate
  | '(' => some .openParenthesis
  | ')' => some .closeParenthesis
  | _ => none

def wordLexeme (name : String) : Lexeme :=
  match Vocabulary.ofSpelling? name with
  | some word => .keyword word
  | none => .symbol name

def scanWord (text : List Char) : Scan Lexeme :=
  let taken := text.takeWhile continuesWord
  .run taken (text.dropWhile continuesWord) (.ok (wordLexeme (String.ofList taken)))

/-- A number at the front of a text: the digits before the point, those behind it if there is one,
and what follows. -/
structure NumberRun where
  whole : List Char
  fraction? : Option (List Char)
  rest : List Char

namespace NumberRun

def ofText (text : List Char) : NumberRun :=
  let whole := text.takeWhile Char.isDigit
  match text.dropWhile Char.isDigit with
  | '.' :: rest => ⟨whole, some (rest.takeWhile Char.isDigit), rest.dropWhile Char.isDigit⟩
  | rest => ⟨whole, none, rest⟩

def taken (r : NumberRun) : List Char :=
  match r.fraction? with
  | some fraction => r.whole ++ '.' :: fraction
  | none => r.whole

def value (r : NumberRun) : Binary64 := .ofDecimal (.ofDigits r.whole (r.fraction?.getD []))

end NumberRun

/-- A point behind the run can only be a second one. -/
def scanNumber (text : List Char) : Scan Lexeme :=
  let r := NumberRun.ofText text
  .run r.taken r.rest
    (if r.rest.head? = some '.' then .error .unexpectedDot else .ok (.number r.value))

def scanQuoted (quote : Char) : List Char → Scan (List Char)
  | [] => .failed .unexpectedEnd 0
  | c :: text =>
    if c = '\\' then
      match text with
      | [] => .failed .unexpectedEnd 1
      | letter :: text =>
        match Quoted.unescape? letter with
        | none => .failed (.invalidEscape letter) 2
        | some x => (scanQuoted quote text).mapAfter 2 (x :: ·)
    else if c = quote then .found [] 1
    else (scanQuoted quote text).mapAfter 1 (c :: ·)

/-- The first character alone decides what kind of lexeme to expect. -/
def scanLexeme (text : List Char) : Scan Lexeme :=
  match text with
  | [] => .failed .unexpectedEnd 0
  | c :: rest =>
    match bracket? c with
    | some lexeme => .found lexeme 1
    | none =>
      if isQuote c then (scanQuoted c rest).mapAfter 1 fun value => .string (String.ofList value)
      else if c.isDigit then scanNumber text
      else if startsOperator c then scanOperator text
      else if startsWord c then scanWord text
      else .failed .unknownToken 0

theorem length_pos_of_scanLexeme_ok {text : List Char} {lexeme : Lexeme}
    (h : (scanLexeme text).outcome = .ok lexeme) : 0 < (scanLexeme text).length := by
  generalize hs : scanLexeme text = s at h ⊢
  unfold scanLexeme at hs
  repeat' split at hs
  all_goals subst hs
  · cases h
  · exact Nat.one_pos
  · exact Nat.add_pos_left Nat.one_pos _
  · exact Scan.length_pos_of_run_ok h
  · exact Scan.length_pos_of_run_ok h
  · exact Scan.length_pos_of_run_ok h
  · cases h

end TemplateLexer
