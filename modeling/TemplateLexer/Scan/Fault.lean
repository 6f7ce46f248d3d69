import TemplateLexer.Source.Location

/-! Why a scan fails, and where. -/
namespace TemplateLexer

/-- Ordered as listed; of two faults of one kind the texts decide. -/
inductive Fault where
  /-- The text ended inside a token, behind blanks, or right behind a number, word or operator. -/
  | unexpectedEnd
  /-- A run of characters was to be taken and none fitted. -/
  | unmatched
  /-- A number has a second point. -/
  | unexpectedDot
  | unknownOperator (text : String)
  /-- No token starts with the next character. -/
  | unknownToken
  | invalidEscape (letter : Char)
  deriving DecidableEq, Ord, Repr

namespace Fault

def message : Fault → String
  | unexpectedEnd => "Unexpected EOF"
  | unmatched => "Unmatched token"
  | unexpectedDot => "Unexpected ."
  | unknownOperator text => "Unknown operator \"" ++ text ++ "\""
  | unknownToken => "Unknown token"
  | invalidEscape letter => "Invalid escape \"\\" ++ letter.toString ++ "\""

def help? : Fault → Option String
  | unexpectedEnd => some "every token must be followed by another token or a closing `\x7d`"
  | unmatched => none
  | unexpectedDot => some "a number may contain at most one decimal point"
  | unknownOperator _ => none
  | unknownToken => some "this character cannot start a token"
  | invalidEscape _ => some "recognized escapes are \\n, \\r, \\t, \\\\, \\', \\\" and \\0"

end Fault

/-- The place is the one that the scan had reached when it failed, not where its token started. -/
structure ScanError where
  fault : Fault
  location : Location
  deriving DecidableEq, Ord, Repr

instance : ToString ScanError := ⟨fun e => e.fault.message ++ " at " ++ toString e.location⟩

end TemplateLexer
