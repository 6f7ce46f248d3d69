import TemplateLexer.Scan.Step
import TemplateLexer.Source.Basic

/-! The tokens of a whole text, up to the first error. -/
namespace TemplateLexer

structure Tokenization where
  tokens : List Token
  /-- What ended the reading before the text did. -/
  error? : Option ScanError
  deriving DecidableEq, Repr

namespace Cursor

def tokenize (c : Cursor) : Tokenization :=
  if c.atEnd then ⟨[], none⟩
  else
    match _ : c.scan with
    | (.ok token, stop) =>
      let later := stop.tokenize
      ⟨token :: later.tokens, later.error?⟩
    | (.error e, _) => ⟨[], some e⟩
termination_by c.rest.length
decreasing_by exact rest_length_lt_of_scan ‹_›

theorem tokenize_of_atEnd {c : Cursor} (done : c.rest = []) : c.tokenize = ⟨[], none⟩ := by
  rw [tokenize, atEnd, done]
  rfl

theorem tokenize_of_token {c stop : Cursor} {token : Token} (more : c.rest ≠ [])
    (read : c.scan = (.ok token, stop)) :
    c.tokenize = ⟨token :: stop.tokenize.tokens, stop.tokenize.error?⟩ := by
  have going : c.atEnd = false := by simpa [atEnd] using more
  rw [tokenize, going]
  simp only [Bool.false_eq_true, if_false]
  split <;> simp_all

theorem tokenize_of_error {c stop : Cursor} {e : ScanError} (more : c.rest ≠ [])
    (read : c.scan = (.error e, stop)) : c.tokenize = ⟨[], some e⟩ := by
  have going : c.atEnd = false := by simpa [atEnd] using more
  rw [tokenize, going]
  simp only [Bool.false_eq_true, if_false]
  split <;> simp_all

/-- A row of scans ends with the text or at a failure, and goes on behind a token. -/
@[elab_as_elim]
theorem scan_induction {motive : Cursor → Prop}
    (ended : ∀ c, c.rest = [] → motive c)
    (failed : ∀ c e stop, c.rest ≠ [] → c.scan = (.error e, stop) → motive c)
    (token : ∀ c token stop, c.rest ≠ [] → c.scan = (.ok token, stop) → motive stop → motive c)
    (c : Cursor) : motive c := by
  by_cases done : c.rest = []
  · exact ended c done
  rcases read : c.scan with ⟨result, stop⟩
  cases result with
  | error e => exact failed c e stop done read
  | ok found =>
    have less := rest_length_lt_of_scan read
    exact token c found stop done read (scan_induction ended failed token stop)
termination_by c.rest.length

end Cursor

def Source.tokenize (s : Source) : Tokenization := s.cursor.tokenize

/-- The preferred spellings of the tokens, with a separator between neighbours. -/
def renderTokens (separator : List Char) (tokens : List Token) : List Char :=
  separator.intercalate (tokens.map Token.text)

/-- Equality of token lists, places included and numbers as values. -/
def tokensValueEq (first second : List Token) : Bool := first.isEqv second Token.valueEq

end TemplateLexer
