import TemplateLexer.Scan.Lexeme
import TemplateLexer.Source.Cursor

/-! One scan at a cursor: blanks, then a lexeme. -/
namespace TemplateLexer

abbrev ScanResult := Except ScanError Token

namespace Cursor

def errorHere (c : Cursor) (fault : Fault) : ScanError := ⟨fault, c.location⟩

def skipBlanks (c : Cursor) : Cursor := c.advance (c.rest.takeWhile isBlank).length

/-- A token stands where its first character does; an error, where the scan leaves the cursor. -/
def scan (c : Cursor) : ScanResult × Cursor :=
  let start := c.skipBlanks
  let found := scanLexeme start.rest
  let stop := start.advance found.length
  match found.outcome with
  | .ok lexeme => (.ok ⟨start.location, lexeme⟩, stop)
  | .error fault => (.error (stop.errorHere fault), stop)

theorem rest_length_lt_of_scan {c stop : Cursor} {token : Token}
    (h : c.scan = (.ok token, stop)) : stop.rest.length < c.rest.length := by
  have blanks : c.skipBlanks.rest.length ≤ c.rest.length := by simp [skipBlanks]
  unfold scan at h
  dsimp only at h
  split at h <;> cases h
  next lexeme found =>
  have pos := length_pos_of_scanLexeme_ok found
  have nonempty : c.skipBlanks.rest ≠ [] := by
    intro empty
    rw [empty] at found
    cases found
  have := List.length_pos_iff.mpr nonempty
  rw [rest_advance, List.length_drop]
  omega

end Cursor

end TemplateLexer
