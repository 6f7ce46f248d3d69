import Mathlib.Data.Nat.Log
import TemplateLexer.Proofs.Diagnostics

/-! The excerpt as it is seen. The rows of lines share a gutter, which has room for both numbers; in
the located line the character in the located column and no other is marked, and the caret stands
below it, or as far behind the line as the column lies behind the line's end. -/
namespace TemplateLexer

namespace Excerpt

section Cells

variable {text before behind : List Char} {c : Char} {highlighted? : Option Nat}

end Cells

section Rows

variable {e : Excerpt} {line : String} {before behind : List Char} {c : Char}

end Rows

end Excerpt

end TemplateLexer
