/-! The fixed words of the language: keywords and operators. -/
namespace TemplateLexer

inductive SpellingError where
  | keyword
  | operator
  deriving DecidableEq, Repr

def SpellingError.message : SpellingError → String
  | keyword => "invalid string representation of keyword."
  | operator => "invalid string representation of operator."

/-- All words of a type, listed in order. No two of them are spelled alike. -/
class Vocabulary (α : Type) where
  all : List α
  spelling : α → String
  error : SpellingError
  mem_all (word : α) : word ∈ all
  distinct : all.Pairwise fun word other => spelling word ≠ spelling other

namespace Vocabulary

variable {α : Type} [Vocabulary α]

def ofSpelling? (text : String) : Option α := all.find? fun word => spelling word == text

def ofSpelling (text : String) : Except SpellingError α :=
  match ofSpelling? text with
  | some word => .ok word
  | none => .error (error α)

theorem ofSpelling?_eq_none_iff {text : String} :
    ofSpelling? text = (none : Option α) ↔ ∀ word ∈ (all : List α), spelling word ≠ text := by
  simp [ofSpelling?]

theorem ofSpelling?_spelling (word : α) : ofSpelling? (spelling word) = some word := by
  obtain ⟨before, after, split⟩ := List.append_of_mem (mem_all word)
  have distinct : (all : List α).Pairwise _ := distinct
  rw [split, List.pairwise_append] at distinct
  obtain ⟨-, -, apart⟩ := distinct
  have first : ∀ other ∈ before, spelling other ≠ spelling word :=
    fun other member => apart other member word List.mem_cons_self
  simp only [ofSpelling?, split, List.find?_eq_some_iff_append]
  exact ⟨beq_self_eq_true _, before, after, rfl, by simpa using first⟩

end Vocabulary

/-- No text is scanned as a period, which can start no token. -/
inductive Keyword where
  | period
  | null
  | undefined
  deriving DecidableEq, Ord, Repr

namespace Keyword

def spelling : Keyword → String
  | period => "."
  | null => "null"
  | undefined => "undefined"

instance : Vocabulary Keyword where
  all := [period, null, undefined]
  spelling := spelling
  error := .keyword
  mem_all word := by cases word <;> decide
  distinct := by decide

end Keyword

inductive UnaryOperator where
  | not
  deriving DecidableEq, Ord, Repr

namespace UnaryOperator

def spelling : UnaryOperator → String
  | not => "!"

instance : Vocabulary UnaryOperator where
  all := [not]
  spelling := spelling
  error := .operator
  mem_all word := by cases word; decide
  distinct := List.pairwise_singleton ..

end UnaryOperator

/-- Written between its operands. None of them works on bits. -/
inductive BinaryOperator where
  | less
  | lessOrEquals
  | softEquals
  | hardEquals
  | greaterOrEquals
  | greater
  | softNotEquals
  | hardNotEquals
  | and
  | or
  | xor
  | nullCoalescing
  | add
  | subtract
  | multiply
  | exponent
  | divide
  | modulo
  deriving DecidableEq, Ord, Repr

namespace BinaryOperator

def spelling : BinaryOperator → String
  | less => "<"
  | lessOrEquals => "<="
  | softEquals => "=="
  | hardEquals => "==="
  | greaterOrEquals => ">="
  | greater => ">"
  | softNotEquals => "!="
  | hardNotEquals => "!=="
  | and => "&&"
  | or => "||"
  | xor => "^"
  | nullCoalescing => "??"
  | add => "+"
  | subtract => "-"
  | multiply => "*"
  | exponent => "**"
  | divide => "/"
  | modulo => "%"

instance : Vocabulary BinaryOperator where
  all := [less, lessOrEquals, softEquals, hardEquals, greaterOrEquals, greater, softNotEquals,
    hardNotEquals, and, or, xor, nullCoalescing, add, subtract, multiply, exponent, divide, modulo]
  spelling := spelling
  error := .operator
  mem_all word := by cases word <;> decide
  distinct := by decide

end BinaryOperator

end TemplateLexer
