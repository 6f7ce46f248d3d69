/-! Expectations about values, built up from expectations about their parts. -/
namespace TemplateLexer

/-- How a value fails an expectation. -/
inductive Mismatch where
  | value (reason : String)
  /-- There should have been a value. -/
  | missing
  /-- There should have been none. -/
  | unexpected
  | lengths (expected found : Nat)
  | element (index : Nat) (cause : Mismatch)
  deriving DecidableEq, Repr

namespace Mismatch

def caption : String := "Case failed: "

def reason : Mismatch → String
  | value reason => reason
  | missing => "expected Some, found None"
  | unexpected => "expected None, found Some"
  | lengths expected found =>
    s!"assertion failed: `(left == right)` \n  left: `{expected}`, \n right: `{found}`" ++
      ": number of elements differs"
  | element index cause => s!"at element {index}: " ++ caption ++ cause.reason

def message (m : Mismatch) : String := caption ++ m.reason

end Mismatch

class Expectation (α : Type) (β : outParam Type) where
  check : α → β → Except Mismatch Unit

namespace Expectation

variable {α β : Type} [Expectation α β]

def checkOption : Option α → Option β → Except Mismatch Unit
  | some expected, some found => check expected found
  | none, none => .ok ()
  | some _, none => .error .missing
  | none, some _ => .error .unexpected

/-- Checks pairs of elements, the first of them at the given index, up to the first mismatch. -/
def checkPairs (index : Nat) : List (α × β) → Except Mismatch Unit
  | [] => .ok ()
  | (expected, found) :: pairs =>
    match check expected found with
    | .ok () => checkPairs (index + 1) pairs
    | .error cause => .error (.element index cause)

def checkList (expected : List α) (found : List β) : Except Mismatch Unit :=
  if expected.length = found.length then checkPairs 0 (expected.zip found)
  else .error (.lengths expected.length found.length)

instance : Expectation (Option α) (Option β) := ⟨checkOption⟩

instance : Expectation (List α) (List β) := ⟨checkList⟩

end Expectation

end TemplateLexer
