import TemplateLexer.Source.Location

/-! Reading a text one character at a time. A cursor holds the text still to come, the number of
characters already read, and where the next one stands. -/
namespace TemplateLexer

structure Cursor where
  rest : List Char
  position : Nat
  location : Location
  deriving DecidableEq, Repr

namespace Cursor

def ofList (text : List Char) : Cursor := ⟨text, 0, .start⟩

def ofString (text : String) : Cursor := ofList text.toList

def peek? (c : Cursor) : Option Char := c.rest.head?

def atEnd (c : Cursor) : Bool := c.rest.isEmpty

def remaining (c : Cursor) : Nat := c.rest.length

def sizeHint (c : Cursor) : Nat × Option Nat := (c.remaining, some c.remaining)

/-- Moves over one character. At the end of the text nothing changes. -/
def step (c : Cursor) : Cursor :=
  match c.rest with
  | [] => c
  | x :: rest => ⟨rest, c.position + 1, c.location.after x⟩

/-- Moves over `n` characters, or over all that remain if they are fewer. -/
def advance (c : Cursor) (n : Nat) : Cursor :=
  let taken := c.rest.take n
  ⟨c.rest.drop n, c.position + taken.length, c.location.afterAll taken⟩

def next (c : Cursor) : Option Char × Cursor := (c.peek?, c.step)

/-- Passes over `n` characters and reads the one behind them. -/
def nth (c : Cursor) (n : Nat) : Option Char × Cursor := (c.advance n).next

def readAll (c : Cursor) : List Char × Cursor := (c.rest, c.advance c.remaining)

@[simp] theorem rest_ofList (text : List Char) : (ofList text).rest = text := rfl

@[simp] theorem rest_advance (c : Cursor) (n : Nat) : (c.advance n).rest = c.rest.drop n := rfl

@[simp] theorem advance_zero (c : Cursor) : c.advance 0 = c := by simp [advance]

theorem advance_one (c : Cursor) : c.advance 1 = c.step := by
  obtain ⟨rest, position, location⟩ := c
  cases rest <;> simp [advance, step]

theorem advance_advance (c : Cursor) (m n : Nat) : (c.advance m).advance n = c.advance (m + n) := by
  simp only [advance, List.drop_drop, mk.injEq, true_and]
  constructor
  · simp only [List.length_take, List.length_drop]; omega
  · rw [← Location.afterAll_append, List.take_add]

end Cursor

end TemplateLexer
