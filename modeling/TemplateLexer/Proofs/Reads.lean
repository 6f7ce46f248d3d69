import TemplateLexer.Lexer
import TemplateLexer.Proofs.Reading

/-! A fresh lexer from which tokens are only read, past errors too: nothing is ever buffered, and its
cursor stands in the source, at the place that belongs to the characters behind it. -/
namespace TemplateLexer

namespace Cursor

/-- The cursor has come to its place from the start of the text. -/
structure On (text : List Char) (c : Cursor) : Prop where
  position_le : c.position ≤ text.length
  reached : (ofList text).advance c.position = c

variable {text : List Char} {c : Cursor}

theorem on_ofList (text : List Char) : On text (ofList text) :=
  ⟨Nat.zero_le _, advance_zero _⟩

theorem advance_min (c : Cursor) (n : Nat) : c.advance (min n c.rest.length) = c.advance n := by
  rcases Nat.le_total n c.rest.length with short | long
  · rw [Nat.min_eq_left short]
  · rw [Nat.min_eq_right long]
    simp [advance, List.take_of_length_le long, List.drop_of_length_le long]

theorem On.rest_eq (on : On text c) : c.rest = text.drop c.position := by
  rw [← on.reached]
  simp [advance, ofList, Nat.min_eq_left on.position_le]

theorem On.length_rest (on : On text c) : c.rest.length = text.length - c.position := by
  rw [on.rest_eq, List.length_drop]

theorem position_advance_min (c : Cursor) (n : Nat) :
    (c.advance n).position = c.position + min n c.rest.length := by
  simp [advance]

theorem On.advance (on : On text c) (n : Nat) : On text (c.advance n) := by
  have left := on.length_rest
  have bound := on.position_le
  constructor
  · rw [position_advance_min]; omega
  · rw [position_advance_min, ← advance_advance, on.reached, advance_min]

theorem exists_advance_of_scan (c : Cursor) : ∃ n, c.scan.2 = c.advance n := by
  unfold scan skipBlanks
  dsimp only
  split <;> exact ⟨_, advance_advance ..⟩

theorem On.scan (on : On text c) : On text c.scan.2 := by
  obtain ⟨n, moved⟩ := c.exists_advance_of_scan
  rw [moved]
  exact on.advance n

end Cursor

namespace Lexer

def afterReads (s : Source) : Nat → Lexer
  | 0 => ofSource s
  | n + 1 => (afterReads s n).next.2

structure ReadInvariant (s : Source) (l : Lexer) : Prop where
  unbuffered : l.buffered = none
  on : l.cursor.On s.content.toList

theorem next_of_unbuffered {l : Lexer} (unbuffered : l.buffered = none) :
    l.next = (l.cursor.scan.1, { l with cursor := l.cursor.scan.2 }) := by
  simp [next, unbuffered]

theorem next_invariant {s : Source} {l : Lexer} (valid : ReadInvariant s l) :
    ReadInvariant s l.next.2 := by
  rw [next_of_unbuffered valid.unbuffered]
  exact ⟨valid.unbuffered, valid.on.scan⟩

theorem afterReads_invariant (s : Source) (n : Nat) : ReadInvariant s (afterReads s n) := by
  induction n with
  | zero => exact ⟨rfl, Cursor.on_ofList _⟩
  | succ n ih => exact next_invariant ih

end Lexer

end TemplateLexer
