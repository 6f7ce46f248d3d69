import TemplateLexer.Scan.Step
import TemplateLexer.Source.Basic

/-! Reading tokens one at a time. A lexer looks at most one scan ahead and keeps what it saw, also
where that is an error; only the iteration remembers that there was one. -/
namespace TemplateLexer

structure Lexer where
  cursor : Cursor
  /-- The result of the scan that was looked at and not yet read. -/
  buffered : Option ScanResult
  /-- Whether the iteration has ended at an error. -/
  halted : Bool

namespace Lexer

def ofCursor (cursor : Cursor) : Lexer := ⟨cursor, none, false⟩

def ofSource (source : Source) : Lexer := ofCursor source.cursor

/-- Whether every character has been taken. A token may still be buffered, and where this is false
blanks may be all that is left. -/
def atEnd (l : Lexer) : Bool := l.cursor.atEnd

/-- The result of the next scan, which stays the next one. -/
def peek (l : Lexer) : ScanResult × Lexer :=
  match l.buffered with
  | some result => (result, l)
  | none =>
    let (result, stop) := l.cursor.scan
    (result, { l with cursor := stop, buffered := some result })

def next (l : Lexer) : ScanResult × Lexer :=
  match l.buffered with
  | some result => (result, { l with buffered := none })
  | none =>
    let (result, stop) := l.cursor.scan
    (result, { l with cursor := stop })

/-- One round of the iteration: it ends with the text, or behind its first error. -/
def iterate (l : Lexer) : Option ScanResult × Lexer :=
  if l.halted ∨ l.buffered.isNone ∧ l.atEnd then (none, l)
  else
    let (result, l') := l.next
    (some result, { l' with halted := !result.isOk })

def pending (l : Lexer) : Nat :=
  if l.halted then 0 else l.cursor.rest.length + l.buffered.toList.length + 1

theorem pending_lt_of_iterate {l l' : Lexer} {result : ScanResult}
    (h : l.iterate = (some result, l')) : l'.pending < l.pending := by
  obtain ⟨cursor, buffered, halted⟩ := l
  unfold iterate at h
  split at h
  · cases h
  next going =>
  obtain rfl : halted = false := by simp_all
  cases buffered with
  | some result =>
    cases h
    cases result <;> simp [pending, Except.isOk, Except.toBool]
  | none =>
    cases scanned : cursor.scan with
    | mk result stop =>
      simp only [next, scanned] at h
      cases h
      cases result with
      | error e => simp [pending, Except.isOk, Except.toBool]
      | ok token =>
        simpa [pending, Except.isOk, Except.toBool] using Cursor.rest_length_lt_of_scan scanned

def drain (l : Lexer) : List ScanResult × Lexer :=
  match _ : l.iterate with
  | (none, l') => ([], l')
  | (some result, l') =>
    let (results, last) := l'.drain
    (result :: results, last)
termination_by l.pending
decreasing_by exact pending_lt_of_iterate ‹_›

theorem drain_of_none {l l' : Lexer} (ended : l.iterate = (none, l')) : l.drain = ([], l') := by
  rw [drain]
  split <;> simp_all

theorem drain_of_some {l l' : Lexer} {result : ScanResult} (h : l.iterate = (some result, l')) :
    l.drain = (result :: l'.drain.1, l'.drain.2) := by
  rw [drain]
  split <;> simp_all

end Lexer

inductive Call where
  | peek
  | next
  | iterate
  deriving DecidableEq, Repr

namespace Lexer

def perform (l : Lexer) : Call → Option ScanResult × Lexer
  | .peek => l.peek.map some id
  | .next => l.next.map some id
  | .iterate => l.iterate

end Lexer

end TemplateLexer
