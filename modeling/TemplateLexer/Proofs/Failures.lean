import TemplateLexer.Proofs.Reads

/-! When a read fails, why, and where the lexer then stands, in every state that reads alone lead
to. -/
namespace TemplateLexer

/-- The first position from the given one on that holds no blank; the end, if all are blank. -/
def Source.firstNonBlank (s : Source) (position : Nat) : Nat :=
  position + ((s.content.toList.drop position).takeWhile isBlank).length

namespace Cursor

/-- A scan fails exactly as the grammar says of the text behind the blanks. -/
theorem scan_eq_error_iff {c stop : Cursor} {e : ScanError} {blanks behind : List Char}
    (split : c.rest = blanks ++ behind) (blank : ∀ x ∈ blanks, isBlank x)
    (first : ∀ x ∈ behind.head?, ¬ isBlank x) :
    c.scan = (.error e, stop) ↔ ∃ n, FailsWith behind n e.fault ∧
      stop = c.advance (blanks.length + n) ∧ e.location = stop.location := by
  constructor
  · intro read
    have explained := scanLexeme_explained behind
    generalize scanned : scanLexeme behind = result at explained
    cases explained with
    | found reads => rw [scan_found split blank first scanned] at read; cases read
    | @failed n fault fails =>
      rw [scan_failed split blank first scanned] at read
      cases read
      exact ⟨n, fails, rfl, rfl⟩
  · rintro ⟨n, fails, rfl, location⟩
    rw [scan_failed split blank first (scanLexeme_eq_failed_iff.mpr fails), ← location]

end Cursor

namespace Lexer

/-- Whatever has been read before, the next read fails exactly as the grammar says of the text from
the first character that is no blank, and the error is located where the lexer then stands. -/
theorem next_eq_error_iff (s : Source) (reads : Nat) (e : ScanError) :
    let l := afterReads s reads
    let start := s.firstNonBlank l.cursor.position
    l.next.1 = .error e ↔ ∃ n, FailsWith (s.content.toList.drop start) n e.fault ∧
      l.next.2.cursor = s.cursor.advance (start + n) ∧ e.location = l.next.2.cursor.location := by
  intro l start
  obtain ⟨unbuffered, on⟩ := afterReads_invariant s reads
  obtain ⟨blanks, behind, split, blank, first⟩ := l.cursor.exists_blanks
  have length : start = l.cursor.position + blanks.length := by
    simp only [start, Source.firstNonBlank]
    rw [← on.rest_eq, split, takeWhile_append_stop blank first]
  have text : s.content.toList.drop start = behind := by
    rw [length, ← List.drop_drop, ← on.rest_eq, split, List.drop_left]
  have moved (n : Nat) : s.cursor.advance (start + n) = l.cursor.advance (blanks.length + n) := by
    rw [length, Nat.add_assoc, ← Cursor.advance_advance]
    exact congrArg (Cursor.advance · _) on.reached
  rw [next_of_unbuffered unbuffered, text]
  simp only [moved]
  have spec : l.cursor.scan = (.error e, l.cursor.scan.2) ↔ _ :=
    Cursor.scan_eq_error_iff split blank first
  rw [← spec]
  exact ⟨fun read => Prod.ext read rfl, fun read => congrArg Prod.fst read⟩

end Lexer

end TemplateLexer
