import TemplateLexer.Proofs.LexemeScan
import TemplateLexer.Scan.Step

/-! One scan at a cursor against the grammar: the blanks are passed over, a token stands where its
lexeme begins, and an error where the scan stops. -/
namespace TemplateLexer

theorem not_isBlank_of_isDigit {c : Char} (digit : c.isDigit) : ¬ isBlank c := by
  intro blank
  simp only [isBlank, Bool.or_eq_true, beq_iff_eq] at blank
  rcases blank with ((rfl | rfl) | rfl) | rfl <;> exact absurd digit (by decide)

theorem not_isBlank_of_startsWord {c : Char} (starts : startsWord c) : ¬ isBlank c := by
  intro blank
  simp only [isBlank, Bool.or_eq_true, beq_iff_eq] at blank
  rcases blank with ((rfl | rfl) | rfl) | rfl <;> exact absurd starts (by decide)

theorem Spells.exists_first {text : List Char} {lexeme : Lexeme} (spells : Spells text lexeme) :
    ∃ c tail, text = c :: tail ∧ ¬ isBlank c ∧ c ≠ '.' := by
  have number {whole : List Char} (rest : List Char) (nonempty : whole ≠ [])
      (digits : AllDigits whole) :
      ∃ c tail, whole ++ rest = c :: tail ∧ ¬ isBlank c ∧ c ≠ '.' := by
    obtain ⟨c, tail, rfl⟩ := List.exists_cons_of_ne_nil nonempty
    have digit : c.isDigit := digits c List.mem_cons_self
    refine ⟨c, tail ++ rest, rfl, not_isBlank_of_isDigit digit, ?_⟩
    rintro rfl
    exact absurd digit (by decide)
  have operator {text : List Char} (member : text ∈ operatorSpellings) :
      ∃ c tail, text = c :: tail ∧ ¬ isBlank c ∧ c ≠ '.' := by
    have table : ∀ text ∈ operatorSpellings, ∃ c ∈ text.head?, ¬ isBlank c ∧ c ≠ '.' := by
      simp [operatorSpellings_eq, isBlank]
    obtain ⟨c, head, fits⟩ := table text member
    obtain ⟨tail, rfl⟩ := List.head?_eq_some_iff.mp head
    exact ⟨c, tail, rfl, fits⟩
  cases spells with
  | openTemplate | closeTemplate | openParenthesis | closeParenthesis | null | undefined =>
    exact ⟨_, _, rfl, by decide, by decide⟩
  | whole nonempty digits => simpa using number [] nonempty digits
  | decimal nonempty digits places => exact number _ nonempty digits
  | @string quote body value valid inside =>
    have table : ∀ c ∈ ['"', '\''], ¬ isBlank c ∧ c ≠ '.' := by simp [isBlank]
    exact ⟨quote, _, rfl, table quote (mem_of_isQuote valid)⟩
  | @symbol c tail starts inside null undefined =>
    refine ⟨c, tail, rfl, not_isBlank_of_startsWord starts, ?_⟩
    rintro rfl
    exact absurd starts (by decide)
  | unaryOperator word => exact operator (mem_operatorSpellings.mpr (.inl ⟨word, rfl⟩))
  | binaryOperator word => exact operator (mem_operatorSpellings.mpr (.inr ⟨word, rfl⟩))

namespace Cursor

variable {c stop : Cursor} {blanks behind : List Char}

theorem location_advance_length {front : List Char} (split : c.rest = front ++ behind) :
    (c.advance front.length).location = c.location.afterAll front := by
  simp [advance, split]

theorem rest_advance_length {front : List Char} (split : c.rest = front ++ behind) :
    (c.advance front.length).rest = behind := by
  simp [split]

theorem skipBlanks_eq (split : c.rest = blanks ++ behind) (blank : ∀ x ∈ blanks, isBlank x)
    (stop : ∀ x ∈ behind.head?, ¬ isBlank x) : c.skipBlanks = c.advance blanks.length := by
  rw [skipBlanks, split, takeWhile_append_stop blank stop]

theorem exists_blanks (c : Cursor) : ∃ blanks behind, c.rest = blanks ++ behind ∧
    (∀ x ∈ blanks, isBlank x) ∧ ∀ x ∈ behind.head?, ¬ isBlank x :=
  exists_run isBlank c.rest

theorem skipBlanks_of_first (first : ∀ x ∈ c.rest.head?, ¬ isBlank x) : c.skipBlanks = c := by
  simpa using skipBlanks_eq (List.nil_append c.rest).symm (by simp) first

/-- A scan is the one that starts behind the blanks. -/
theorem scan_skipBlanks (c : Cursor) : c.skipBlanks.scan = c.scan := by
  obtain ⟨blanks, behind, split, blank, first⟩ := c.exists_blanks
  have skipped : c.skipBlanks.skipBlanks = c.skipBlanks := by
    apply skipBlanks_of_first
    rwa [skipBlanks_eq split blank first, rest_advance_length split]
  simp only [scan, skipped]

/-- What the scan of the lexeme comes to decides what the scan at the cursor does. -/
theorem scan_found {n : Nat} {lexeme : Lexeme} (split : c.rest = blanks ++ behind)
    (blank : ∀ x ∈ blanks, isBlank x) (stop : ∀ x ∈ behind.head?, ¬ isBlank x)
    (found : scanLexeme behind = .found lexeme n) :
    c.scan = (.ok ⟨c.location.afterAll blanks, lexeme⟩, c.advance (blanks.length + n)) := by
  simp only [scan, skipBlanks_eq split blank stop, rest_advance_length split, found, Scan.found,
    location_advance_length split, advance_advance]

theorem scan_failed {n : Nat} {fault : Fault} (split : c.rest = blanks ++ behind)
    (blank : ∀ x ∈ blanks, isBlank x) (stop : ∀ x ∈ behind.head?, ¬ isBlank x)
    (failed : scanLexeme behind = .failed fault n) :
    c.scan = (.error ⟨fault, (c.advance (blanks.length + n)).location⟩,
      c.advance (blanks.length + n)) := by
  simp only [scan, skipBlanks_eq split blank stop, rest_advance_length split, failed, Scan.failed,
    errorHere, advance_advance]

theorem scan_piece {p : Piece} {rest : List Char} (valid : p.WellFormed)
    (split : c.rest = p.written ++ rest) (ends : Ends p.text p.lexeme rest) :
    c.scan = (.ok ⟨c.location.afterAll p.blanks, p.lexeme⟩, c.advance p.written.length) := by
  obtain ⟨x, tail, text, plain, -⟩ := valid.spells.exists_first
  rw [Piece.written, List.append_assoc] at split
  have first : ∀ y ∈ (p.text ++ rest).head?, ¬ isBlank y := by simpa [text] using plain
  have reads : ReadsAs (p.text ++ rest) p.text.length p.lexeme :=
    ⟨p.text, rest, rfl, rfl, valid.spells, ends⟩
  rw [scan_found split valid.blanks first (scanLexeme_eq_found_iff.mpr reads), Piece.written,
    List.length_append]

theorem exists_piece_of_scan {token : Token} (read : c.scan = (.ok token, stop)) :
    ∃ (p : Piece) (rest : List Char), p.WellFormed ∧ c.rest = p.written ++ rest ∧
      Ends p.text p.lexeme rest ∧ token = ⟨c.location.afterAll p.blanks, p.lexeme⟩ ∧
        stop = c.advance p.written.length := by
  obtain ⟨blanks, behind, split, blank, first⟩ := exists_blanks c
  have explained := scanLexeme_explained behind
  generalize scanned : scanLexeme behind = result at explained
  cases explained with
  | failed fails => rw [scan_failed split blank first scanned] at read; cases read
  | @found n lexeme reads =>
    rw [scan_found split blank first scanned] at read
    obtain ⟨front, rest, rfl, rfl, spells, ends⟩ := reads
    cases read
    refine ⟨⟨blanks, front, lexeme⟩, rest, ⟨blank, spells⟩, ?_, ends, rfl, ?_⟩
    · rw [split, Piece.written, List.append_assoc]
    · rw [Piece.written, List.length_append]

end Cursor

end TemplateLexer
