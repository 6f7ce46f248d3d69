import Mathlib.Data.List.Flatten
import TemplateLexer.Proofs.Reading
import TemplateLexer.Report.Sink

/-! Which texts are tokenized without an error, and into which tokens: exactly those that are written
by a row of pieces whose borders show. -/
namespace TemplateLexer

section Border

variable {text rest : List Char} {lexeme : Lexeme} {c : Char}

theorem not_fuses_of_endsItself (itself : lexeme.endsItself) : ¬ Fuses text lexeme c := by
  cases lexeme <;> simp_all [Fuses, Lexeme.kind, Lexeme.endsItself]

theorem not_fuses_of_isBlank (blank : isBlank c) : ¬ Fuses text lexeme c := by
  have table : ∀ spelling ∈ operatorSpellings, ∀ c ∈ spelling, ¬ isBlank c := by
    simp [operatorSpellings_eq, isBlank]
  have operator : ¬ ∃ spelling ∈ operatorSpellings, text ++ [c] <+: spelling := by
    rintro ⟨spelling, member, begins⟩
    exact table spelling member c (begins.subset (by simp)) blank
  have digit : ¬ c.isDigit := fun digit => not_isBlank_of_isDigit digit blank
  have word : ¬ continuesWord c := by
    intro continues
    rcases Bool.or_eq_true_iff.mp continues with starts | digit
    · exact not_isBlank_of_startsWord starts blank
    · exact not_isBlank_of_isDigit digit blank
  cases lexeme <;> simp_all [Fuses, Lexeme.kind]

end Border

namespace Piece

theorem ends_iff {p : Piece} {pieces : List Piece} (valid : ∀ q ∈ pieces, q.WellFormed) :
    Ends p.text p.lexeme (pieces.flatMap written) ↔
      (∀ q ∈ pieces.head?, Separate p q) ∧ (pieces = [] → p.lexeme.endsItself) := by
  cases pieces with
  | nil => simp [Ends]
  | cons q pieces =>
    obtain ⟨x, tail, text, plain, point⟩ := (valid q List.mem_cons_self).spells.exists_first
    rw [List.flatMap_cons]
    simp only [List.head?_cons, Option.mem_def, Option.some.injEq, forall_eq', reduceCtorEq,
      false_implies, and_true]
    cases blanks : q.blanks with
    | nil =>
      have first : q.written ++ pieces.flatMap written = x :: (tail ++ pieces.flatMap written) := by
        rw [written, blanks, text, List.nil_append, List.cons_append]
      rw [first]
      simp only [Ends, Separate, blanks, text, List.head?_cons, Option.mem_def, Option.some.injEq,
        exists_eq_left', forall_eq', forall_const]
      constructor
      · rintro (itself | ⟨apart, -⟩)
        · exact not_fuses_of_endsItself itself
        · exact apart
      · exact fun apart => .inr ⟨apart, fun _ => point⟩
    | cons b blanks' =>
      have blank : isBlank b := (valid q List.mem_cons_self).blanks b (by simp [blanks])
      have point : b ≠ '.' := by
        rintro rfl
        exact absurd blank (by decide)
      have first : q.written ++ pieces.flatMap written =
          b :: (blanks' ++ q.text ++ pieces.flatMap written) := by
        rw [written, blanks, List.cons_append, List.cons_append]
      rw [first]
      simp [Ends, Separate, blanks, not_fuses_of_isBlank blank, point]

end Piece

theorem sentence_cons {p : Piece} {pieces : List Piece} :
    Sentence (p :: pieces) ↔
      p.WellFormed ∧ Sentence pieces ∧ Ends p.text p.lexeme (pieces.flatMap Piece.written) := by
  constructor
  · rintro ⟨valid, separate, ended⟩
    obtain ⟨first, valid⟩ := List.forall_mem_cons.mp valid
    obtain ⟨next, separate⟩ := List.isChain_cons.mp separate
    refine ⟨first, ⟨valid, separate, ?_⟩, (Piece.ends_iff valid).mpr ⟨next, ?_⟩⟩
    · intro q last
      apply ended q
      cases pieces with
      | nil => cases last
      | cons _ _ => simpa using last
    · rintro rfl
      exact ended p rfl
  · rintro ⟨first, ⟨valid, separate, ended⟩, ends⟩
    obtain ⟨next, alone⟩ := (Piece.ends_iff valid).mp ends
    refine ⟨List.forall_mem_cons.mpr ⟨first, valid⟩, List.isChain_cons.mpr ⟨next, separate⟩, ?_⟩
    intro q last
    cases pieces with
    | nil =>
      obtain rfl : p = q := by simpa using last
      exact alone rfl
    | cons _ _ => exact ended q (by simpa using last)

theorem sentence_nil : Sentence [] := ⟨by simp, .nil, by simp⟩

namespace Cursor

theorem tokenize_of_sentence {pieces : List Piece} (sentence : Sentence pieces) {c : Cursor}
    (split : c.rest = pieces.flatMap Piece.written) :
    c.tokenize = ⟨Piece.tokens c.location pieces, none⟩ := by
  induction pieces generalizing c with
  | nil => exact tokenize_of_atEnd split
  | cons p pieces ih =>
    obtain ⟨valid, sentence, ends⟩ := sentence_cons.mp sentence
    obtain ⟨x, tail, text, -⟩ := valid.spells.exists_first
    have more : c.rest ≠ [] := by simp [split, Piece.written, text]
    rw [List.flatMap_cons] at split
    have later := ih sentence (rest_advance_length split)
    rw [tokenize_of_token more (scan_piece valid split ends), later, location_advance_length split]
    rfl

theorem exists_sentence {c : Cursor} {tokens : List Token} (read : c.tokenize = ⟨tokens, none⟩) :
    ∃ pieces, Sentence pieces ∧ c.rest = pieces.flatMap Piece.written ∧
      tokens = Piece.tokens c.location pieces := by
  induction c using scan_induction generalizing tokens with
  | ended c done =>
    rw [tokenize_of_atEnd done] at read
    cases read
    exact ⟨[], sentence_nil, done, rfl⟩
  | failed c e stop more scanned => rw [tokenize_of_error more scanned] at read; cases read
  | token c token stop more scanned ih =>
    rw [tokenize_of_token more scanned] at read
    obtain ⟨rfl, clean⟩ := Tokenization.mk.inj read
    obtain ⟨pieces, sentence, behind, tokens⟩ :=
      ih (show stop.tokenize = ⟨stop.tokenize.tokens, none⟩ by rw [← clean])
    obtain ⟨p, rest, valid, split, ends, rfl, rfl⟩ := exists_piece_of_scan scanned
    rw [rest_advance_length split] at behind
    subst behind
    rw [location_advance_length split] at tokens
    exact ⟨p :: pieces, sentence_cons.mpr ⟨valid, sentence, ends⟩, split, by rw [tokens]; rfl⟩

end Cursor

theorem tokenizeInto_storage_iff {s : Source} {received : List ScanError} {tokens : List Token} :
    s.tokenizeInto (.storage received) = (tokens, .storage received) ↔
      s.tokenize = ⟨tokens, none⟩ := by
  rcases read : s.tokenize with ⟨found, error?⟩
  cases error? <;> simp [Source.tokenizeInto, read, Sink.receive]

/-- A text is tokenized, and nothing is reported, exactly where it is a sentence of the grammar; the
tokens are the sentence's lexemes, each at the place of its first character. -/
theorem tokenizeInto_clean_iff_sentence (s : Source) (received : List ScanError)
    (tokens : List Token) :
    s.tokenizeInto (.storage received) = (tokens, .storage received) ↔
      ∃ pieces, Sentence pieces ∧ s.content.toList = pieces.flatMap Piece.written ∧
        tokens = Piece.tokens .start pieces := by
  rw [tokenizeInto_storage_iff]
  constructor
  · exact fun read => Cursor.exists_sentence read
  · rintro ⟨pieces, sentence, split, rfl⟩
    exact Cursor.tokenize_of_sentence sentence split

end TemplateLexer
