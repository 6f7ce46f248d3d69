import TemplateLexer.Proofs.Reads
import TemplateLexer.Tokenization

/-! A text that goes on. Whatever is written behind a text, a scan in it comes to the same as
before, unless it came to the end: so tokens that were read stay as they are, and so does an
error. -/
namespace TemplateLexer

def Source.append (s : Source) (more : String) : Source := { s with content := s.content ++ more }

section Lexeme

variable {text front rest : List Char} {n : Nat} {lexeme : Lexeme} {fault : Fault}

theorem Ends.append (ends : Ends front lexeme rest) (more : List Char) :
    Ends front lexeme (rest ++ more) := by
  rcases ends with itself | ⟨c, head, stop⟩
  · exact .inl itself
  · obtain ⟨behind, rfl⟩ := List.head?_eq_some_iff.mp head
    exact .inr ⟨c, rfl, stop⟩

theorem ReadsAs.append (reads : ReadsAs text n lexeme) (more : List Char) :
    ReadsAs (text ++ more) n lexeme := by
  obtain ⟨front, rest, rfl, length, spells, ends⟩ := reads
  exact ⟨front, rest ++ more, List.append_assoc .., length, spells, ends.append more⟩

theorem FailsWith.append (fails : FailsWith text n fault) (early : fault ≠ .unexpectedEnd)
    (more : List Char) : FailsWith (text ++ more) n fault := by
  cases fault with
  | unexpectedEnd => exact absurd rfl early
  | unmatched => exact fails
  | unexpectedDot =>
    obtain ⟨whole, fraction, rest, nonempty, digits, places, rfl, length⟩ := fails
    exact ⟨whole, fraction, rest ++ more, nonempty, digits, places, by simp, length⟩
  | unknownOperator name =>
    obtain ⟨c, d, rest, half, other, rfl, rest'⟩ := fails
    exact ⟨c, d, rest ++ more, half, other, rfl, rest'⟩
  | unknownToken =>
    obtain ⟨none, c, rest, rfl, unknown⟩ := fails
    exact ⟨none, c, rest ++ more, rfl, unknown⟩
  | invalidEscape letter =>
    obtain ⟨quote, body, value, rest, valid, inside, unknown, rfl, length⟩ := fails
    exact ⟨quote, body, value, rest ++ more, valid, inside, unknown, by simp, length⟩

theorem FailsWith.length_le (fails : FailsWith text n fault) : n ≤ text.length := by
  cases fault with
  | unexpectedEnd => exact fails.2.le
  | unmatched => exact fails.elim
  | unexpectedDot =>
    obtain ⟨whole, fraction, rest, -, -, -, rfl, rfl⟩ := fails
    simp only [List.length_append, List.length_cons]; omega
  | unknownOperator name =>
    obtain ⟨c, d, rest, -, -, rfl, -, rfl⟩ := fails
    simp only [List.length_cons]; omega
  | unknownToken => exact fails.1.trans_le (Nat.zero_le _)
  | invalidEscape letter =>
    obtain ⟨quote, body, value, rest, -, -, -, rfl, rfl⟩ := fails
    simp only [List.length_append, List.length_cons]; omega

theorem length_scanLexeme_le (text : List Char) : (scanLexeme text).length ≤ text.length := by
  have explained := scanLexeme_explained text
  generalize scanLexeme text = result at explained ⊢
  cases explained with
  | found reads =>
    obtain ⟨front, rest, rfl, rfl, -⟩ := reads
    simp [Scan.found]
  | failed fails => exact fails.length_le

theorem scanLexeme_append (text more : List Char)
    (early : (scanLexeme text).outcome ≠ .error .unexpectedEnd) :
    scanLexeme (text ++ more) = scanLexeme text := by
  have explained := scanLexeme_explained text
  generalize scanLexeme text = result at explained early ⊢
  cases explained with
  | found reads => exact scanLexeme_of_readsAs (reads.append more)
  | @failed n fault fails =>
    have other : fault ≠ .unexpectedEnd := by
      rintro rfl
      exact early rfl
    exact scanLexeme_of_failsWith (fails.append other more)

end Lexeme

/-- The result does not tell that the text has ended. -/
def Settled : ScanResult → Prop
  | .ok _ => True
  | .error e => e.fault ≠ .unexpectedEnd

namespace Cursor

def append (c : Cursor) (more : List Char) : Cursor := { c with rest := c.rest ++ more }

variable {c next stop : Cursor} {more : List Char} {token : Token} {tokens : List Token}

theorem advance_append {n : Nat} (inside : n ≤ c.rest.length) :
    (c.append more).advance n = (c.advance n).append more := by
  simp [advance, append, List.take_append_of_le_length inside,
    List.drop_append_of_le_length inside]

theorem skipBlanks_append (nonempty : c.skipBlanks.rest ≠ []) :
    (c.append more).skipBlanks = c.skipBlanks.append more := by
  obtain ⟨blanks, behind, split, blank, first⟩ := c.exists_blanks
  have skipped := skipBlanks_eq split blank first
  rw [skipped, rest_advance_length split] at nonempty
  obtain ⟨x, tail, rfl⟩ := List.exists_cons_of_ne_nil nonempty
  have longer : (c.append more).rest = blanks ++ (x :: tail ++ more) := by
    rw [append, split, List.append_assoc]
  have inside : blanks.length ≤ c.rest.length := by simp [split]
  rw [skipBlanks_eq longer blank (by simpa using first), skipped, advance_append inside]

theorem scan_append (settled : Settled c.scan.1) :
    (c.append more).scan = (c.scan.1, c.scan.2.append more) := by
  have early : (scanLexeme c.skipBlanks.rest).outcome ≠ .error .unexpectedEnd := by
    intro ended
    simp [scan, ended, Settled, errorHere] at settled
  have nonempty : c.skipBlanks.rest ≠ [] := by
    intro empty
    rw [empty] at early
    exact early rfl
  have same := scanLexeme_append c.skipBlanks.rest more early
  have longer : (c.skipBlanks.append more).rest = c.skipBlanks.rest ++ more := rfl
  have moved : (c.skipBlanks.append more).advance (scanLexeme c.skipBlanks.rest).length =
      (c.skipBlanks.advance (scanLexeme c.skipBlanks.rest).length).append more :=
    advance_append (length_scanLexeme_le _)
  unfold scan
  simp only [skipBlanks_append nonempty, longer, same, moved]
  split <;> rfl

/-- One scan after the other finds a token, up to the place where the second cursor stands. -/
inductive Yields : Cursor → List Token → Cursor → Prop where
  | nil (c : Cursor) : Yields c [] c
  | cons {c next stop : Cursor} {token : Token} {tokens : List Token} :
      c.scan = (.ok token, next) → Yields next tokens stop → Yields c (token :: tokens) stop

theorem Yields.append (yields : Yields c tokens stop) (more : List Char) :
    Yields (c.append more) tokens (stop.append more) := by
  induction yields with
  | nil c => exact .nil _
  | @cons c next stop token tokens read _ ih =>
    have settled : Settled c.scan.1 := by rw [read]; trivial
    refine .cons ?_ ih
    rw [scan_append settled, read]

theorem rest_ne_nil_of_scan (read : c.scan = (.ok token, next)) : c.rest ≠ [] := by
  intro empty
  have := rest_length_lt_of_scan read
  simp [empty] at this

theorem tokenize_of_yields (yields : Yields c tokens stop) :
    c.tokenize = ⟨tokens ++ stop.tokenize.tokens, stop.tokenize.error?⟩ := by
  induction yields with
  | nil c => rfl
  | cons read _ ih => rw [tokenize_of_token (rest_ne_nil_of_scan read) read, ih, List.cons_append]

theorem exists_yields (c : Cursor) :
    ∃ stop, Yields c c.tokenize.tokens stop ∧ stop.tokenize = ⟨[], c.tokenize.error?⟩ := by
  induction c using scan_induction with
  | ended c done =>
    rw [tokenize_of_atEnd done]
    exact ⟨c, .nil c, tokenize_of_atEnd done⟩
  | failed c e stop more scanned =>
    rw [tokenize_of_error more scanned]
    exact ⟨c, .nil c, tokenize_of_error more scanned⟩
  | token c token next more scanned ih =>
    rw [tokenize_of_token more scanned]
    obtain ⟨stop, yields, halted⟩ := ih
    exact ⟨stop, .cons scanned yields, halted⟩

theorem tokenize_eq_nil_iff : c.tokenize = ⟨[], none⟩ ↔ c.rest = [] := by
  refine ⟨fun halted => ?_, tokenize_of_atEnd⟩
  by_contra more
  rcases scanned : c.scan with ⟨result, next⟩
  cases result with
  | error e => rw [tokenize_of_error more scanned] at halted; cases halted
  | ok token => rw [tokenize_of_token more scanned] at halted; cases halted

theorem tokenize_eq_failed_iff {e : ScanError} :
    c.tokenize = ⟨[], some e⟩ ↔ c.rest ≠ [] ∧ c.scan.1 = .error e := by
  rcases scanned : c.scan with ⟨result, next⟩
  by_cases done : c.rest = []
  · simp [tokenize_of_atEnd done, done]
  cases result with
  | error e => simp [tokenize_of_error done scanned, done]
  | ok token => simp [tokenize_of_token done scanned]

/-- An error that does not tell that the text has ended is there in every longer text. -/
theorem tokenize_append_of_failed {e : ScanError} (failed : c.tokenize = ⟨[], some e⟩)
    (early : e.fault ≠ .unexpectedEnd) (more : List Char) :
    (c.append more).tokenize = ⟨[], some e⟩ := by
  obtain ⟨nonempty, read⟩ := tokenize_eq_failed_iff.mp failed
  have settled : Settled c.scan.1 := by rw [read]; exact early
  refine tokenize_eq_failed_iff.mpr ⟨by simp [append, nonempty], ?_⟩
  rw [scan_append settled, read]

end Cursor

namespace Source

theorem exists_yields (s : Source) : ∃ stop, s.cursor.Yields s.tokenize.tokens stop ∧
    stop.tokenize = ⟨[], s.tokenize.error?⟩ :=
  s.cursor.exists_yields

theorem cursor_append (s : Source) (more : String) :
    (s.append more).cursor = s.cursor.append more.toList := by
  simp [append, cursor, Cursor.ofString, Cursor.ofList, Cursor.append]

theorem tokenize_append {s : Source} {stop : Cursor}
    (yields : s.cursor.Yields s.tokenize.tokens stop) (more : String) :
    (s.append more).tokenize = ⟨s.tokenize.tokens ++ (stop.append more.toList).tokenize.tokens,
      (stop.append more.toList).tokenize.error?⟩ := by
  rw [tokenize, cursor_append]
  exact Cursor.tokenize_of_yields (yields.append more.toList)

end Source

/-- The tokens of a text begin those of every longer text; and where a text is given up for a reason
other than its end, every longer text is given up at the same place, behind the same tokens. -/
theorem tokenize_append_stable (s : Source) (more : String) :
    s.tokenize.tokens <+: (s.append more).tokenize.tokens ∧
      ∀ e, s.tokenize.error? = some e → e.fault ≠ .unexpectedEnd →
        (s.append more).tokenize = s.tokenize := by
  obtain ⟨stop, yields, halted⟩ : ∃ stop, s.cursor.Yields s.tokenize.tokens stop ∧
      stop.tokenize = ⟨[], s.tokenize.error?⟩ := s.cursor.exists_yields
  rw [Source.tokenize_append yields]
  constructor
  · exact List.prefix_append ..
  · intro e failed early
    rw [failed] at halted
    rw [Cursor.tokenize_append_of_failed halted early, List.append_nil, ← failed]

theorem tokenize_append_stable_unknown :
    let s := Source.anonymous "( a # b"
    let e : ScanError := ⟨.unknownToken, ⟨1, 5⟩⟩
    s.tokenize.error? = some e ∧ e.fault ≠ .unexpectedEnd ∧
      (s.append " \"c\" )").tokenize = s.tokenize := by
  intro s e
  have failed : s.tokenize.error? = some e := by decide +kernel
  have early : e.fault ≠ .unexpectedEnd := by decide
  exact ⟨failed, early, (tokenize_append_stable s " \"c\" )").2 e failed early⟩

end TemplateLexer
