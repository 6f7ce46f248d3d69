import TemplateLexer.Proofs.Narrowing
import TemplateLexer.Proofs.QuotedText

/-! The scan of one lexeme against the grammar: it finds a lexeme exactly where one can be read, and
it fails exactly as the grammar says. -/
namespace TemplateLexer

section FirstCharacter

variable {c : Char}

theorem mem_of_bracket? {lexeme : Lexeme} (bracket : bracket? c = some lexeme) :
    c ∈ ['{', '}', '(', ')'] := by
  unfold bracket? at bracket
  split at bracket <;> simp_all

theorem bracket?_eq_none_iff : bracket? c = none ↔ c ∉ ['{', '}', '(', ')'] := by
  constructor
  · intro none member
    have table : ∀ c ∈ ['{', '}', '(', ')'], bracket? c ≠ .none := by simp [bracket?]
    exact table c member none
  · intro other
    cases bracket : bracket? c with
    | none => rfl
    | some lexeme => exact absurd (mem_of_bracket? bracket) other

theorem mem_of_isQuote (quote : isQuote c) : c ∈ ['"', '\''] := by
  simpa [isQuote] using quote

theorem mem_of_startsOperator (starts : startsOperator c) :
    c ∈ ['!', '<', '=', '>', '&', '|', '^', '?', '+', '-', '*', '/', '%'] := by
  obtain ⟨spelling, member, head⟩ := startsOperator_iff.mp starts
  have table : ∀ spelling ∈ operatorSpellings, ∀ c ∈ spelling.head?,
      c ∈ ['!', '<', '=', '>', '&', '|', '^', '?', '+', '-', '*', '/', '%'] := by
    simp [operatorSpellings_eq]
  exact table spelling member c head

def marks : List Char :=
  ['{', '}', '(', ')', '"', '\'', '!', '<', '=', '>', '&', '|', '^', '?', '+', '-', '*', '/', '%']

theorem bracket?_eq_none (other : c ∉ marks) : bracket? c = none := by
  rw [bracket?_eq_none_iff]
  simp_all [marks]

theorem isQuote_eq_false (other : c ∉ marks) : isQuote c = false := by
  by_contra quote
  have := mem_of_isQuote (by simpa using quote)
  exact other (by simp_all [marks])

theorem startsOperator_eq_false (other : c ∉ marks) : startsOperator c = false := by
  by_contra starts
  have := mem_of_startsOperator (by simpa using starts)
  exact other (by simp_all [marks])

theorem not_mem_marks_of_isDigit (digit : c.isDigit) : c ∉ marks := by
  intro mark
  have table : ∀ c ∈ marks, c.isDigit = false := by simp [marks]
  simp [table c mark] at digit

theorem not_mem_marks_of_startsWord (starts : startsWord c) : c ∉ marks := by
  intro mark
  have table : ∀ c ∈ marks, startsWord c = false := by simp [marks, startsWord]
  simp [table c mark] at starts

theorem bracket?_of_isQuote (quote : isQuote c) : bracket? c = none := by
  have table : ∀ c ∈ ['"', '\''], bracket? c = none := by simp [bracket?]
  exact table c (mem_of_isQuote quote)

theorem first_of_startsOperator (starts : startsOperator c) :
    bracket? c = none ∧ isQuote c = false ∧ c.isDigit = false := by
  have table : ∀ c ∈ ['!', '<', '=', '>', '&', '|', '^', '?', '+', '-', '*', '/', '%'],
      bracket? c = none ∧ isQuote c = false ∧ c.isDigit = false := by simp [bracket?, isQuote]
  exact table c (mem_of_startsOperator starts)

end FirstCharacter

section Dispatch

variable {c : Char} {rest : List Char}

theorem scanLexeme_bracket {lexeme : Lexeme} (bracket : bracket? c = some lexeme) :
    scanLexeme (c :: rest) = .found lexeme 1 := by
  simp [scanLexeme, bracket]

theorem scanLexeme_quote (quote : isQuote c) :
    scanLexeme (c :: rest) =
      (scanQuoted c rest).mapAfter 1 fun value => .string (String.ofList value) := by
  simp [scanLexeme, bracket?_of_isQuote quote, quote]

theorem scanLexeme_digit (digit : c.isDigit) : scanLexeme (c :: rest) = scanNumber (c :: rest) := by
  have other := not_mem_marks_of_isDigit digit
  simp [scanLexeme, bracket?_eq_none other, isQuote_eq_false other, digit]

theorem scanLexeme_operator (starts : startsOperator c) :
    scanLexeme (c :: rest) = scanOperator (c :: rest) := by
  obtain ⟨bracket, quote, digit⟩ := first_of_startsOperator starts
  simp [scanLexeme, bracket, quote, digit, starts]

theorem scanLexeme_word (starts : startsWord c) : scanLexeme (c :: rest) = scanWord (c :: rest) := by
  have other := not_mem_marks_of_startsWord starts
  simp [scanLexeme, bracket?_eq_none other, isQuote_eq_false other,
    not_isDigit_of_startsWord starts, startsOperator_eq_false other, starts]

theorem scanLexeme_unknown (bracket : bracket? c = none) (quote : ¬ isQuote c) (digit : ¬ c.isDigit)
    (operator : ¬ startsOperator c) (word : ¬ startsWord c) :
    scanLexeme (c :: rest) = .failed .unknownToken 0 := by
  simp [scanLexeme, bracket, quote, digit, operator, word]

theorem scanLexeme_digits {whole : List Char} (nonempty : whole ≠ []) (digits : AllDigits whole) :
    scanLexeme (whole ++ rest) = scanNumber (whole ++ rest) := by
  obtain ⟨c, tail, rfl⟩ := List.exists_cons_of_ne_nil nonempty
  exact scanLexeme_digit (digits c List.mem_cons_self)

theorem scanLexeme_operator_front {front spelling : List Char} (nonempty : front ≠ [])
    (member : spelling ∈ operatorSpellings) (begins : front <+: spelling) :
    scanLexeme (front ++ rest) = scanOperator (front ++ rest) := by
  obtain ⟨c, tail, rfl⟩ := List.exists_cons_of_ne_nil nonempty
  obtain ⟨behind, rfl⟩ := begins
  exact scanLexeme_operator (startsOperator_iff.mpr ⟨_, member, rfl⟩)

end Dispatch

/-- The grammar bears the result of the scan out. -/
inductive Explained (text : List Char) : Scan Lexeme → Prop where
  | found {n : Nat} {lexeme : Lexeme} : ReadsAs text n lexeme → Explained text (.found lexeme n)
  | failed {n : Nat} {fault : Fault} : FailsWith text n fault → Explained text (.failed fault n)

theorem wordLexeme_cases (name : String) :
    (∃ word, wordLexeme name = .keyword word) ∨ wordLexeme name = .symbol name := by
  unfold wordLexeme
  split
  · exact .inl ⟨_, rfl⟩
  · exact .inr rfl

theorem ends_word {name : String} {text rest : List Char} {c : Char} (stop : ¬ continuesWord c) :
    Ends text (wordLexeme name) (c :: rest) := by
  refine .inr ⟨c, rfl, ?_⟩
  rcases wordLexeme_cases name with ⟨word, eq⟩ | eq <;> simp [eq, Fuses, Lexeme.kind, stop]

theorem ends_operator {name : String} {lexeme : Lexeme} {text rest : List Char} {c : Char}
    (known : operatorLexeme name = .ok lexeme)
    (stop : ∀ other ∈ operatorSpellings, ¬ text ++ [c] <+: other) : Ends text lexeme (c :: rest) := by
  refine .inr ⟨c, rfl, ?_⟩
  unfold operatorLexeme at known
  split at known
  · cases known
    simpa [Fuses, Lexeme.kind] using stop
  · split at known <;> cases known
    simpa [Fuses, Lexeme.kind] using stop

theorem spells_bracket {c : Char} {lexeme : Lexeme} (bracket : bracket? c = some lexeme) :
    Spells [c] lexeme ∧ lexeme.endsItself := by
  unfold bracket? at bracket
  split at bracket <;> cases bracket
  · exact ⟨.openTemplate, rfl⟩
  · exact ⟨.closeTemplate, rfl⟩
  · exact ⟨.openParenthesis, rfl⟩
  · exact ⟨.closeParenthesis, rfl⟩

theorem explained_word {c : Char} (starts : startsWord c) (text : List Char) :
    Explained (c :: text) (scanLexeme (c :: text)) := by
  rw [scanLexeme_word starts]
  obtain ⟨tail, rest, rfl, inside, stop⟩ := exists_run continuesWord text
  cases rest with
  | nil =>
    rw [List.append_nil, scanWord_at_end starts inside]
    exact .failed ⟨.word starts inside, rfl⟩
  | cons d rest =>
    have read : scanWord (c :: tail ++ d :: rest) = _ := scanWord_before starts inside (stop d rfl)
    rw [List.cons_append] at read
    rw [read]
    exact .found ⟨c :: tail, d :: rest, rfl, rfl, spells_word starts inside, ends_word (stop d rfl)⟩

theorem explained_whole {whole rest : List Char} (nonempty : whole ≠ []) (digits : AllDigits whole)
    (stop : ∀ c ∈ rest.head?, ¬ c.isDigit ∧ c ≠ '.') :
    Explained (whole ++ rest) (scanLexeme (whole ++ rest)) := by
  rw [scanLexeme_digits nonempty digits]
  cases rest with
  | nil =>
    rw [List.append_nil, scanNumber_whole_at_end nonempty digits]
    exact .failed ⟨.whole nonempty digits, rfl⟩
  | cons c rest =>
    obtain ⟨other, point⟩ := stop c rfl
    rw [scanNumber_whole_before nonempty digits other point]
    exact .found ⟨whole, c :: rest, rfl, rfl, .whole nonempty digits,
      .inr ⟨c, rfl, other, fun _ => point⟩⟩

theorem explained_decimal {whole fraction rest : List Char} (nonempty : whole ≠ [])
    (digits : AllDigits whole) (places : AllDigits fraction)
    (stop : ∀ c ∈ rest.head?, ¬ c.isDigit) :
    Explained (whole ++ '.' :: (fraction ++ rest))
      (scanLexeme (whole ++ '.' :: (fraction ++ rest))) := by
  rw [scanLexeme_digits nonempty digits]
  cases rest with
  | nil =>
    rw [List.append_nil, scanNumber_decimal_at_end digits places]
    exact .failed ⟨.decimal nonempty digits places, rfl⟩
  | cons c rest =>
    by_cases point : c = '.'
    · subst c
      rw [scanNumber_second_point digits places]
      exact .failed ⟨whole, fraction, rest, nonempty, digits, places, rfl, by simp; omega⟩
    · rw [scanNumber_decimal_before digits places (stop c rfl) point]
      exact .found ⟨whole ++ '.' :: fraction, c :: rest, by simp, rfl,
        .decimal nonempty digits places, .inr ⟨c, rfl, stop c rfl, fun _ => point⟩⟩

theorem explained_number {c : Char} (digit : c.isDigit) (text : List Char) :
    Explained (c :: text) (scanLexeme (c :: text)) := by
  rcases NumberRun.exists_split (c :: text) with
    ⟨whole, rest, digits, stop, split⟩ | ⟨whole, fraction, rest, digits, places, stop, split⟩
  · rw [split]
    apply explained_whole _ digits stop
    rintro rfl
    rw [List.nil_append] at split
    exact (stop c (by rw [← split]; rfl)).1 digit
  · rw [split]
    apply explained_decimal _ digits places stop
    rintro rfl
    obtain rfl : c = '.' := (List.cons.inj split).1
    exact absurd digit (by decide)

theorem explained_string {quote : Char} (valid : isQuote quote) (text : List Char) :
    Explained (quote :: text) (scanLexeme (quote :: text)) := by
  have plain : quote ≠ '\\' := by rintro rfl; exact absurd valid (by decide)
  rw [scanLexeme_quote valid]
  obtain ⟨body, value, tail, rfl, inside, halt⟩ := Quoted.exists_body quote text
  cases halt with
  | empty =>
    rw [List.append_nil, scanQuoted_open inside, Scan.mapAfter_failed]
    exact .failed ⟨.string valid inside, by simp; omega⟩
  | escape =>
    rw [scanQuoted_open_escape inside, Scan.mapAfter_failed]
    exact .failed ⟨.escape valid inside, by simp; omega⟩
  | @invalid letter rest unknown =>
    rw [scanQuoted_invalid inside unknown, Scan.mapAfter_failed]
    exact .failed ⟨quote, body, value, rest, valid, inside,
      Quoted.unescape?_eq_none_iff.mp unknown, rfl, by omega⟩
  | @closed rest =>
    rw [scanQuoted_closed inside plain, Scan.mapAfter_found]
    exact .found ⟨quote :: (body ++ [quote]), rest, by simp, by simp; omega,
      .string valid inside, .inl rfl⟩

theorem explained_operator {c : Char} (starts : startsOperator c) (text : List Char) :
    Explained (c :: text) (scanLexeme (c :: text)) := by
  obtain ⟨front, rest, spelling, split, nonempty, member, begins, stop⟩ :=
    exists_operator_front text starts
  rw [split, scanLexeme_operator_front nonempty member begins]
  cases rest with
  | nil =>
    rw [List.append_nil, scanOperator_at_end member begins nonempty]
    exact .failed ⟨.operator nonempty member begins, rfl⟩
  | cons d rest =>
    rw [scanOperator_before member begins nonempty (stop d rfl)]
    rcases operator_or_half member begins nonempty with known | ⟨x, half, rfl⟩
    · obtain ⟨lexeme, eq, operator⟩ := operatorLexeme_of_mem known
      rw [eq]
      exact .found ⟨front, d :: rest, rfl, rfl, operator.spells, ends_operator eq (stop d rfl)⟩
    · rw [operatorLexeme_half half]
      refine .failed ⟨x, d, rest, half, ?_, rfl, rfl, rfl⟩
      intro doubled
      obtain ⟨other, candidate, long⟩ := (half_operator half).mpr doubled
      exact stop d rfl other candidate long

theorem explained_bracket {c : Char} {lexeme : Lexeme} (bracket : bracket? c = some lexeme)
    (text : List Char) : Explained (c :: text) (scanLexeme (c :: text)) := by
  rw [scanLexeme_bracket bracket]
  obtain ⟨spells, ended⟩ := spells_bracket bracket
  exact .found ⟨[c], text, rfl, rfl, spells, .inl ended⟩

theorem scanLexeme_explained (text : List Char) : Explained text (scanLexeme text) := by
  cases text with
  | nil => exact .failed ⟨.empty, rfl⟩
  | cons c text =>
    cases bracket : bracket? c with
    | some lexeme => exact explained_bracket bracket text
    | none =>
      by_cases quote : isQuote c
      · exact explained_string quote text
      by_cases digit : c.isDigit
      · exact explained_number digit text
      by_cases operator : startsOperator c
      · exact explained_operator operator text
      by_cases word : startsWord c
      · exact explained_word word text
      rw [scanLexeme_unknown bracket quote digit operator word]
      refine .failed
        ⟨rfl, c, text, rfl, bracket?_eq_none_iff.mp bracket, quote, digit, ?_, word⟩
      intro spelling member head
      exact operator (startsOperator_iff.mpr ⟨spelling, member, head⟩)

theorem Ends.exists_next {text rest : List Char} {lexeme : Lexeme} (ends : Ends text lexeme rest)
    (run : lexeme.endsItself = false) : ∃ c behind, rest = c :: behind ∧
      ¬ Fuses text lexeme c ∧ (lexeme.kind = .number → c ≠ '.') := by
  rcases ends with itself | ⟨c, head, stop⟩
  · rw [run] at itself; cases itself
  · obtain ⟨behind, rfl⟩ := List.head?_eq_some_iff.mp head
    exact ⟨c, behind, rfl, stop⟩

theorem scanLexeme_word_before {c d : Char} {tail rest : List Char} (starts : startsWord c)
    (inside : ∀ x ∈ tail, continuesWord x) (stop : ¬ continuesWord d) :
    scanLexeme (c :: tail ++ d :: rest) =
      .found (wordLexeme (String.ofList (c :: tail))) (c :: tail).length := by
  rw [List.cons_append, scanLexeme_word starts, ← List.cons_append]
  exact scanWord_before starts inside stop

theorem scanLexeme_operator_before {text rest : List Char} {c : Char}
    (member : text ∈ operatorSpellings)
    (stop : ¬ ∃ spelling ∈ operatorSpellings, text ++ [c] <+: spelling) :
    scanLexeme (text ++ c :: rest) = ⟨operatorLexeme (String.ofList text), text.length⟩ := by
  have nonempty : text ≠ [] := by
    rintro rfl
    rw [operatorSpellings_eq] at member
    exact absurd member (by decide)
  rw [scanLexeme_operator_front nonempty member List.prefix_rfl]
  exact scanOperator_before member List.prefix_rfl nonempty
    fun other candidate long => stop ⟨other, candidate, long⟩

theorem scanLexeme_of_readsAs {text : List Char} {n : Nat} {lexeme : Lexeme}
    (reads : ReadsAs text n lexeme) : scanLexeme text = .found lexeme n := by
  obtain ⟨front, rest, rfl, rfl, spells, ends⟩ := reads
  cases spells with
  | openTemplate | closeTemplate | openParenthesis | closeParenthesis => rfl
  | whole nonempty digits =>
    obtain ⟨c, behind, rfl, stop, point⟩ := ends.exists_next rfl
    rw [scanLexeme_digits nonempty digits]
    exact scanNumber_whole_before nonempty digits stop (point rfl)
  | @decimal whole fraction nonempty digits places =>
    obtain ⟨c, behind, rfl, stop, point⟩ := ends.exists_next rfl
    rw [List.append_assoc, List.cons_append, scanLexeme_digits nonempty digits]
    exact scanNumber_decimal_before digits places stop (point rfl)
  | @string quote body value valid inside =>
    have plain : quote ≠ '\\' := by rintro rfl; exact absurd valid (by decide)
    rw [List.cons_append, List.append_assoc, List.singleton_append, scanLexeme_quote valid,
      scanQuoted_closed inside plain, Scan.mapAfter_found]
    congr 1
    simp; omega
  | null =>
    obtain ⟨c, behind, rfl, stop, -⟩ := ends.exists_next rfl
    rw [← wordLexeme_null]
    exact scanLexeme_word_before rfl (by simp [continuesWord, startsWord]) stop
  | undefined =>
    obtain ⟨c, behind, rfl, stop, -⟩ := ends.exists_next rfl
    rw [← wordLexeme_undefined]
    exact scanLexeme_word_before rfl (by simp [continuesWord, startsWord]) stop
  | symbol starts inside null undefined =>
    obtain ⟨c, behind, rfl, stop, -⟩ := ends.exists_next rfl
    rw [scanLexeme_word_before starts inside stop, wordLexeme_symbol starts null undefined]
  | unaryOperator operator =>
    obtain ⟨c, behind, rfl, stop, -⟩ := ends.exists_next rfl
    rw [scanLexeme_operator_before (mem_operatorSpellings.mpr (.inl ⟨operator, rfl⟩)) stop,
      String.ofList_toList, operatorLexeme_unary]
    rfl
  | binaryOperator operator =>
    obtain ⟨c, behind, rfl, stop, -⟩ := ends.exists_next rfl
    rw [scanLexeme_operator_before (mem_operatorSpellings.mpr (.inr ⟨operator, rfl⟩)) stop,
      String.ofList_toList, operatorLexeme_binary]
    rfl

theorem scanLexeme_of_unfinished {text : List Char} (unfinished : Unfinished text) :
    scanLexeme text = .failed .unexpectedEnd text.length := by
  cases unfinished with
  | empty => rfl
  | whole nonempty digits =>
    have digit : scanLexeme (text ++ []) = _ := scanLexeme_digits nonempty digits
    rw [List.append_nil] at digit
    rw [digit, scanNumber_whole_at_end nonempty digits]
  | decimal nonempty digits places =>
    rw [scanLexeme_digits nonempty digits, scanNumber_decimal_at_end digits places]
  | @string quote body value valid inside =>
    rw [scanLexeme_quote valid, scanQuoted_open inside, Scan.mapAfter_failed, List.length_cons,
      Nat.add_comm]
  | @escape quote body value valid inside =>
    rw [scanLexeme_quote valid, scanQuoted_open_escape inside, Scan.mapAfter_failed]
    congr 1
    simp; omega
  | word starts inside => rw [scanLexeme_word starts, scanWord_at_end starts inside]
  | operator nonempty member begins =>
    have operator : scanLexeme (text ++ []) = _ :=
      scanLexeme_operator_front nonempty member begins
    rw [List.append_nil] at operator
    rw [operator, scanOperator_at_end member begins nonempty]

theorem scanLexeme_of_failsWith {text : List Char} {n : Nat} {fault : Fault}
    (fails : FailsWith text n fault) : scanLexeme text = .failed fault n := by
  cases fault with
  | unexpectedEnd =>
    obtain ⟨unfinished, rfl⟩ := fails
    exact scanLexeme_of_unfinished unfinished
  | unmatched => exact fails.elim
  | unexpectedDot =>
    obtain ⟨whole, fraction, rest, nonempty, digits, places, rfl, rfl⟩ := fails
    rw [scanLexeme_digits nonempty digits, scanNumber_second_point digits places]
    congr 1
    simp; omega
  | unknownOperator name =>
    obtain ⟨c, d, rest, half, other, rfl, rfl, rfl⟩ := fails
    obtain ⟨spelling, member, begins⟩ := half_begins half
    have stop : ∀ other ∈ operatorSpellings, ¬ [c] ++ [d] <+: other :=
      fun spelling candidate long => other ((half_operator half).mp ⟨spelling, candidate, long⟩)
    have read : scanOperator ([c] ++ d :: rest) = _ :=
      scanOperator_before member begins (List.cons_ne_nil c []) stop
    rw [operatorLexeme_half half] at read
    exact (scanLexeme_operator_front (List.cons_ne_nil c []) member begins).trans read
  | unknownToken =>
    obtain ⟨rfl, c, rest, rfl, bracket, quote, digit, operator, word⟩ := fails
    apply scanLexeme_unknown (bracket?_eq_none_iff.mpr bracket) quote digit _ word
    intro starts
    obtain ⟨spelling, member, head⟩ := startsOperator_iff.mp starts
    exact operator spelling member head
  | invalidEscape letter =>
    obtain ⟨quote, body, value, rest, valid, inside, unknown, rfl, rfl⟩ := fails
    rw [scanLexeme_quote valid, scanQuoted_invalid inside (Quoted.unescape?_eq_none_iff.mpr unknown),
      Scan.mapAfter_failed]
    congr 1
    omega

/-- The scan finds a lexeme exactly where the grammar lets it be read. -/
theorem scanLexeme_eq_found_iff {text : List Char} {n : Nat} {lexeme : Lexeme} :
    scanLexeme text = .found lexeme n ↔ ReadsAs text n lexeme := by
  refine ⟨fun found => ?_, scanLexeme_of_readsAs⟩
  have explained := scanLexeme_explained text
  rw [found] at explained
  cases explained with
  | found reads => exact reads

/-- The scan fails exactly as the grammar says. -/
theorem scanLexeme_eq_failed_iff {text : List Char} {n : Nat} {fault : Fault} :
    scanLexeme text = .failed fault n ↔ FailsWith text n fault := by
  refine ⟨fun failed => ?_, scanLexeme_of_failsWith⟩
  have explained := scanLexeme_explained text
  rw [failed] at explained
  cases explained with
  | failed fails => exact fails

end TemplateLexer
