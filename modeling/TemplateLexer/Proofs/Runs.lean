import Mathlib.Data.List.TakeWhile
import TemplateLexer.Proofs.Grammar

/-! Runs of characters of one class, and the scans of words and numbers, which take such runs: a
text divides into the run and a rest that cannot go on with it, in one way only. -/
namespace TemplateLexer

section Split

variable {p : Char → Bool} {front rest : List Char}

theorem takeWhile_append_stop (inside : ∀ c ∈ front, p c) (stop : ∀ c ∈ rest.head?, ¬ p c) :
    (front ++ rest).takeWhile p = front := by
  rw [List.takeWhile_append_of_pos inside]
  cases rest with
  | nil => simp
  | cons c rest => simp [stop c rfl]

theorem dropWhile_append_stop (inside : ∀ c ∈ front, p c) (stop : ∀ c ∈ rest.head?, ¬ p c) :
    (front ++ rest).dropWhile p = rest := by
  rw [List.dropWhile_append_of_pos inside]
  cases rest with
  | nil => rfl
  | cons c rest => simp [stop c rfl]

theorem exists_run (p : Char → Bool) (text : List Char) :
    ∃ front rest, text = front ++ rest ∧ (∀ c ∈ front, p c) ∧ ∀ c ∈ rest.head?, ¬ p c := by
  refine ⟨text.takeWhile p, text.dropWhile p, List.takeWhile_append_dropWhile.symm,
    fun c member => List.mem_takeWhile_imp member, ?_⟩
  intro c head
  have stopped := List.head?_dropWhile_not p text
  rw [Option.mem_def.mp head] at stopped
  simpa using stopped

end Split

namespace Scan

variable {α : Type} {taken rest : List Char} {outcome : Except Fault α}

theorem run_at_end (nonempty : taken ≠ []) :
    run taken [] outcome = failed .unexpectedEnd taken.length := by
  simp [run, nonempty]

theorem length_run (taken rest : List Char) (outcome : Except Fault α) :
    (run taken rest outcome).length = taken.length := by
  cases taken with
  | nil => rfl
  | cons c taken => cases rest <;> rfl

theorem run_before (nonempty : taken ≠ []) (more : rest ≠ []) :
    run taken rest outcome = ⟨outcome, taken.length⟩ := by
  simp [run, nonempty, more]

end Scan

theorem wordLexeme_keyword (word : Keyword) : wordLexeme word.spelling = .keyword word := by
  have found : Vocabulary.ofSpelling? word.spelling = some word :=
    Vocabulary.ofSpelling?_spelling word
  rw [wordLexeme, found]

theorem wordLexeme_null : wordLexeme "null" = .keyword .null := wordLexeme_keyword .null

theorem wordLexeme_undefined : wordLexeme "undefined" = .keyword .undefined :=
  wordLexeme_keyword .undefined

theorem wordLexeme_symbol {c : Char} {tail : List Char} (starts : startsWord c)
    (null : String.ofList (c :: tail) ≠ "null")
    (undefined : String.ofList (c :: tail) ≠ "undefined") :
    wordLexeme (String.ofList (c :: tail)) = .symbol (String.ofList (c :: tail)) := by
  have period : String.ofList (c :: tail) ≠ "." := by
    intro same
    have point : c :: tail = ".".toList := by rw [← same, String.toList_ofList]
    obtain rfl : c = '.' := (List.cons.inj point).1
    exact absurd starts (by decide)
  have unknown : Vocabulary.ofSpelling? (String.ofList (c :: tail)) = (none : Option Keyword) := by
    rw [Vocabulary.ofSpelling?_eq_none_iff]
    rintro (_ | _ | _) _
    · exact period.symm
    · exact null.symm
    · exact undefined.symm
  rw [wordLexeme, unknown]

theorem not_isDigit_of_startsWord {c : Char} (starts : startsWord c) : ¬ c.isDigit := by
  intro digit
  simp only [startsWord, Bool.or_eq_true, beq_iff_eq] at starts
  rcases starts with (letter | rfl) | rfl
  · delta Char.isAlpha Char.isUpper Char.isLower at letter
    delta Char.isDigit at digit
    simp only [Bool.or_eq_true, Bool.and_eq_true, decide_eq_true_eq, ge_iff_le,
      UInt32.le_iff_toNat_le] at letter digit
    simp at letter digit
    omega
  · exact absurd digit (by decide)
  · exact absurd digit (by decide)

theorem spells_word {c : Char} {tail : List Char} (starts : startsWord c)
    (inside : ∀ x ∈ tail, continuesWord x) :
    Spells (c :: tail) (wordLexeme (String.ofList (c :: tail))) := by
  by_cases null : String.ofList (c :: tail) = "null"
  · have : c :: tail = "null".toList := by rw [← null, String.toList_ofList]
    rw [null, wordLexeme_null, this]
    exact .null
  by_cases undefined : String.ofList (c :: tail) = "undefined"
  · have : c :: tail = "undefined".toList := by rw [← undefined, String.toList_ofList]
    rw [undefined, wordLexeme_undefined, this]
    exact .undefined
  rw [wordLexeme_symbol starts null undefined]
  exact .symbol starts inside null undefined

theorem scanWord_at_end {c : Char} {tail : List Char} (starts : startsWord c)
    (inside : ∀ x ∈ tail, continuesWord x) :
    scanWord (c :: tail) = .failed .unexpectedEnd (c :: tail).length := by
  have all : ∀ x ∈ c :: tail, continuesWord x := by simp_all [continuesWord]
  have taken : (c :: tail).takeWhile continuesWord = c :: tail :=
    List.takeWhile_eq_self_iff.mpr all
  have left : (c :: tail).dropWhile continuesWord = [] := List.dropWhile_eq_nil_iff.mpr all
  rw [scanWord, taken, left, Scan.run_at_end (List.cons_ne_nil c tail)]

theorem scanWord_before {c d : Char} {tail rest : List Char} (starts : startsWord c)
    (inside : ∀ x ∈ tail, continuesWord x) (stop : ¬ continuesWord d) :
    scanWord (c :: tail ++ d :: rest) =
      .found (wordLexeme (String.ofList (c :: tail))) (c :: tail).length := by
  have all : ∀ x ∈ c :: tail, continuesWord x := by simp_all [continuesWord]
  have ends : ∀ x ∈ (d :: rest).head?, ¬ continuesWord x := by simpa using stop
  rw [scanWord, takeWhile_append_stop all ends, dropWhile_append_stop all ends,
    Scan.run_before (List.cons_ne_nil c tail) (List.cons_ne_nil d rest)]
  rfl

namespace NumberRun

variable {whole fraction rest : List Char}

theorem ofText_whole (digits : AllDigits whole) (stop : ∀ c ∈ rest.head?, ¬ c.isDigit ∧ c ≠ '.') :
    ofText (whole ++ rest) = ⟨whole, none, rest⟩ := by
  have ends : ∀ c ∈ rest.head?, ¬ c.isDigit := fun c head => (stop c head).1
  unfold ofText
  rw [takeWhile_append_stop digits ends, dropWhile_append_stop digits ends]
  split
  · exact absurd rfl (stop '.' rfl).2
  · rfl

theorem ofText_decimal (digits : AllDigits whole) (places : AllDigits fraction)
    (stop : ∀ c ∈ rest.head?, ¬ c.isDigit) :
    ofText (whole ++ '.' :: (fraction ++ rest)) = ⟨whole, some fraction, rest⟩ := by
  have point : ∀ c ∈ ('.' :: (fraction ++ rest)).head?, ¬ c.isDigit := by simp
  unfold ofText
  rw [takeWhile_append_stop digits point, dropWhile_append_stop digits point]
  simp only [takeWhile_append_stop places stop, dropWhile_append_stop places stop]

theorem exists_split (text : List Char) :
    (∃ whole rest, AllDigits whole ∧ (∀ c ∈ rest.head?, ¬ c.isDigit ∧ c ≠ '.') ∧
      text = whole ++ rest) ∨
    ∃ whole fraction rest, AllDigits whole ∧ AllDigits fraction ∧
      (∀ c ∈ rest.head?, ¬ c.isDigit) ∧ text = whole ++ '.' :: (fraction ++ rest) := by
  obtain ⟨whole, behind, rfl, digits, stop⟩ := exists_run Char.isDigit text
  by_cases point : behind.head? = some '.'
  · obtain ⟨tail, rfl⟩ := List.head?_eq_some_iff.mp point
    obtain ⟨fraction, rest, rfl, places, ends⟩ := exists_run Char.isDigit tail
    exact .inr ⟨whole, fraction, rest, digits, places, ends, rfl⟩
  · refine .inl ⟨whole, behind, digits, fun c head => ⟨stop c head, ?_⟩, rfl⟩
    rintro rfl
    exact point head

theorem taken_at_front (text : List Char) : (ofText text).taken <+: text := by
  rcases exists_split text with
    ⟨whole, rest, digits, stop, rfl⟩ | ⟨whole, fraction, rest, digits, places, stop, rfl⟩
  · rw [ofText_whole digits stop]
    exact List.prefix_append whole rest
  · rw [ofText_decimal digits places stop]
    exact ⟨rest, by simp [taken]⟩

end NumberRun

section Number

variable {whole fraction rest : List Char} {c : Char}

theorem scanNumber_whole_at_end (nonempty : whole ≠ []) (digits : AllDigits whole) :
    scanNumber whole = .failed .unexpectedEnd whole.length := by
  have split : NumberRun.ofText (whole ++ []) = _ := NumberRun.ofText_whole digits (by simp)
  rw [List.append_nil] at split
  simp only [scanNumber, split, NumberRun.taken]
  exact Scan.run_at_end nonempty

theorem scanNumber_whole_before (nonempty : whole ≠ []) (digits : AllDigits whole)
    (stop : ¬ c.isDigit) (point : c ≠ '.') :
    scanNumber (whole ++ c :: rest) =
      .found (.number (.ofDecimal (.ofDigits whole []))) whole.length := by
  have split : NumberRun.ofText (whole ++ c :: rest) = _ :=
    NumberRun.ofText_whole digits (by simp_all)
  simp only [scanNumber, split, NumberRun.taken, Scan.run_before nonempty (List.cons_ne_nil c rest)]
  simp [point, NumberRun.value, Scan.found]

theorem scanNumber_decimal_at_end (digits : AllDigits whole) (places : AllDigits fraction) :
    scanNumber (whole ++ '.' :: fraction) =
      .failed .unexpectedEnd (whole ++ '.' :: fraction).length := by
  have split : NumberRun.ofText (whole ++ '.' :: (fraction ++ [])) = _ :=
    NumberRun.ofText_decimal digits places (by simp)
  rw [List.append_nil] at split
  simp only [scanNumber, split, NumberRun.taken]
  exact Scan.run_at_end (by simp)

theorem scanNumber_decimal_before (digits : AllDigits whole) (places : AllDigits fraction)
    (stop : ¬ c.isDigit) (point : c ≠ '.') :
    scanNumber (whole ++ '.' :: (fraction ++ c :: rest)) =
      .found (.number (.ofDecimal (.ofDigits whole fraction)))
        (whole ++ '.' :: fraction).length := by
  have split : NumberRun.ofText (whole ++ '.' :: (fraction ++ c :: rest)) = _ :=
    NumberRun.ofText_decimal digits places (by simp_all)
  have nonempty : whole ++ '.' :: fraction ≠ [] := by simp
  simp only [scanNumber, split, NumberRun.taken, Scan.run_before nonempty (List.cons_ne_nil c rest)]
  simp [point, NumberRun.value, Scan.found]

theorem scanNumber_second_point (digits : AllDigits whole) (places : AllDigits fraction) :
    scanNumber (whole ++ '.' :: (fraction ++ '.' :: rest)) =
      .failed .unexpectedDot (whole ++ '.' :: fraction).length := by
  have split : NumberRun.ofText (whole ++ '.' :: (fraction ++ '.' :: rest)) = _ :=
    NumberRun.ofText_decimal digits places (by simp)
  have nonempty : whole ++ '.' :: fraction ≠ [] := by simp
  simp only [scanNumber, split, NumberRun.taken,
    Scan.run_before nonempty (List.cons_ne_nil '.' rest)]
  rfl

end Number

end TemplateLexer
