import Mathlib.Data.Nat.Find
import TemplateLexer.Proofs.Calls

/-! Longest match. An operator scan takes the longest front of a text that some operator begins with,
and a number scan the longest front that is a numeral; what stands behind that front then decides
between the lexeme and the fault. -/
namespace TemplateLexer

section Head

variable {text : List Char} {x : Char}

theorem begins_with_head (head : x ∈ text.head?) : [x] <+: text := by
  obtain ⟨tail, rfl⟩ := List.head?_eq_some_iff.mp head
  exact List.prefix_append [x] tail

theorem forall_head {p : Char → Prop} (head : x ∈ text.head?) (holds : p x) :
    ∀ y ∈ text.head?, p y := by
  intro y same
  obtain rfl : x = y := Option.some.inj (head.symm.trans same)
  exact holds

end Head

/-- Of the fronts of a text for which something holds, the longest. -/
structure IsLongestFront (holds : List Char → Prop) (text front : List Char) : Prop where
  at_front : front <+: text
  fits : holds front
  longest : ∀ other, other <+: text → holds other → other <+: front

section Longest

variable {holds : List Char → Prop} {text front behind : List Char} {c : Char}

theorem exists_isLongestFront (at_front : front <+: text) (fits : holds front) :
    ∃ longest, IsLongestFront holds text longest := by
  classical
  let n := Nat.findGreatest (fun n => holds (text.take n)) text.length
  have found : holds (text.take n) := by
    apply Nat.findGreatest_spec (P := fun n => holds (text.take n)) at_front.length_le
    rwa [← List.prefix_iff_eq_take.mp at_front]
  refine ⟨text.take n, List.take_prefix n text, found, fun other begins holds_other => ?_⟩
  have taken := List.prefix_iff_eq_take.mp begins
  have bound : other.length ≤ n :=
    Nat.le_findGreatest begins.length_le (by rwa [← taken])
  rw [taken]
  exact List.take_prefix_take_left bound

theorem IsLongestFront.not_holds_concat (longest : IsLongestFront holds (front ++ c :: behind) front) :
    ¬ holds (front ++ [c]) := by
  intro more
  have at_front : front ++ [c] <+: front ++ c :: behind :=
    (List.prefix_append_right_inj front).mpr (List.prefix_append [c] behind)
  have shorter := (longest.longest _ at_front more).length_le
  rw [List.length_append, List.length_singleton] at shorter
  omega

theorem IsLongestFront.exists_next (longest : IsLongestFront holds text front)
    (part : front ≠ text) : ∃ c behind, text = front ++ c :: behind := by
  obtain ⟨rest, rfl⟩ := longest.at_front
  cases rest with
  | nil => exact absurd (List.append_nil front).symm part
  | cons c behind => exact ⟨c, behind, rfl⟩

end Longest

namespace Cursor

/-- The scan takes a lexeme of `n` characters, with no blanks in front of it. -/
def Takes (c : Cursor) (n : Nat) (lexeme : Lexeme) : Prop :=
  c.scan = (.ok ⟨c.location, lexeme⟩, c.advance n)

/-- The scan fails behind `n` characters and leaves the cursor there. -/
def FailsBehind (c : Cursor) (n : Nat) (fault : Fault) : Prop :=
  c.scan = (.error ⟨fault, (c.advance n).location⟩, c.advance n)

variable {c : Cursor} {n : Nat}

theorem takes_of_scanLexeme {lexeme : Lexeme} (first : ∀ x ∈ c.rest.head?, ¬ isBlank x)
    (found : scanLexeme c.rest = .found lexeme n) : c.Takes n lexeme := by
  have read := scan_found (show c.rest = [] ++ c.rest from rfl) (by simp) first found
  rwa [List.length_nil, Nat.zero_add, Location.afterAll_nil] at read

theorem failsBehind_of_scanLexeme {fault : Fault} (first : ∀ x ∈ c.rest.head?, ¬ isBlank x)
    (failed : scanLexeme c.rest = .failed fault n) : c.FailsBehind n fault := by
  have read := scan_failed (show c.rest = [] ++ c.rest from rfl) (by simp) first failed
  rwa [List.length_nil, Nat.zero_add] at read

end Cursor

def BeginsOperator (text : List Char) : Prop :=
  ∃ spelling ∈ operatorSpellings, text <+: spelling

section Operator

variable {text front behind spelling : List Char}

theorem beginsOperator_of_mem (member : spelling ∈ operatorSpellings) : BeginsOperator spelling :=
  ⟨spelling, member, List.prefix_rfl⟩

theorem nil_not_mem_operatorSpellings : [] ∉ operatorSpellings := by
  rw [operatorSpellings_eq]
  decide

theorem not_isBlank_of_mem_operatorSpellings (member : spelling ∈ operatorSpellings) :
    ∀ x ∈ spelling.head?, ¬ isBlank x := by
  have table : ∀ spelling ∈ operatorSpellings, ∀ x ∈ spelling.head?, ¬ isBlank x := by
    simp [operatorSpellings_eq, isBlank]
  exact table spelling member

/-- An operator that a text begins with keeps the longest front from being a mere beginning: the
front is then an operator, and the longest there is. -/
theorem IsLongestFront.of_operator_at_front (longest : IsLongestFront BeginsOperator text front)
    (member : spelling ∈ operatorSpellings) (at_front : spelling <+: text) :
    IsLongestFront (· ∈ operatorSpellings) text front := by
  have within : spelling <+: front := longest.longest _ at_front (beginsOperator_of_mem member)
  have some_spelling : spelling ≠ [] := by
    rintro rfl
    exact nil_not_mem_operatorSpellings member
  have nonempty : front ≠ [] := by
    rintro rfl
    exact some_spelling (List.prefix_nil.mp within)
  obtain ⟨whole, known, begins⟩ := longest.fits
  refine ⟨longest.at_front, ?_, fun other begins known =>
    longest.longest other begins (beginsOperator_of_mem known)⟩
  rcases operator_or_half known begins nonempty with operator | ⟨x, -, rfl⟩
  · exact operator
  · have single : spelling = [x] :=
      within.eq_of_length (within.length_le.antisymm (List.length_pos_iff.mpr some_spelling))
    rwa [← single]

theorem IsLongestFront.scanLexeme_operator_at_end (longest : IsLongestFront BeginsOperator text text)
    (nonempty : text ≠ []) : scanLexeme text = .failed .unexpectedEnd text.length := by
  obtain ⟨spelling, known, begins⟩ := longest.fits
  exact scanLexeme_of_unfinished (.operator nonempty known begins)

theorem IsLongestFront.scanLexeme_operator (longest : IsLongestFront BeginsOperator text front)
    (nonempty : front ≠ []) (part : front ≠ text) :
    scanLexeme text = ⟨operatorLexeme (String.ofList front), front.length⟩ := by
  obtain ⟨x, behind, rfl⟩ := longest.exists_next part
  obtain ⟨spelling, known, begins⟩ := longest.fits
  rw [scanLexeme_operator_front nonempty known begins]
  apply scanOperator_before known begins nonempty
  exact fun other candidate long => longest.not_holds_concat ⟨other, candidate, long⟩

theorem IsLongestFront.operatorLexeme_of_not_mem (longest : IsLongestFront BeginsOperator text front)
    (nonempty : front ≠ []) (unknown : front ∉ operatorSpellings) :
    operatorLexeme (String.ofList front) = .error (.unknownOperator (String.ofList front)) := by
  obtain ⟨spelling, known, begins⟩ := longest.fits
  obtain ⟨x, half, rfl⟩ := (operator_or_half known begins nonempty).resolve_left unknown
  exact operatorLexeme_half half

end Operator

/-- Let a text start like an operator, and let `m` be its longest front that an operator begins with.
If `m` is the whole text, the scan fails at its end. An operator that stands at the front of the text
makes `m` the longest one that does, and what is behind `m` makes the scan take just that. If no
operator stands there, the scan takes `m` and does not know it. -/
theorem Cursor.scan_longest_operator (c : Cursor)
    (starts : ∃ x ∈ c.rest.head?, ∃ spelling ∈ operatorSpellings, spelling.head? = some x) :
    ∃ m, IsLongestFront BeginsOperator c.rest m ∧
      (m = c.rest → c.FailsBehind c.rest.length .unexpectedEnd) ∧
      ((∃ spelling ∈ operatorSpellings, spelling <+: c.rest) →
        IsLongestFront (· ∈ operatorSpellings) c.rest m ∧
          (m ≠ c.rest → ∃ lexeme, IsOperator m lexeme ∧ c.Takes m.length lexeme)) ∧
      ((¬ ∃ spelling ∈ operatorSpellings, spelling <+: c.rest) →
        m ≠ c.rest → c.FailsBehind m.length (.unknownOperator (String.ofList m))) := by
  obtain ⟨x, head, first, member, begins⟩ := starts
  have plain : ∀ y ∈ c.rest.head?, ¬ isBlank y :=
    forall_head head (not_isBlank_of_mem_operatorSpellings member x begins)
  have single : BeginsOperator [x] := ⟨first, member, begins_with_head begins⟩
  have at_front : [x] <+: c.rest := begins_with_head head
  obtain ⟨m, longest⟩ := exists_isLongestFront at_front single
  have nonempty : m ≠ [] := by
    rintro rfl
    exact absurd (List.prefix_nil.mp (longest.longest [x] at_front single)) (List.cons_ne_nil x [])
  refine ⟨m, longest, fun whole => ?_, fun ⟨spelling, operator, begins⟩ => ?_, fun unknown part => ?_⟩
  · rw [whole] at longest nonempty
    exact failsBehind_of_scanLexeme plain (longest.scanLexeme_operator_at_end nonempty)
  · have operators := longest.of_operator_at_front operator begins
    refine ⟨operators, fun part => ?_⟩
    obtain ⟨lexeme, known, named⟩ := operatorLexeme_of_mem operators.fits
    have read := longest.scanLexeme_operator nonempty part
    rw [known] at read
    exact ⟨lexeme, named, takes_of_scanLexeme plain read⟩
  · have read := longest.scanLexeme_operator nonempty part
    rw [longest.operatorLexeme_of_not_mem nonempty
      fun known => unknown ⟨m, known, longest.at_front⟩] at read
    exact failsBehind_of_scanLexeme plain read

theorem Cursor.scan_longest_operator_before_word :
    let c := Cursor.ofList ['!', '=', '=', 'a']
    (∃ x ∈ c.rest.head?, ∃ spelling ∈ operatorSpellings, spelling.head? = some x) ∧
      ∃ m lexeme, IsLongestFront (· ∈ operatorSpellings) c.rest m ∧ IsOperator m lexeme ∧
        c.Takes m.length lexeme := by
  intro c
  have strict : ['!', '=', '='] ∈ operatorSpellings := by simp [operatorSpellings_eq]
  have starts : ∃ x ∈ c.rest.head?, ∃ spelling ∈ operatorSpellings, spelling.head? = some x :=
    ⟨'!', rfl, _, strict, rfl⟩
  have whole : ¬ BeginsOperator c.rest := by
    unfold BeginsOperator
    rw [operatorSpellings_eq]
    decide
  obtain ⟨m, longest, -, known, -⟩ := Cursor.scan_longest_operator c starts
  obtain ⟨operators, read⟩ := known ⟨_, strict, ['a'], rfl⟩
  obtain ⟨lexeme, named, takes⟩ := read fun same => whole (same ▸ longest.fits)
  exact ⟨starts, m, lexeme, operators, named, takes⟩

/-- Digits, and behind them perhaps a point and more digits. -/
inductive IsNumeral : List Char → Prop where
  | whole {whole : List Char} : whole ≠ [] → AllDigits whole → IsNumeral whole
  | decimal {whole fraction : List Char} : whole ≠ [] → AllDigits whole → AllDigits fraction →
      IsNumeral (whole ++ '.' :: fraction)

section Numeral

variable {text numeral behind : List Char} {c : Char}

theorem AllDigits.concat (digits : AllDigits text) (digit : c.isDigit) : AllDigits (text ++ [c]) := by
  rw [AllDigits, List.forall_mem_append, List.forall_mem_singleton]
  exact ⟨digits, digit⟩

theorem isNumeral_digit (digit : c.isDigit) : IsNumeral [c] :=
  .whole (List.cons_ne_nil c []) (List.forall_mem_singleton.mpr digit)

theorem IsNumeral.concat_digit (valid : IsNumeral text) (digit : c.isDigit) :
    IsNumeral (text ++ [c]) := by
  cases valid with
  | whole nonempty digits =>
    exact .whole (List.append_ne_nil_of_left_ne_nil nonempty [c]) (digits.concat digit)
  | decimal nonempty digits places =>
    rw [List.append_assoc]
    exact .decimal nonempty digits (places.concat digit)

theorem IsNumeral.exists_value (valid : IsNumeral text) :
    ∃ value, Decimal.ofText? text = some value ∧ Spells text (.number (.ofDecimal value)) := by
  cases valid with
  | whole nonempty digits =>
    refine ⟨_, ?_, .whole nonempty digits⟩
    have taken : text.takeWhile Char.isDigit = text := List.takeWhile_eq_self_iff.mpr digits
    have left : text.dropWhile Char.isDigit = [] := List.dropWhile_eq_nil_iff.mpr digits
    simp [Decimal.ofText?, taken, left, nonempty]
  | @decimal whole fraction nonempty digits places =>
    refine ⟨_, ?_, .decimal nonempty digits places⟩
    have point : ∀ c ∈ ('.' :: fraction).head?, ¬ c.isDigit := by simp
    have all : fraction.all Char.isDigit := List.all_eq_true.mpr places
    simp only [Decimal.ofText?, takeWhile_append_stop digits point,
      dropWhile_append_stop digits point, all, if_true]
    simp [nonempty]

theorem IsNumeral.unfinished (valid : IsNumeral text) : Unfinished text := by
  cases valid with
  | whole nonempty digits => exact .whole nonempty digits
  | decimal nonempty digits places => exact .decimal nonempty digits places

theorem IsLongestFront.failsWith_second_point
    (longest : IsLongestFront IsNumeral (numeral ++ '.' :: behind) numeral) :
    FailsWith (numeral ++ '.' :: behind) numeral.length .unexpectedDot := by
  cases longest.fits with
  | whole nonempty digits =>
    exact absurd (.decimal nonempty digits (List.forall_mem_nil _)) longest.not_holds_concat
  | @decimal whole fraction nonempty digits places =>
    exact ⟨whole, fraction, behind, nonempty, digits, places, by simp, by simp; omega⟩

theorem IsLongestFront.readsAs_number {value : Decimal} (point : c ≠ '.')
    (longest : IsLongestFront IsNumeral (numeral ++ c :: behind) numeral)
    (spells : Spells numeral (.number (.ofDecimal value))) :
    ReadsAs (numeral ++ c :: behind) numeral.length (.number (.ofDecimal value)) :=
  ⟨numeral, c :: behind, rfl, rfl, spells, .inr ⟨c, rfl,
    fun digit => longest.not_holds_concat (longest.fits.concat_digit digit), fun _ => point⟩⟩

/-- Where the text is all numeral, the scan fails at its end; where a point follows the numeral, at
that point; and else it takes the numeral with the value that it spells. -/
theorem IsLongestFront.scanLexeme_numeral {value : Decimal}
    (longest : IsLongestFront IsNumeral text numeral)
    (spells : Spells numeral (.number (.ofDecimal value))) :
    (text = numeral → scanLexeme text = .failed .unexpectedEnd numeral.length) ∧
      (∀ behind, text = numeral ++ '.' :: behind →
        scanLexeme text = .failed .unexpectedDot numeral.length) ∧
      (∀ c behind, c ≠ '.' → text = numeral ++ c :: behind →
        scanLexeme text = .found (.number (.ofDecimal value)) numeral.length) := by
  refine ⟨?_, ?_, ?_⟩
  · rintro rfl
    exact scanLexeme_of_unfinished longest.fits.unfinished
  · rintro behind rfl
    exact scanLexeme_of_failsWith longest.failsWith_second_point
  · rintro c behind point rfl
    exact scanLexeme_of_readsAs (longest.readsAs_number point spells)

theorem IsLongestFront.length_scanLexeme_numeral (longest : IsLongestFront IsNumeral text numeral) :
    (scanLexeme text).length = numeral.length := by
  obtain ⟨value, -, spells⟩ := longest.fits.exists_value
  obtain ⟨whole, second, number⟩ := longest.scanLexeme_numeral spells
  by_cases all : numeral = text
  · rw [whole all.symm]
    rfl
  obtain ⟨c, behind, split⟩ := longest.exists_next all
  by_cases point : c = '.'
  · subst point
    rw [second behind split]
    rfl
  · rw [number c behind point split]
    rfl

theorem IsLongestFront.taken_eq (longest : IsLongestFront IsNumeral text numeral)
    (first : ∃ x ∈ text.head?, x.isDigit) : (NumberRun.ofText text).taken = numeral := by
  obtain ⟨x, head, digit⟩ := first
  have length : (NumberRun.ofText text).taken.length = numeral.length := by
    rw [← longest.length_scanLexeme_numeral]
    obtain ⟨tail, rfl⟩ := List.head?_eq_some_iff.mp head
    rw [scanLexeme_digit digit]
    exact (Scan.length_run ..).symm
  exact (List.prefix_of_prefix_length_le (NumberRun.taken_at_front text) longest.at_front
    length.le).eq_of_length length

end Numeral

/-- If behind blanks a digit comes next, the scan is the one that starts at it. Let `d` be the
longest numeral there: it is what the number scan goes over, and it stands for a number. If that is
all that is left, the scan fails at the end; if a point follows, at that point, be it the last
character or not; and else the scan takes `d` and finds that number. -/
theorem Cursor.scan_numeral_behind_blanks (c : Cursor)
    (digit : ∃ x ∈ c.skipBlanks.rest.head?, x.isDigit) :
    let start := c.skipBlanks
    c.scan = start.scan ∧ ∃ d value, IsLongestFront IsNumeral start.rest d ∧
      (NumberRun.ofText start.rest).taken = d ∧ Decimal.ofText? d = some value ∧
      (start.rest = d → start.FailsBehind d.length .unexpectedEnd) ∧
      (∀ behind, start.rest = d ++ '.' :: behind → start.FailsBehind d.length .unexpectedDot) ∧
      (∀ x behind, x ≠ '.' → start.rest = d ++ x :: behind →
        start.Takes d.length (.number (.ofDecimal value))) := by
  intro start
  obtain ⟨x, head, first⟩ := digit
  have plain : ∀ y ∈ start.rest.head?, ¬ isBlank y := forall_head head (not_isBlank_of_isDigit first)
  obtain ⟨d, longest⟩ := exists_isLongestFront (begins_with_head head) (isNumeral_digit first)
  obtain ⟨value, parsed, spells⟩ := longest.fits.exists_value
  obtain ⟨whole, second, number⟩ := longest.scanLexeme_numeral spells
  refine ⟨c.scan_skipBlanks.symm, d, value, longest, longest.taken_eq ⟨x, head, first⟩, parsed,
    fun all => ?_, fun behind split => ?_, fun x behind point split => ?_⟩
  · exact failsBehind_of_scanLexeme plain (whole all)
  · exact failsBehind_of_scanLexeme plain (second behind split)
  · exact takes_of_scanLexeme plain (number x behind point split)

namespace Lexer

theorem on_performAll (s : Source) (calls : List Call) :
    ((ofSource s).performAll calls).cursor.On s.content.toList := by
  rw [((follows_start s).performAll calls).stands.cursor]
  exact (afterReads_invariant s _).on

/-- Wherever in a source a lexer has been brought to, if a digit comes next, the scan goes over the
longest numeral there and no further: it fails where that is all that is left and where a point
follows, and else finds the number that the numeral stands for. -/
theorem scan_longest_numeral (s : Source) (calls : List Call)
    (digit : ∃ x ∈ ((ofSource s).performAll calls).cursor.rest.head?, x.isDigit) :
    let c := ((ofSource s).performAll calls).cursor
    c = s.cursor.advance c.position ∧
      ∃ d value, IsLongestFront IsNumeral c.rest d ∧
        (NumberRun.ofText c.rest).taken = d ∧ Decimal.ofText? d = some value ∧
        (c.rest = d → c.FailsBehind d.length .unexpectedEnd) ∧
        (∀ behind, c.rest = d ++ '.' :: behind → c.FailsBehind d.length .unexpectedDot) ∧
        (∀ x behind, x ≠ '.' → c.rest = d ++ x :: behind →
          c.Takes d.length (.number (.ofDecimal value))) := by
  intro c
  have here : c.skipBlanks = c := by
    obtain ⟨x, head, first⟩ := digit
    exact Cursor.skipBlanks_of_first (forall_head head (not_isBlank_of_isDigit first))
  have scanned := c.scan_numeral_behind_blanks (by rwa [here])
  rw [here] at scanned
  exact ⟨(on_performAll s calls).reached.symm, scanned.2⟩

theorem scan_longest_numeral_last_point :
    let c := ((ofSource (.anonymous "\x7b1.2.")).performAll [.next]).cursor
    (∃ x ∈ c.rest.head?, x.isDigit) ∧ c.FailsBehind 3 .unexpectedDot := by
  intro c
  have text : c.rest = ['1', '.', '2', '.'] := by decide +kernel
  have digit : ∃ x ∈ c.rest.head?, x.isDigit := ⟨'1', by rw [text]; rfl, rfl⟩
  obtain ⟨-, d, value, longest, -, parsed, -, second, -⟩ := scan_longest_numeral _ _ digit
  have part : d ≠ c.rest := by
    rintro rfl
    rw [text] at parsed
    cases parsed
  have numeral : IsNumeral ['1', '.', '2'] :=
    .decimal (List.cons_ne_nil '1' []) (by simp [AllDigits]) (by simp [AllDigits])
  have within := longest.longest _ (text ▸ ⟨['.'], rfl⟩) numeral
  obtain ⟨x, behind, split⟩ := longest.exists_next part
  have same : ['1', '.', '2'] = d := by
    apply within.eq_of_length_le
    have total := congrArg List.length (text.symm.trans split)
    simp only [List.length_append, List.length_cons, List.length_nil] at total ⊢
    omega
  subst same
  exact ⟨digit, second [] text⟩

end Lexer

end TemplateLexer
