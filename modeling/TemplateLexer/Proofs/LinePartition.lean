import Mathlib.Data.Nat.Count
import TemplateLexer.Proofs.LineAgreement

/-! The line table as a partition of the source. Its spans lie end to end over the bytes and part the
text between characters; there is one for each terminator and one for what stands behind the last;
and a line is what its span cuts out, less the terminator. -/
namespace TemplateLexer

/-- Spans that lie end to end over the bytes from one to another. -/
inductive Tiles : Nat → List ByteSpan → Nat → Prop where
  | nil {stop : Nat} : Tiles stop [] stop
  | cons {start middle stop : Nat} {spans : List ByteSpan} (forward : start ≤ middle)
      (later : Tiles middle spans stop) : Tiles start (⟨start, middle⟩ :: spans) stop

def terminators : List (List Char) := [['\n'], ['\r'], ['\r', '\n']]

/-- A terminator ends with the character at `i`. A carriage return with a line feed behind it is only
half of one. -/
def EndsLine (text : List Char) (i : Nat) : Prop := text[i]? = some '\n' ∨ LoneReturn text i

instance (text : List Char) : DecidablePred (EndsLine text) :=
  fun _ => inferInstanceAs (Decidable (_ ∨ _ ∧ _))

def terminatorCount (text : List Char) : Nat := Nat.count (EndsLine text) text.length

section Lines

variable {text : List Char} {c : Char}

theorem endsLine_zero : EndsLine (c :: text) 0 ↔ c = '\n' ∨ c = '\r' ∧ text.head? ≠ some '\n' := by
  simp [EndsLine, LoneReturn, List.head?_eq_getElem?]

theorem terminatorCount_cons : terminatorCount (c :: text) =
    terminatorCount text + if EndsLine (c :: text) 0 then 1 else 0 :=
  Nat.count_succ' (EndsLine (c :: text)) text.length

/-- Every terminator ends one line, and one more line stands behind the last. -/
theorem length_linesFrom (begun text : List Char) :
    (linesFrom begun text).length = terminatorCount text + 1 := by
  induction text using text_induction generalizing begun with
  | nil => rfl
  | pair text ih => simp [terminatorCount_cons, endsLine_zero, ih]
  | feed text ih => simp [terminatorCount_cons, endsLine_zero, ih]
  | lone text single ih =>
    simp [linesFrom_lone single, terminatorCount_cons, endsLine_zero, single, ih]
  | plain c text inside ih =>
    have neither : ¬ EndsLine (c :: text) 0 := by
      rw [endsLine_zero]
      exact fun ends => inside (ends.imp id And.left)
    simp [linesFrom_plain inside, terminatorCount_cons, neither, ih]

example : terminatorCount ['\n', '\r', '\r', '\n', 'a'] = 3 := rfl

inductive Ended : List Line → Prop where
  | last (text : List Char) : Ended [⟨text, []⟩]
  | cons {line : Line} {lines : List Line} (valid : line.terminator ∈ terminators)
      (later : Ended lines) : Ended (line :: lines)

theorem ended_linesFrom (begun text : List Char) : Ended (linesFrom begun text) := by
  induction text using text_induction generalizing begun with
  | nil => exact .last begun
  | pair text ih => exact .cons (by simp [terminators]) (ih [])
  | feed text ih =>
    rw [linesFrom_feed]
    exact .cons (by simp [terminators]) (ih [])
  | lone text single ih =>
    rw [linesFrom_lone single]
    exact .cons (by simp [terminators]) (ih [])
  | plain c text inside ih =>
    rw [linesFrom_plain inside]
    exact ih (begun ++ [c])

theorem Ended.ne_nil {lines : List Line} (ended : Ended lines) : lines ≠ [] := by
  cases ended <;> simp

theorem Ended.terminator {lines : List Line} (ended : Ended lines) {n : Nat} {line : Line}
    (found : lines[n]? = some line) :
    if n + 1 = lines.length then line.terminator = [] else line.terminator ∈ terminators := by
  induction ended generalizing n with
  | last text =>
    cases n with
    | zero =>
      obtain rfl : ⟨text, []⟩ = line := by simpa using found
      rfl
    | succ n => cases found
  | @cons first lines valid later ih =>
    cases n with
    | zero =>
      obtain rfl : first = line := by simpa using found
      have more : 0 + 1 ≠ (first :: lines).length := by simpa using later.ne_nil
      rwa [if_neg more]
    | succ n => simpa using ih (by simpa using found)

end Lines

theorem utf8ByteSize_ofList_eq (text : List Char) :
    (String.ofList text).utf8ByteSize = byteLength text := by
  induction text with
  | nil => rfl
  | cons c text ih =>
    rw [← List.singleton_append, String.ofList_append, String.utf8ByteSize_append, ih]
    simp

theorem isValid_of_isPrefix {front : List Char} {content : String}
    (begins : front <+: content.toList) : (⟨byteLength front⟩ : String.Pos.Raw).IsValid content := by
  obtain ⟨back, whole⟩ := begins
  apply String.Pos.Raw.isValid_iff_exists_append.mpr
  refine ⟨String.ofList front, String.ofList back, ?_, ?_⟩
  · rw [← String.ofList_append, whole, String.ofList_toList]
  · rw [String.rawEndPos, utf8ByteSize_ofList_eq]

theorem tiles_spansFrom (start : Nat) (lines : List Line) :
    Tiles start (spansFrom start lines) (start + byteLength (lines.flatMap Line.written)) := by
  induction lines generalizing start with
  | nil => exact .nil
  | cons line lines ih =>
    have later := ih (start + byteLength line.written)
    rw [Nat.add_assoc, ← byteLength_append] at later
    exact .cons (Nat.le_add_right ..) later

theorem exists_fronts_of_mem_spansFrom {span : ByteSpan} (front : List Char) (lines : List Line)
    (member : span ∈ spansFrom (byteLength front) lines) :
    ∃ before upTo, span = ⟨byteLength before, byteLength upTo⟩ ∧
      before <+: upTo ∧ upTo <+: front ++ lines.flatMap Line.written := by
  induction lines generalizing front with
  | nil => cases member
  | cons line lines ih =>
    rw [List.flatMap_cons, ← List.append_assoc]
    rcases List.mem_cons.mp member with rfl | later
    · exact ⟨front, front ++ line.written, by simp, List.prefix_append .., List.prefix_append ..⟩
    · rw [← byteLength_append] at later
      exact ih (front ++ line.written) later

namespace Source

variable {s : Source}

theorem tiles_lineSpans (s : Source) : Tiles 0 s.lineSpans s.content.utf8ByteSize := by
  have tiles := tiles_spansFrom 0 s.lines
  rwa [flatMap_written_lines, ← lineSpans_eq, Nat.zero_add, ← utf8ByteSize_ofList_eq,
    String.ofList_toList] at tiles

theorem isValid_of_mem_lineSpans {span : ByteSpan} (member : span ∈ s.lineSpans) :
    (⟨span.start⟩ : String.Pos.Raw).IsValid s.content ∧
      (⟨span.stop⟩ : String.Pos.Raw).IsValid s.content := by
  rw [lineSpans_eq] at member
  obtain ⟨before, upTo, rfl, behind, inside⟩ := exists_fronts_of_mem_spansFrom [] s.lines member
  rw [List.nil_append, flatMap_written_lines] at inside
  exact ⟨isValid_of_isPrefix (behind.trans inside), isValid_of_isPrefix inside⟩

/-- The line table of a source is a lossless partition of it. The spans lie end to end from the first
byte to the last and part the text between characters. There is one line more than there are
terminators, and the numbers of lines are those from 1 up to their count. Each span cuts out its line
with the terminator of that line, none for the last; the line itself holds no terminator; and lines
and terminators together are the source. -/
theorem lines_partition_source (s : Source) :
    let text := s.content.toList
    Tiles 0 s.lineSpans s.content.utf8ByteSize ∧
      (∀ span ∈ s.lineSpans, (⟨span.start⟩ : String.Pos.Raw).IsValid s.content ∧
        (⟨span.stop⟩ : String.Pos.Raw).IsValid s.content) ∧
      s.lineCount = 1 + terminatorCount text ∧
      (∀ number, (s.line? number).isSome ↔ 1 ≤ number ∧ number ≤ s.lineCount) ∧
      ∃ lines : List Line, lines.length = s.lineCount ∧ lines.flatMap Line.written = text ∧
        ∀ n line, lines[n]? = some line →
          s.line? (n + 1) = some (String.ofList line.text) ∧
          (∃ span, s.lineSpans[n]? = some span ∧ span.slice? text = some line.written) ∧
          (∀ c ∈ line.text, c ≠ '\n' ∧ c ≠ '\r') ∧
          if n + 1 = s.lineCount then line.terminator = [] else line.terminator ∈ terminators := by
  intro text
  refine ⟨s.tiles_lineSpans, fun span => isValid_of_mem_lineSpans, ?_, fun _ => isSome_line?_iff,
    s.lines, lineCount_eq.symm, flatMap_written_lines, fun n line found => ⟨?_, ?_,
      fun c member => ?_, ?_⟩⟩
  · rw [lineCount_eq, Nat.add_comm]
    exact length_linesFrom [] text
  · rw [line?_succ, found]
    rfl
  · have cut := slice_lineSpans (s := s) n
    rw [found] at cut
    exact Option.bind_eq_some_iff.mp cut
  · exact not_or.mp ((valid_of_mem_lines (List.mem_of_getElem? found)).plain c member)
  · rw [lineCount_eq]
    exact (ended_linesFrom [] text).terminator found

end Source

end TemplateLexer
