import TemplateLexer.Proofs.LineAgreement
import TemplateLexer.Proofs.Progress
import TemplateLexer.Report.Diagnostic
import TemplateLexer.Report.Sink

/-! Showing the errors of a tokenization. An error lies in a line that the source has, and its line
number fits the gutter; so all that can keep it from being shown is the caret, which stands one
place to the right for each column in front of it, and three more for each tab. -/
namespace TemplateLexer

namespace Excerpt

theorem length_flatMap_cell (text : List Char) :
    (text.flatMap cell).length = text.length + 3 * text.count '\t' := by
  induction text with
  | nil => rfl
  | cons c text ih =>
    rw [List.flatMap_cons, List.length_append, ih, List.length_cons]
    by_cases tab : c = '\t'
    · subst tab
      rw [List.count_cons_self, cell, if_pos rfl, List.length_replicate]
      omega
    · rw [List.count_cons_of_ne tab, cell, if_neg tab, List.length_singleton]
      omega

/-- Each column in front of the caret takes one place, and one that holds a tab takes four. -/
theorem caretOffset_eq {e : Excerpt} {line : String}
    (found : e.source.line? e.location.line = some line) :
    e.caretOffset = e.location.column - 1 +
      3 * (line.toList.take (e.location.column - 1)).count '\t' := by
  simp only [caretOffset, found, Option.getD_some, length_flatMap_cell, List.length_take]
  omega

theorem digitCount_le {m n : Nat} (le : m ≤ n) : digitCount m ≤ digitCount n := by
  have base : 1 < 10 := by decide
  have fits : n < 10 ^ digitCount n :=
    (Nat.length_toDigits_le_iff base Nat.length_toDigits_pos).mp le_rfl
  exact (Nat.length_toDigits_le_iff base Nat.length_toDigits_pos).mpr (le.trans_lt fits)

theorem digitCount_le_twenty {n : Nat} (word : n ≤ 0xffffffffffffffff) : digitCount n ≤ 20 :=
  (Nat.length_toDigits_le_iff (by decide) (by decide)).mpr (word.trans_lt (by decide))

end Excerpt

theorem Location.column_afterAll_le (l : Location) (text : List Char) :
    (l.afterAll text).column ≤ max l.column 1 + text.length := by
  induction text generalizing l with
  | nil => exact Nat.le_max_left ..
  | cons c text ih =>
    have later := ih (l.after c)
    have moved : (l.after c).column ≤ max l.column 1 + 1 := by
      unfold after
      split <;> simp only <;> omega
    rw [afterAll_cons, List.length_cons]
    omega

theorem Cursor.location_of_scan {c stop : Cursor} {e : ScanError}
    (read : c.scan = (.error e, stop)) : e.location = stop.location := by
  obtain ⟨blanks, behind, split, blank, first⟩ := c.exists_blanks
  obtain ⟨-, -, -, location⟩ := (scan_eq_error_iff split blank first).mp read
  exact location

namespace Source

variable {s : Source} {e : ScanError}

theorem mem_received_iff : e ∈ (s.tokenizeInto (.storage [])).2.received ↔
    s.tokenize.error? = some e := by
  cases failed : s.tokenize.error? <;>
    simp [tokenizeInto, failed, Sink.receive, Sink.received, eq_comm]

theorem exists_location_of_error (failed : s.tokenize.error? = some e) :
    ∃ p, e.location = (s.cursorAfter p).location := by
  obtain ⟨-, halt⟩ := Lexer.tokenize_reads s
  obtain ⟨e', found, -, read⟩ := halt.resolve_left (by simp [failed])
  obtain rfl : e = e' := Option.some.inj (failed.symm.trans found)
  have on := (Lexer.afterReads_invariant s (s.tokenize.tokens.length + 1)).on
  have scanned := Lexer.scan_afterReads s s.tokenize.tokens.length
  rw [read] at scanned
  refine ⟨(Lexer.afterReads s (s.tokenize.tokens.length + 1)).cursor.position, ?_⟩
  rw [Cursor.location_of_scan scanned, cursorAfter_eq]
  exact congrArg Cursor.location on.reached.symm

theorem line_cursorAfter (s : Source) (p : Nat) :
    (s.cursorAfter p).location.line = (s.content.toList.take p).count '\n' + 1 := by
  rw [location_cursorAfter, Location.line_afterAll, Nat.add_comm]
  rfl

/-- Every place that the cursor comes to lies in a line of the source. -/
theorem line_cursorAfter_le_lineCount (s : Source) (p : Nat) :
    (s.cursorAfter p).location.line ≤ s.lineCount := by
  rw [line_cursorAfter, lineCount_eq]
  exact Nat.lt_of_le_of_lt ((List.take_sublist p _).count_le '\n') (count_feed_lt_length [] _)

theorem line_cursorAfter_le (s : Source) (p : Nat) :
    (s.cursorAfter p).location.line ≤ s.content.toList.length + 1 := by
  rw [line_cursorAfter]
  exact Nat.succ_le_succ (List.count_le_length.trans (List.length_take_le' ..))

theorem column_cursorAfter_le (s : Source) (p : Nat) :
    (s.cursorAfter p).location.column ≤ s.content.toList.length + 1 := by
  have bound := Location.column_afterAll_le .start (s.content.toList.take p)
  have start : max Location.start.column 1 = 1 := rfl
  rw [List.length_take, start] at bound
  rw [location_cursorAfter]
  omega

end Source

theorem ScanError.exists_diagnostic_iff {s : Source} {e : ScanError} {line : String}
    (found : s.line? e.location.line = some line) :
    (∃ shown, e.diagnostic s = .ok shown) ↔
      e.location.column - 1 + 3 * (line.toList.take (e.location.column - 1)).count '\t' ≤ 65535 := by
  have offset : (e.excerpt s).caretOffset = e.location.column - 1 +
      3 * (line.toList.take (e.location.column - 1)).count '\t' :=
    Excerpt.caretOffset_eq (e := e.excerpt s) found
  rw [diagnostic, Excerpt.render, offset, Excerpt.caretLimit]
  split
  next near => simp [near, Except.map]
  next far => simp [far, Except.map]

/-- An error that a tokenization sends lies in a line of its source. That line and all before it are
there, and the gutter has room for their numbers. The error can be shown exactly if the columns in
front of it, with three more for each tab among them, are at most 65535: always, if the source has
fewer than 16384 characters. -/
theorem diagnostic_shown_iff (s : Source) (e : ScanError)
    (sent : e ∈ (s.tokenizeInto (.storage [])).2.received) :
    (∀ number, 1 ≤ number → number ≤ e.location.line →
      (∃ line, s.line? number = some line) ∧
        Excerpt.digitCount number ≤ (e.excerpt s).width) ∧
      (s.content.toList.length < 0xffffffffffffffff → (e.excerpt s).width ≤ 20) ∧
      (∃ line, s.line? e.location.line = some line ∧
        ((∃ shown, e.diagnostic s = .ok shown) ↔ e.location.column - 1 +
          3 * (line.toList.take (e.location.column - 1)).count '\t' ≤ 65535)) ∧
      (s.content.toList.length < 16384 → ∃ shown, e.diagnostic s = .ok shown) := by
  obtain ⟨p, location⟩ := Source.exists_location_of_error (Source.mem_received_iff.mp sent)
  have first : 1 ≤ e.location.line := by
    rw [location, Source.line_cursorAfter]
    exact Nat.le_add_left ..
  have last : e.location.line ≤ s.lineCount := location ▸ s.line_cursorAfter_le_lineCount p
  obtain ⟨line, found⟩ := Source.exists_line first last
  have shown := ScanError.exists_diagnostic_iff found
  refine ⟨fun number pos le => ⟨Source.exists_line pos (le.trans last), Excerpt.digitCount_le le⟩,
    fun small => ?_, ⟨line, found, shown⟩, fun short => ?_⟩
  · have row := s.line_cursorAfter_le p
    rw [← location] at row
    exact Excerpt.digitCount_le_twenty (row.trans small)
  · have column := s.column_cursorAfter_le p
    have tabs := List.count_le_length (a := '\t')
      (l := line.toList.take (e.location.column - 1))
    rw [← location] at column
    rw [List.length_take] at tabs
    rw [shown]
    omega

theorem diagnostic_shown_second_point :
    let s := Source.anonymous "\x7b\t1.2.3 \x7d"
    let e : ScanError := ⟨.unexpectedDot, ⟨1, 6⟩⟩
    e ∈ (s.tokenizeInto (.storage [])).2.received ∧ ∃ shown, e.diagnostic s = .ok shown := by
  intro s e
  have sent : e ∈ (s.tokenizeInto (.storage [])).2.received := by decide +kernel
  obtain ⟨-, -, -, short⟩ := diagnostic_shown_iff s e sent
  exact ⟨sent, short (by decide +kernel)⟩

theorem linesFrom_inline {begun text : List Char} (inline : ∀ c ∈ text, ¬ IsTerminator c) :
    linesFrom begun text = [⟨begun ++ text, []⟩] := by
  induction text generalizing begun with
  | nil => rw [linesFrom_nil, List.append_nil]
  | cons c text ih =>
    obtain ⟨first, later⟩ := List.forall_mem_cons.mp inline
    rw [linesFrom_plain first, ih later, List.append_assoc, List.singleton_append]

def Source.tabs (n : Nat) : Source := .anonymous (String.ofList (List.replicate n '\t'))

theorem tokenize_tabs {n : Nat} (pos : 0 < n) :
    (Source.tabs n).tokenize = ⟨[], some ⟨.unexpectedEnd, ⟨1, n + 1⟩⟩⟩ := by
  have rest : (Source.tabs n).cursor.rest = List.replicate n '\t' ++ [] := by
    simp [Source.tabs, Source.anonymous, Source.cursor, Cursor.ofString]
  have blank : ∀ c ∈ List.replicate n '\t', isBlank c := by simp [isBlank]
  have inline : '\n' ∉ List.replicate n '\t' := by simp
  have more : (Source.tabs n).cursor.rest ≠ [] := by simp [rest, pos.ne']
  have read := Cursor.scan_failed rest blank (by simp) (show scanLexeme [] = _ from rfl)
  have place := Cursor.location_advance_length rest
  rw [Location.afterAll_inline inline, List.length_replicate] at place
  rw [List.length_replicate, Nat.add_zero, place, Nat.add_comm] at read
  exact Cursor.tokenize_of_error more read

theorem line_tabs (n : Nat) :
    (Source.tabs n).line? 1 = some (String.ofList (List.replicate n '\t')) := by
  have inline : ∀ c ∈ List.replicate n '\t', ¬ IsTerminator c := by simp [IsTerminator]
  rw [Source.line?_succ, Source.lines]
  simp [Source.tabs, Source.anonymous, linesFrom_inline inline]

theorem exists_diagnostic_tabs_iff (n : Nat) :
    (∃ shown, ScanError.diagnostic ⟨.unexpectedEnd, ⟨1, n + 1⟩⟩ (Source.tabs n) = .ok shown) ↔
      4 * n ≤ 65535 := by
  have found : (Source.tabs n).line? (⟨.unexpectedEnd, ⟨1, n + 1⟩⟩ : ScanError).location.line = _ :=
    line_tabs n
  have tabs : ((List.replicate n '\t').take n).count '\t' = n := by simp
  rw [ScanError.exists_diagnostic_iff found, String.toList_ofList, Nat.add_sub_cancel, tabs]
  omega

/-- Behind 16384 tabs the caret would stand 65536 places to the right. -/
theorem diagnostic_not_shown_behind_tabs :
    let s := Source.tabs 16384
    let e : ScanError := ⟨.unexpectedEnd, ⟨1, 16385⟩⟩
    e ∈ (s.tokenizeInto (.storage [])).2.received ∧ ¬ ∃ shown, e.diagnostic s = .ok shown := by
  intro s e
  have failed : s.tokenize.error? = some e := congrArg Tokenization.error? (tokenize_tabs (by decide))
  refine ⟨Source.mem_received_iff.mpr failed, fun shown => ?_⟩
  exact absurd ((exists_diagnostic_tabs_iff 16384).mp shown) (by decide)

end TemplateLexer
