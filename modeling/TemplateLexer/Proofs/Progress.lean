import Mathlib.Order.Monotone.Basic
import TemplateLexer.Proofs.Failures
import TemplateLexer.Proofs.Iteration

/-! Reading on and on, past errors too. A read takes at least one character, unless it comes to the
end of the text or to a character that starts no token: from there on every read fails alike. So all
reads fail alike behind as many as the text has characters. -/
namespace TemplateLexer

/-- The faults that leave the cursor where a scan can only fail again. -/
def Fault.sticks : Fault → Bool
  | .unexpectedEnd | .unknownToken => true
  | _ => false

/-- The result comes again with every further scan. -/
def Stuck : ScanResult → Prop
  | .ok _ => False
  | .error e => e.fault.sticks

section Lexeme

variable {text : List Char} {n : Nat} {fault : Fault}

theorem FailsWith.length_pos (fails : FailsWith text n fault) (free : ¬ fault.sticks) : 0 < n := by
  cases fault with
  | unexpectedEnd | unknownToken => exact absurd rfl free
  | unmatched => exact fails.elim
  | unexpectedDot =>
    obtain ⟨whole, fraction, rest, -, -, -, -, rfl⟩ := fails
    omega
  | unknownOperator name =>
    obtain ⟨c, d, rest, -, -, -, -, rfl⟩ := fails
    exact Nat.one_pos
  | invalidEscape letter =>
    obtain ⟨quote, body, value, rest, -, -, -, -, rfl⟩ := fails
    omega

/-- Where a fault that sticks shows, there is the end of the text, or the very character that starts
no token. -/
theorem FailsWith.again (fails : FailsWith text n fault) (sticks : fault.sticks) :
    FailsWith (text.drop n) 0 fault ∧ (text.drop n = [] ∨ n = 0) := by
  cases fault with
  | unexpectedEnd =>
    obtain ⟨-, rfl⟩ := fails
    rw [List.drop_length]
    exact ⟨⟨.empty, rfl⟩, .inl rfl⟩
  | unknownToken =>
    obtain ⟨rfl, unknown⟩ := fails
    exact ⟨⟨rfl, unknown⟩, .inr rfl⟩
  | unmatched | unexpectedDot | unknownOperator | invalidEscape => cases sticks

end Lexeme

namespace Cursor

variable {c : Cursor}

theorem exists_length_of_scan (c : Cursor) :
    ∃ n ≤ c.rest.length, c.scan.2 = c.advance n ∧ (¬ Stuck c.scan.1 → 0 < n) := by
  obtain ⟨blanks, behind, split, blank, first⟩ := c.exists_blanks
  have total : c.rest.length = blanks.length + behind.length := by rw [split, List.length_append]
  have inside := length_scanLexeme_le behind
  have explained := scanLexeme_explained behind
  generalize scanned : scanLexeme behind = result at explained inside
  cases explained with
  | @found n lexeme reads =>
    have pos : 0 < (scanLexeme behind).length := length_pos_of_scanLexeme_ok (by rw [scanned]; rfl)
    rw [scanned] at pos
    rw [scan_found split blank first scanned]
    exact ⟨_, total ▸ Nat.add_le_add_left inside _, rfl, fun _ => Nat.add_pos_right _ pos⟩
  | @failed n fault fails =>
    rw [scan_failed split blank first scanned]
    exact ⟨_, total ▸ Nat.add_le_add_left inside _, rfl,
      fun free => Nat.add_pos_right _ (fails.length_pos free)⟩

theorem position_advance {n : Nat} (inside : n ≤ c.rest.length) :
    (c.advance n).position = c.position + n := by
  rw [position_advance_min, Nat.min_eq_left inside]

theorem position_le_scan (c : Cursor) : c.position ≤ c.scan.2.position := by
  obtain ⟨n, inside, moved, -⟩ := c.exists_length_of_scan
  rw [moved, position_advance inside]
  exact Nat.le_add_right ..

theorem position_lt_scan (free : ¬ Stuck c.scan.1) : c.position < c.scan.2.position := by
  obtain ⟨n, inside, moved, pos⟩ := c.exists_length_of_scan
  rw [moved, position_advance inside]
  exact Nat.lt_add_of_pos_right (pos free)

/-- Behind a scan that is stuck, the next one comes to the same and stays where it is. -/
theorem scan_of_stuck (stuck : Stuck c.scan.1) : c.scan.2.scan = c.scan := by
  obtain ⟨blanks, behind, split, blank, first⟩ := c.exists_blanks
  rcases read : c.scan with ⟨_ | e, stop⟩
  · rw [read] at stuck
    obtain ⟨n, fails, rfl, location⟩ := (scan_eq_error_iff split blank first).mp read
    obtain ⟨again, place⟩ := fails.again stuck
    have here : (c.advance (blanks.length + n)).rest = [] ++ behind.drop n := by
      rw [rest_advance, split, List.nil_append, ← List.drop_drop, List.drop_left]
    have next : ∀ x ∈ (behind.drop n).head?, ¬ isBlank x := by
      rcases place with ended | rfl
      · simp [ended]
      · exact first
    exact (scan_eq_error_iff here (by simp) next).mpr
      ⟨0, again, (advance_zero _).symm, location⟩
  · rw [read] at stuck
    exact stuck.elim

end Cursor

namespace Lexer

variable {s : Source} {k m : Nat}

theorem cursor_afterReads_succ (s : Source) (k : Nat) :
    (afterReads s (k + 1)).cursor = (afterReads s k).cursor.scan.2 := by
  rw [scan_afterReads]

theorem nthRead_eq (s : Source) (k : Nat) : nthRead s k = (afterReads s k).cursor.scan.1 := by
  rw [scan_afterReads]

theorem position_mono (s : Source) : Monotone fun k => (afterReads s k).cursor.position := by
  apply monotone_nat_of_le_succ
  intro k
  rw [cursor_afterReads_succ]
  exact Cursor.position_le_scan _

theorem position_lt_succ (free : ¬ Stuck (nthRead s k)) :
    (afterReads s k).cursor.position < (afterReads s (k + 1)).cursor.position := by
  rw [nthRead_eq] at free
  rw [cursor_afterReads_succ]
  exact Cursor.position_lt_scan free

theorem nthRead_of_stuck (stuck : Stuck (nthRead s k)) (later : k ≤ m) :
    nthRead s m = nthRead s k ∧ (afterReads s (m + 1)).cursor = (afterReads s (k + 1)).cursor := by
  induction m, later using Nat.le_induction with
  | base => exact ⟨rfl, rfl⟩
  | succ m _ ih =>
    obtain ⟨same, stays⟩ := ih
    rw [← same] at stuck ⊢
    rw [← stays]
    have again : (afterReads s (m + 1)).cursor.scan = (afterReads s m).cursor.scan := by
      rw [nthRead_eq] at stuck
      rw [cursor_afterReads_succ]
      exact Cursor.scan_of_stuck stuck
    rw [scan_afterReads, scan_afterReads] at again
    exact Prod.mk.inj again

theorem le_position (free : ∀ i < k, ¬ Stuck (nthRead s i)) :
    k ≤ (afterReads s k).cursor.position := by
  induction k with
  | zero => exact Nat.zero_le _
  | succ k ih =>
    have before := ih fun i inside => free i (Nat.lt_succ_of_lt inside)
    exact Nat.lt_of_le_of_lt before (position_lt_succ (free k (Nat.lt_succ_self k)))

theorem exists_stuck (s : Source) : ∃ k ≤ s.content.toList.length, Stuck (nthRead s k) := by
  by_contra none
  push Not at none
  have before := le_position (k := s.content.toList.length + 1)
    fun i inside => none i (Nat.le_of_lt_succ inside)
  exact absurd (afterReads_invariant s _).on.position_le (Nat.not_le_of_lt before)

theorem yields_afterReads {c stop : Cursor} {tokens : List Token} (yields : c.Yields tokens stop)
    (here : (afterReads s k).cursor = c) :
    (afterReads s (k + tokens.length)).cursor = stop ∧
      ∀ i token, tokens[i]? = some token → nthRead s (k + i) = .ok token := by
  induction yields generalizing k with
  | nil c => exact ⟨here, by simp⟩
  | @cons c next stop token tokens read _ ih =>
    have first := scan_afterReads s k
    rw [here, read] at first
    obtain ⟨result, moved⟩ := Prod.mk.inj first
    obtain ⟨last, later⟩ := ih moved.symm
    refine ⟨by rwa [Nat.add_right_comm] at last, fun i other inside => ?_⟩
    cases i with
    | zero =>
      obtain rfl : token = other := by simpa using inside
      exact result.symm
    | succ i =>
      rw [← Nat.add_assoc, Nat.add_right_comm]
      exact later i other (by simpa using inside)

/-- The tokens of a source are its first reads. Behind them the text is at its end, or there is the
read that fails. -/
theorem tokenize_reads (s : Source) :
    let m := s.tokenize.tokens.length
    s.tokenize.tokens.map .ok = (List.range m).map (nthRead s) ∧
      (s.tokenize.error? = none ∧ (afterReads s m).cursor.rest = [] ∨
        ∃ e, s.tokenize.error? = some e ∧ (afterReads s m).cursor.rest ≠ [] ∧
          nthRead s m = .error e) := by
  intro m
  obtain ⟨stop, yields, halted⟩ := s.exists_yields
  obtain ⟨last, reads⟩ := yields_afterReads (k := 0) yields rfl
  rw [Nat.zero_add] at last
  constructor
  · apply List.ext_getElem (by simp [m])
    intro i inside _
    have bound : i < s.tokenize.tokens.length := by simpa using inside
    simpa using (reads i _ (List.getElem?_eq_getElem bound)).symm
  · rw [nthRead_eq, last]
    cases failed : s.tokenize.error? with
    | none =>
      rw [failed] at halted
      exact .inl ⟨rfl, Cursor.tokenize_eq_nil_iff.mp halted⟩
    | some e =>
      rw [failed] at halted
      exact .inr ⟨e, rfl, Cursor.tokenize_eq_failed_iff.mp halted⟩

/-- Every item of a tokenization, the error included, accounts for a character. -/
theorem length_items_le (s : Source) : s.tokenize.items.length ≤ s.content.toList.length := by
  obtain ⟨reads, halt⟩ := tokenize_reads s
  have taken : s.tokenize.tokens.length ≤
      (afterReads s s.tokenize.tokens.length).cursor.position := by
    apply le_position
    intro i inside
    have read := congrArg (·[i]?) reads
    simp only [List.getElem?_map, List.getElem?_range inside, List.getElem?_eq_getElem inside,
      Option.map_some, Option.some.injEq] at read
    rw [← read]
    exact id
  have on := (afterReads_invariant s s.tokenize.tokens.length).on
  have bound := on.position_le
  rcases halt with ⟨clean, -⟩ | ⟨e, failed, more, -⟩
  · simp only [Tokenization.items, clean, Option.toList_none, List.map_nil, List.append_nil,
      List.length_map]
    omega
  · have left : 0 < (s.content.toList.drop
        (afterReads s s.tokenize.tokens.length).cursor.position).length := by
      rw [← on.rest_eq]
      exact List.length_pos_iff.mpr more
    rw [List.length_drop] at left
    simp only [Tokenization.items, failed, Option.toList_some, List.map_cons, List.map_nil,
      List.length_append, List.length_map, List.length_singleton]
    omega

/-- Reading a source of `n` characters, on and on: the cursor never moves back and stays in the
text; a read moves it on, unless it is stuck; behind a read that is stuck, all reads are the same and
move nothing; and behind `n` reads all further ones are so. The tokens of the source are its first
reads, at most `n`, behind which the text is at its end or a read fails; and an iteration ends behind
at most `n` items. -/
theorem reads_advance_until_stuck (s : Source) :
    let n := s.content.toList.length
    (∀ j k, j ≤ k → (afterReads s j).cursor.position ≤ (afterReads s k).cursor.position) ∧
      (∀ k, (afterReads s k).cursor.position ≤ n) ∧
      (∀ k, ¬ Stuck (nthRead s k) →
        (afterReads s k).cursor.position < (afterReads s (k + 1)).cursor.position) ∧
      (∀ k m, Stuck (nthRead s k) → k < m →
        nthRead s m = nthRead s k ∧ (afterReads s (m + 1)).cursor = (afterReads s m).cursor) ∧
      (∃ e, Stuck (.error e) ∧ ∀ k, n ≤ k → nthRead s k = .error e) ∧
      (∃ m ≤ n, s.tokenize.tokens.map .ok = (List.range m).map (nthRead s) ∧
        ((afterReads s m).atEnd ∨ ∃ e, nthRead s m = .error e)) ∧
      (ofSource s).drain.1.length ≤ n := by
  intro n
  refine ⟨fun j k before => position_mono s before,
    fun k => (afterReads_invariant s k).on.position_le,
    fun k => position_lt_succ, fun k m stuck later => ?_, ?_, ?_, ?_⟩
  · obtain ⟨i, rfl⟩ := Nat.exists_eq_add_of_lt later
    obtain ⟨same, stays⟩ := nthRead_of_stuck stuck later.le
    exact ⟨same, stays.trans (nthRead_of_stuck stuck (Nat.le_add_right k i)).2.symm⟩
  · obtain ⟨k, inside, stuck⟩ := exists_stuck s
    cases read : nthRead s k with
    | ok token => rw [read] at stuck; exact stuck.elim
    | error e =>
      refine ⟨e, read ▸ stuck, fun m later => ?_⟩
      rw [(nthRead_of_stuck stuck (inside.trans later)).1, read]
  · obtain ⟨reads, halt⟩ := tokenize_reads s
    have bound := length_items_le s
    simp only [Tokenization.items, List.length_append, List.length_map] at bound
    refine ⟨_, (Nat.le_add_right ..).trans bound, reads, ?_⟩
    rcases halt with ⟨-, ended⟩ | ⟨e, -, -, read⟩
    · exact .inl (by simp [atEnd, Cursor.atEnd, ended])
    · exact .inr ⟨e, read⟩
  · rw [drain_ofSource]
    exact length_items_le s

end Lexer

end TemplateLexer
