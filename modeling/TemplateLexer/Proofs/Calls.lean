import TemplateLexer.Proofs.Reads

/-! Any row of calls of a lexer. However looking ahead, reading and iterating are mixed, every
result is handed out once and in order: the calls go along the reads of a lexer that does nothing
else. -/
namespace TemplateLexer.Lexer

abbrev Exchange := Call × Option ScanResult

def transcript (l : Lexer) : List Call → List Exchange
  | [] => []
  | call :: calls => (call, (l.perform call).1) :: (l.perform call).2.transcript calls

def performAll (l : Lexer) (calls : List Call) : Lexer :=
  calls.foldl (fun l call => (l.perform call).2) l

/-- The results that are handed out for good. What was only looked at comes again. -/
def consumed (history : List Exchange) : List ScanResult :=
  history.filterMap fun (call, answer) => if call = .peek then none else answer

def yieldsError : Exchange → Bool
  | (.iterate, some (.error _)) => true
  | _ => false

theorem yieldsError_iff {exchange : Exchange} :
    yieldsError exchange ↔ ∃ e, exchange = (.iterate, some (.error e)) := by
  unfold yieldsError
  split <;> simp_all

/-- What a fresh lexer reads after `n` reads. -/
def nthRead (s : Source) (n : Nat) : ScanResult := (afterReads s n).next.1

section Call

variable {s : Source} {n : Nat} {l : Lexer}

theorem scan_afterReads (s : Source) (n : Nat) :
    (afterReads s n).cursor.scan = (nthRead s n, (afterReads s (n + 1)).cursor) := by
  rw [nthRead, afterReads, next_of_unbuffered (afterReads_invariant s n).unbuffered]

/-- The lexer stands where `n` reads lead, or it has looked one scan further. -/
inductive At (s : Source) (n : Nat) : Lexer → Prop where
  | plain {halted : Bool} : At s n ⟨(afterReads s n).cursor, none, halted⟩
  | ahead {halted : Bool} : At s n ⟨(afterReads s (n + 1)).cursor, some (nthRead s n), halted⟩

theorem At.peek (stands : At s n l) :
    l.peek = (nthRead s n, ⟨(afterReads s (n + 1)).cursor, some (nthRead s n), l.halted⟩) := by
  cases stands with
  | plain => simp [Lexer.peek, scan_afterReads]
  | ahead => rfl

theorem At.next (stands : At s n l) :
    l.next = (nthRead s n, ⟨(afterReads s (n + 1)).cursor, none, l.halted⟩) := by
  cases stands with
  | plain => simp [Lexer.next, scan_afterReads]
  | ahead => rfl

/-- The iteration has nothing to hand out. -/
def Stopped (l : Lexer) : Prop := l.halted ∨ l.buffered = none ∧ l.atEnd

theorem iterate_of_stopped (stopped : l.Stopped) : l.iterate = (none, l) := by
  rw [iterate, if_pos]
  simpa [Stopped] using stopped

theorem At.iterate (stands : At s n l) (going : ¬ l.Stopped) :
    l.iterate = (some (nthRead s n),
      ⟨(afterReads s (n + 1)).cursor, none, !(nthRead s n).isOk⟩) := by
  rw [Lexer.iterate, if_neg, stands.next]
  simpa [Stopped] using going

theorem At.iterate_eq_none_iff (stands : At s n l) : l.iterate.1 = none ↔ l.Stopped := by
  by_cases stopped : l.Stopped
  · simp [iterate_of_stopped stopped, stopped]
  · simp [stands.iterate stopped, stopped]

theorem At.cursor (stands : At s n l) :
    l.cursor = (afterReads s (if l.buffered.isSome then n + 1 else n)).cursor := by
  cases stands <;> rfl

end Call

theorem consumed_append (first second : List Exchange) :
    consumed (first ++ second) = consumed first ++ consumed second := by
  simp [consumed]

def Quiet (history : List Exchange) : Prop :=
  history.Pairwise fun earlier later => yieldsError earlier → later.1 = .iterate → later.2 = none

/-- A peek was made, and no result has been handed out since. -/
def LookedAhead (history : List Exchange) : Prop :=
  ∃ before answer after, history = before ++ (.peek, answer) :: after ∧ consumed after = []

/-- The history of a fresh lexer goes along the reads, and the lexer is where it should be. -/
structure Follows (s : Source) (history : List Exchange) (l : Lexer) : Prop where
  results : consumed history = (List.range (consumed history).length).map (nthRead s)
  stands : At s (consumed history).length l
  buffered : l.buffered.isSome ↔ LookedAhead history
  halted : l.halted = history.any yieldsError
  quiet : Quiet history

section Row

variable {s : Source} {history : List Exchange} {l : Lexer}

theorem lookedAhead_peek (history : List Exchange) (answer : Option ScanResult) :
    LookedAhead (history ++ [(.peek, answer)]) :=
  ⟨history, answer, [], rfl, rfl⟩

theorem lookedAhead_concat_iff {call : Call} {answer : Option ScanResult} (reads : call ≠ .peek) :
    LookedAhead (history ++ [(call, answer)]) ↔ LookedAhead history ∧ answer = none := by
  have last (after : List Exchange) :
      consumed (after ++ [(call, answer)]) = [] ↔ consumed after = [] ∧ answer = none := by
    rw [consumed_append, List.append_eq_nil_iff]
    simp [consumed, reads]
  constructor
  · rintro ⟨before, ahead, after, split, unread⟩
    rcases List.eq_nil_or_concat' after with rfl | ⟨after, exchange, rfl⟩
    · obtain ⟨-, same⟩ := List.append_inj' split rfl
      cases same
      contradiction
    · rw [← List.cons_append, ← List.append_assoc] at split
      obtain ⟨rfl, same⟩ := List.append_inj' split rfl
      cases same
      obtain ⟨unread, none⟩ := (last after).mp unread
      exact ⟨⟨before, ahead, after, rfl, unread⟩, none⟩
  · rintro ⟨⟨before, ahead, after, rfl, unread⟩, none⟩
    exact ⟨before, ahead, after ++ [(call, answer)], by simp, (last after).mpr ⟨unread, none⟩⟩

theorem follows_start (s : Source) : Follows s [] (ofSource s) :=
  ⟨rfl, .plain, by simp [ofSource, ofCursor, LookedAhead], rfl, .nil⟩

theorem Quiet.concat {exchange : Exchange} (quiet : Quiet history)
    (last : history.any yieldsError → exchange.1 = .iterate → exchange.2 = none) :
    Quiet (history ++ [exchange]) := by
  refine List.pairwise_append.mpr ⟨quiet, List.pairwise_singleton .., ?_⟩
  intro earlier member later only error
  obtain rfl := List.mem_singleton.mp only
  exact last (List.any_eq_true.mpr ⟨earlier, member, error⟩)

theorem Follows.results_concat (follows : Follows s history l) {call : Call}
    (reads : call ≠ .peek) :
    let k := (consumed history).length
    consumed (history ++ [(call, some (nthRead s k))]) = (List.range (k + 1)).map (nthRead s) := by
  intro k
  have one : consumed [(call, some (nthRead s k))] = [nthRead s k] := by simp [consumed, reads]
  rw [consumed_append, one, follows.results, List.range_succ, List.map_append]
  rfl

theorem Follows.peek (follows : Follows s history l) :
    Follows s (history ++ [(.peek, some l.peek.1)]) l.peek.2 := by
  have same : consumed (history ++ [(.peek, some l.peek.1)]) = consumed history := by
    simp [consumed]
  have ahead := lookedAhead_peek history (some l.peek.1)
  rw [follows.stands.peek] at same ahead ⊢
  refine ⟨by rw [same]; exact follows.results, by rw [same]; exact .ahead, by simpa using ahead,
    ?_, ?_⟩
  · simp [follows.halted, yieldsError]
  · exact follows.quiet.concat (by simp)

theorem Follows.next (follows : Follows s history l) :
    Follows s (history ++ [(.next, some l.next.1)]) l.next.2 := by
  have reads : Call.next ≠ .peek := by simp
  have results := follows.results_concat reads
  rw [follows.stands.next]
  refine ⟨by simp [results], by simpa [results] using .plain, by simp [lookedAhead_concat_iff reads],
    ?_, ?_⟩
  · simp [follows.halted, yieldsError]
  · exact follows.quiet.concat (by simp)

theorem Follows.iterate (follows : Follows s history l) :
    Follows s (history ++ [(.iterate, l.iterate.1)]) l.iterate.2 := by
  have reads : Call.iterate ≠ .peek := by simp
  by_cases stopped : l.Stopped
  · have same : consumed (history ++ [(.iterate, none)]) = consumed history := by simp [consumed]
    rw [iterate_of_stopped stopped]
    refine ⟨by rw [same]; exact follows.results, by rw [same]; exact follows.stands,
      by simpa [lookedAhead_concat_iff reads] using follows.buffered, ?_, ?_⟩
    · simp [follows.halted, yieldsError]
    · exact follows.quiet.concat (by simp)
  · have results := follows.results_concat reads
    rw [follows.stands.iterate stopped]
    have unhalted : history.any yieldsError = false := by
      rw [← follows.halted]
      exact Bool.eq_false_iff.mpr fun halted => stopped (.inl halted)
    refine ⟨by simp [results], by simpa [results] using .plain,
      by simp [lookedAhead_concat_iff reads], ?_, ?_⟩
    · cases nthRead s (consumed history).length <;>
        simp [unhalted, yieldsError, Except.isOk, Except.toBool]
    · exact follows.quiet.concat (by simp [unhalted])

theorem Follows.perform (follows : Follows s history l) (call : Call) :
    Follows s (history ++ [(call, (l.perform call).1)]) (l.perform call).2 := by
  cases call with
  | peek => exact follows.peek
  | next => exact follows.next
  | iterate => exact follows.iterate

theorem Follows.performAll (follows : Follows s history l) (calls : List Call) :
    Follows s (history ++ l.transcript calls) (l.performAll calls) := by
  induction calls generalizing history l with
  | nil => simpa [transcript, Lexer.performAll] using follows
  | cons call calls ih =>
    have later := ih (follows.perform call)
    rwa [List.append_assoc] at later

theorem Quiet.countP_le (quiet : Quiet history) : history.countP yieldsError ≤ 1 := by
  induction quiet with
  | nil => simp
  | @cons earlier history later _ ih =>
    by_cases error : yieldsError earlier
    · have none : history.countP yieldsError = 0 := by
        rw [List.countP_eq_zero]
        intro exchange member again
        obtain ⟨e, rfl⟩ := yieldsError_iff.mp again
        cases later _ member error rfl
      simp [error, none]
    · simpa [error] using ih

end Row

/-- However the ways to call a fresh lexer are mixed, with `k` results handed out so far: these are
the first `k` reads; the next one is what there is to look at; the cursor stands behind as many
scans or, with a result in the buffer, one more; the buffer is full exactly if there was a peek since
the last result was handed out; the iteration hands out nothing exactly where it has handed out an
error or where the buffer is empty and the text at its end; and it hands out at most one error, with
nothing behind it. -/
theorem transcript_follows_reads (s : Source) (calls : List Call) :
    let history := (ofSource s).transcript calls
    let l := (ofSource s).performAll calls
    let k := (consumed history).length
    consumed history = (List.range k).map (nthRead s) ∧
      l.peek.1 = nthRead s k ∧
      l.cursor = (afterReads s (if l.buffered.isSome then k + 1 else k)).cursor ∧
      (l.buffered.isSome ↔ LookedAhead history) ∧
      (l.iterate.1 = none ↔ history.any yieldsError ∨ l.buffered = none ∧ l.atEnd) ∧
      history.countP yieldsError ≤ 1 ∧
      history.Pairwise fun earlier later =>
        yieldsError earlier → later.1 = .iterate → later.2 = none := by
  intro history l k
  have follows : Follows s history l := (follows_start s).performAll calls
  refine ⟨follows.results, ?_, follows.stands.cursor, follows.buffered, ?_,
    follows.quiet.countP_le, follows.quiet⟩
  · rw [follows.stands.peek]
  · rw [follows.stands.iterate_eq_none_iff, Stopped, follows.halted]

end TemplateLexer.Lexer
