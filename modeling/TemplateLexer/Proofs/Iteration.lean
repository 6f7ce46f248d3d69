import TemplateLexer.Proofs.Calls
import TemplateLexer.Proofs.Concatenation

/-! Iterating over a source while also looking ahead. The iteration hands out what the tokenization
finds, whatever is looked at in between, unless the text was read to its end without an error: to
look ahead there puts the end of the text into the buffer as an error, and the iteration, which had
ended, hands it out. -/
namespace TemplateLexer

/-- The tokens in order and behind them the error, if there is one. -/
def Tokenization.items (t : Tokenization) : List ScanResult :=
  t.tokens.map .ok ++ t.error?.toList.map .error

theorem Tokenization.items_eq_nil_iff {t : Tokenization} : t.items = [] ↔ t = ⟨[], none⟩ := by
  rcases t with ⟨_ | _, _ | _⟩ <;> simp [items]

namespace Lexer

/-- The answers of the iteration in a row of calls. -/
def iterated (l : Lexer) (calls : List Call) : List (Option ScanResult) :=
  (l.transcript calls).filterMap fun (call, answer) => if call = .iterate then some answer else none

/-- What the iteration has still to hand out if it is not halted. -/
def toCome (l : Lexer) : List ScanResult :=
  match l.buffered with
  | none => l.cursor.tokenize.items
  | some result => result :: if result.isOk then l.cursor.tokenize.items else []

/-- The first rounds of an iteration over the items. -/
def rounds (items : List ScanResult) (n : Nat) : List (Option ScanResult) :=
  (List.range n).map (items[·]?)

theorem rounds_succ (items : List ScanResult) (n : Nat) :
    rounds items (n + 1) = items.head? :: rounds items.tail n := by
  simp [rounds, List.range_succ_eq_map, List.head?_eq_getElem?]

theorem rounds_nil (n : Nat) : rounds [] n = List.replicate n none := by
  simp [rounds, List.map_const']

theorem length_rounds (items : List ScanResult) (n : Nat) : (rounds items n).length = n := by
  simp [rounds]

section Call

variable {s : Source} {l : Lexer}

theorem peek_snd (l : Lexer) : l.peek.2 = ⟨l.peek.2.cursor, some l.peek.1, l.halted⟩ := by
  obtain ⟨cursor, _ | result, halted⟩ := l <;> rfl

theorem toCome_eq_nil_iff : l.toCome = [] ↔ l.buffered = none ∧ l.cursor.rest = [] := by
  obtain ⟨cursor, _ | result, halted⟩ := l
  · simp [toCome, Tokenization.items_eq_nil_iff, Cursor.tokenize_eq_nil_iff]
  · simp [toCome]

theorem toCome_peek (pending : l.toCome ≠ []) : l.peek.2.toCome = l.toCome := by
  obtain ⟨cursor, _ | result, halted⟩ := l
  · have more : cursor.rest ≠ [] := fun done => pending (toCome_eq_nil_iff.mpr ⟨rfl, done⟩)
    rcases scanned : cursor.scan with ⟨_ | _, stop⟩
    · simp [peek, scanned, toCome, Cursor.tokenize_of_error more scanned, Tokenization.items,
        Except.isOk, Except.toBool]
    · simp [peek, scanned, toCome, Cursor.tokenize_of_token more scanned, Tokenization.items,
        Except.isOk, Except.toBool]
  · rfl

theorem toCome_of_pending (pending : l.toCome ≠ []) :
    l.toCome = l.peek.1 :: if l.peek.1.isOk then l.peek.2.cursor.tokenize.items else [] := by
  rw [← toCome_peek pending, peek_snd]
  rfl

theorem toCome_peek_of_done (done : l.toCome = []) :
    l.peek.2.toCome = [.error ⟨.unexpectedEnd, l.cursor.location⟩] := by
  obtain ⟨unbuffered, ended⟩ := toCome_eq_nil_iff.mp done
  have read : l.cursor.scan = (.error ⟨.unexpectedEnd, _⟩, _) :=
    Cursor.scan_failed (show l.cursor.rest = [] ++ [] from ended) (by simp) (by simp) rfl
  rw [peek, unbuffered, read]
  simp [toCome, Except.isOk, Except.toBool]

theorem iterate_of_done (done : l.toCome = []) : l.iterate = (none, l) := by
  obtain ⟨unbuffered, ended⟩ := toCome_eq_nil_iff.mp done
  apply iterate_of_stopped
  exact .inr ⟨unbuffered, by simp [atEnd, Cursor.atEnd, ended]⟩

theorem iterate_of_pending (running : l.halted = false) (pending : l.toCome ≠ []) :
    l.iterate = (some l.peek.1, ⟨l.peek.2.cursor, none, !l.peek.1.isOk⟩) := by
  have going : ¬ (l.halted = true ∨ l.buffered.isNone = true ∧ l.atEnd = true) := by
    simpa [running, toCome_eq_nil_iff, atEnd, Cursor.atEnd] using pending
  rw [iterate, if_neg going]
  obtain ⟨cursor, _ | result, halted⟩ := l <;> rfl

theorem drain_fst (running : l.halted = false) : l.drain.1 = l.toCome := by
  induction bound : l.pending using Nat.strong_induction_on generalizing l with
  | _ n ih =>
    by_cases done : l.toCome = []
    · rw [drain_of_none (iterate_of_done done), done]
    have round := iterate_of_pending running done
    rw [drain_of_some round, toCome_of_pending done]
    by_cases ok : l.peek.1.isOk
    · rw [ih _ (bound ▸ pending_lt_of_iterate round) (by simp [ok]) rfl, if_pos ok]
      rfl
    · rw [drain_of_none (iterate_of_stopped (.inl (by simp [ok]))), if_neg ok]

theorem on_peek (on : l.cursor.On s.content.toList) : l.peek.2.cursor.On s.content.toList := by
  obtain ⟨cursor, _ | result, halted⟩ := l
  · exact on.scan
  · exact on

end Call

/-- A look ahead behind `n` rounds of the iteration, with another round behind it. -/
def lookBehind (n : Nat) : List Call := List.replicate n .iterate ++ [.peek, .iterate]

/-- All items are handed out without an error, and then there is a look ahead between two rounds. -/
def Late (items : List ScanResult) (calls : List Call) : Prop :=
  (∀ item ∈ items, item.isOk) ∧ (lookBehind items.length).Sublist calls

section Late

variable {item : ScanResult} {items : List ScanResult} {calls : List Call}

theorem not_late_nil (items : List ScanResult) : ¬ Late items [] := by
  simp [Late, lookBehind]

theorem late_peek (item : ScanResult) (items : List ScanResult) :
    Late (item :: items) (.peek :: calls) ↔ Late (item :: items) calls := by
  simp [Late, lookBehind, List.replicate_succ, List.cons_sublist_cons']

theorem late_peek_done : Late [] (.peek :: calls) ↔ .iterate ∈ calls := by
  simp [Late, lookBehind]

theorem late_iterate (ok : item.isOk) :
    Late (item :: items) (.iterate :: calls) ↔ Late items calls := by
  simp [Late, lookBehind, List.replicate_succ, ok]

theorem late_iterate_done : Late [] (.iterate :: calls) ↔ Late [] calls := by
  simp [Late, lookBehind, List.cons_sublist_cons']

theorem not_late_of_error (error : ¬ item.isOk) : ¬ Late (item :: items) calls :=
  fun late => error (late.1 item List.mem_cons_self)

end Late

/-- The answers are the expected ones, but for one of them, the first in question or one behind it,
that is the stray result where there was a late look ahead. -/
structure Disturbed (late : Prop) (first : Nat) (stray : ScanResult)
    (expected answers : List (Option ScanResult)) : Prop where
  kept : ¬ late → answers = expected
  changed : late → ∃ i, first ≤ i ∧ i < expected.length ∧ answers = expected.set i (some stray)

section Disturbed

variable {late : Prop} {first other : Nat} {stray : ScanResult}
  {expected answers : List (Option ScanResult)}

theorem Disturbed.of_kept (kept : answers = expected) (early : ¬ late) :
    Disturbed late first stray expected answers :=
  ⟨fun _ => kept, fun late => absurd late early⟩

theorem Disturbed.cons (disturbed : Disturbed late first stray expected answers)
    (answer : Option ScanResult) :
    Disturbed late (first + 1) stray (answer :: expected) (answer :: answers) := by
  refine ⟨fun early => by rw [disturbed.kept early], fun late => ?_⟩
  obtain ⟨i, behind, inside, rfl⟩ := disturbed.changed late
  exact ⟨i + 1, Nat.succ_le_succ behind, Nat.succ_lt_succ inside, rfl⟩

theorem Disturbed.from_le (disturbed : Disturbed late first stray expected answers)
    (before : other ≤ first) : Disturbed late other stray expected answers := by
  refine ⟨disturbed.kept, fun late => ?_⟩
  obtain ⟨i, behind, changed⟩ := disturbed.changed late
  exact ⟨i, before.trans behind, changed⟩

end Disturbed

section Row

variable {s : Source} {l : Lexer} {calls : List Call}

theorem iterated_iterate (l : Lexer) (calls : List Call) :
    l.iterated (.iterate :: calls) = l.iterate.1 :: l.iterate.2.iterated calls := by
  simp [iterated, transcript, perform]

theorem iterated_peek (l : Lexer) (calls : List Call) :
    l.iterated (.peek :: calls) = l.peek.2.iterated calls := by
  simp [iterated, transcript, perform]

theorem iterated_of_halted (halted : l.halted) (reading : .next ∉ calls) :
    l.iterated calls = List.replicate (calls.count .iterate) none := by
  induction calls generalizing l with
  | nil => rfl
  | cons call calls ih =>
    rw [List.mem_cons, not_or] at reading
    cases call with
    | next => exact absurd rfl reading.1
    | peek =>
      have still : l.peek.2.halted := by rw [peek_snd]; exact halted
      rw [iterated_peek, ih still reading.2]
      simp
    | iterate =>
      rw [iterated_iterate, iterate_of_stopped (.inl halted), ih halted reading.2]
      simp [List.replicate_succ]

theorem disturbed_peek_done {stray : ScanResult} {answers : List (Option ScanResult)}
    (kept : answers = rounds [stray] (calls.count .iterate)) :
    Disturbed (Late [] (.peek :: calls)) 0 stray (rounds [] (calls.count .iterate)) answers := by
  rw [late_peek_done]
  constructor
  · intro none
    rw [kept, List.count_eq_zero.mpr none]
    rfl
  · intro again
    obtain ⟨n, count⟩ := Nat.exists_eq_succ_of_ne_zero (List.count_pos_iff.mpr again).ne'
    refine ⟨0, le_rfl, by simp [length_rounds, count], ?_⟩
    rw [kept, count, rounds_succ, rounds_succ]
    rfl

/-- While the lexer runs, the iteration hands out what is to come. -/
theorem iterated_disturbed (on : l.cursor.On s.content.toList) (running : l.halted = false)
    (reading : .next ∉ calls) :
    Disturbed (Late l.toCome calls) l.toCome.length (.error ⟨.unexpectedEnd, s.endLocation⟩)
      (rounds l.toCome (calls.count .iterate)) (l.iterated calls) := by
  induction calls generalizing l with
  | nil => exact .of_kept rfl (not_late_nil _)
  | cons call calls ih =>
    rw [List.mem_cons, not_or] at reading
    cases call with
    | next => exact absurd rfl reading.1
    | peek =>
      have still : l.peek.2.halted = false := by rw [peek_snd]; exact running
      have later := ih (on_peek on) still reading.2
      rw [iterated_peek, List.count_cons_of_ne (by decide)]
      by_cases done : l.toCome = []
      · have ended := (toCome_eq_nil_iff.mp done).2
        rw [toCome_peek_of_done done, Source.location_of_rest_nil on ended] at later
        have early := later.kept (not_late_of_error (by simp [Except.isOk, Except.toBool]))
        rw [done]
        exact disturbed_peek_done early
      · rw [toCome_peek done] at later
        rw [toCome_of_pending done] at later ⊢
        rwa [late_peek]
    | iterate =>
      rw [iterated_iterate, List.count_cons_self, rounds_succ]
      by_cases done : l.toCome = []
      · have later := (ih on running reading.2).cons none
        rw [iterate_of_done done]
        rw [done] at later ⊢
        rw [late_iterate_done]
        exact later.from_le (Nat.zero_le _)
      rw [toCome_of_pending done, iterate_of_pending running done]
      by_cases ok : l.peek.1.isOk
      · let next : Lexer := ⟨l.peek.2.cursor, none, !l.peek.1.isOk⟩
        have later := ih (show next.cursor.On _ from on_peek on) (by simp [next, ok]) reading.2
        rw [if_pos ok, late_iterate ok]
        exact later.cons _
      · rw [if_neg ok]
        refine .of_kept ?_ (not_late_of_error ok)
        rw [iterated_of_halted (by simp [ok]) reading.2, List.head?_cons, List.tail_cons,
          rounds_nil]

end Row

theorem toCome_ofSource (s : Source) : (ofSource s).toCome = s.tokenize.items := rfl

theorem drain_ofSource (s : Source) : (ofSource s).drain.1 = s.tokenize.items := drain_fst rfl

theorem late_items_iff {s : Source} {calls : List Call} :
    Late s.tokenize.items calls ↔
      s.tokenize.error? = none ∧ (lookBehind s.tokenize.tokens.length).Sublist calls := by
  rcases s.tokenize with ⟨tokens, _ | e⟩ <;>
    simp [Late, Tokenization.items, Except.isOk, Except.toBool]

theorem not_late_replicate (items : List ScanResult) (n : Nat) :
    ¬ Late items (List.replicate n .iterate) := by
  rintro ⟨-, look⟩
  have member : Call.peek ∈ List.replicate n .iterate := look.subset (by simp [lookBehind])
  simp at member

theorem iterated_ofSource_disturbed (s : Source) {calls : List Call} (reading : .next ∉ calls) :
    Disturbed (Late s.tokenize.items calls) s.tokenize.items.length
      (.error ⟨.unexpectedEnd, s.endLocation⟩) (rounds s.tokenize.items (calls.count .iterate))
      ((ofSource s).iterated calls) := by
  rw [← toCome_ofSource]
  exact iterated_disturbed (Cursor.on_ofList _) rfl reading

theorem iterated_replicate (s : Source) (n : Nat) :
    (ofSource s).iterated (List.replicate n .iterate) = rounds s.tokenize.items n := by
  have reading : .next ∉ List.replicate n Call.iterate := by simp
  have kept := (iterated_ofSource_disturbed s reading).kept (not_late_replicate _ _)
  rwa [List.count_replicate_self] at kept

theorem set_rounds_ne {items : List ScanResult} {n i : Nat} (behind : items.length ≤ i)
    (inside : i < n) (stray : ScanResult) :
    (rounds items n).set i (some stray) ≠ rounds items n := by
  intro same
  have found := congrArg (·[i]?) same
  simp [rounds, inside, List.getElem?_eq_none behind] at found

/-- Looking ahead between the rounds of an iteration leaves what it hands out as it is, the tokens,
then the error, if there is one, and then nothing for ever, unless the source has no error, all its
tokens have been handed out, and the iteration is then asked again behind a look ahead. There one
round, which should have handed out nothing, hands out that the source has ended. -/
theorem iterated_eq_undisturbed_iff (s : Source) (calls : List Call) (reading : .next ∉ calls) :
    let n := calls.count .iterate
    let undisturbed := (ofSource s).iterated (List.replicate n .iterate)
    let late := s.tokenize.error? = none ∧ (lookBehind s.tokenize.tokens.length).Sublist calls
    undisturbed = (List.range n).map (s.tokenize.items[·]?) ∧
      ((ofSource s).iterated calls = undisturbed ↔ ¬ late) ∧
      (late → ∃ i, s.tokenize.tokens.length ≤ i ∧ i < n ∧ (ofSource s).iterated calls =
        undisturbed.set i (some (.error ⟨.unexpectedEnd, s.endLocation⟩))) := by
  intro n undisturbed late
  have plain : undisturbed = rounds s.tokenize.items n := iterated_replicate s n
  have disturbed := iterated_ofSource_disturbed s reading
  rw [late_items_iff, ← plain] at disturbed
  refine ⟨plain, ⟨fun same late => ?_, disturbed.kept⟩, fun late => ?_⟩
  · obtain ⟨i, behind, inside, changed⟩ := disturbed.changed late
    rw [plain, length_rounds] at inside
    rw [same, plain] at changed
    exact set_rounds_ne behind inside _ changed.symm
  · obtain ⟨i, behind, inside, changed⟩ := disturbed.changed late
    rw [plain, length_rounds] at inside
    refine ⟨i, le_trans ?_ behind, inside, changed⟩
    simp [Tokenization.items]

/-- An iteration that has ended with the text hands out an error behind a look ahead. -/
theorem iterated_disturbed_after_end :
    let l := ofSource (.anonymous "()")
    let calls : List Call := [.iterate, .iterate, .iterate, .peek, .iterate]
    .next ∉ calls ∧
      l.iterated calls =
        [some (.ok ⟨⟨1, 1⟩, .openParenthesis⟩), some (.ok ⟨⟨1, 2⟩, .closeParenthesis⟩), none,
          some (.error ⟨.unexpectedEnd, ⟨1, 3⟩⟩)] ∧
      l.iterated calls ≠ l.iterated (List.replicate (calls.count .iterate) .iterate) := by
  decide +kernel

theorem iterated_eq_undisturbed_early :
    let s := Source.anonymous "( a )"
    let calls : List Call := [.peek, .iterate, .peek, .peek, .iterate, .iterate, .iterate, .peek]
    .next ∉ calls ∧
      (ofSource s).iterated calls = (ofSource s).iterated (List.replicate 4 .iterate) := by
  intro s calls
  have reading : .next ∉ calls := by decide
  have early : ¬ (s.tokenize.error? = none ∧
      (lookBehind s.tokenize.tokens.length).Sublist calls) := by
    decide +kernel
  exact ⟨reading, (iterated_eq_undisturbed_iff s calls reading).2.1.mpr early⟩

end Lexer

end TemplateLexer
