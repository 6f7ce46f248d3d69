import Mathlib.Data.List.DropRight
import TemplateLexer.Proofs.LineAgreement
import TemplateLexer.Proofs.Reads

/-! Any row of calls of a cursor. Whichever way it is read, it takes a front of what is still to
come; so the characters it has taken are the first ones of the text, as many as its position says,
and they settle its location. -/
namespace TemplateLexer

namespace Location

variable {l : Location} {text : List Char}

theorem compare_eq_lt_iff {a b : Location} :
    compare a b = .lt ↔ a.line < b.line ∨ a.line = b.line ∧ a.column < b.column := by
  change (compare a.line b.line).then (compare a.column b.column) = .lt ↔ _
  rw [Ordering.then_eq_lt, Nat.compare_eq_lt, Nat.compare_eq_lt, Nat.compare_eq_eq]

theorem compare_afterAll (l : Location) (nonempty : text ≠ []) :
    compare l (l.afterAll text) = .lt := by
  rw [compare_eq_lt_iff]
  by_cases feed : '\n' ∈ text
  · have opened : 0 < text.count '\n' := List.count_pos_iff.mpr feed
    rw [line_afterAll]
    exact .inl (by omega)
  · have wide : 0 < text.length := List.length_pos_iff.mpr nonempty
    rw [afterAll_inline feed]
    exact .inr ⟨rfl, by simp only; omega⟩

/-- From a first column on, the column counts the characters of the last line. -/
theorem column_afterAll (first : l.column = 1) (text : List Char) :
    (l.afterAll text).column = (text.rtakeWhile (· ≠ '\n')).length + 1 := by
  induction text using List.reverseRecOn with
  | nil => simpa using first
  | append_singleton text c ih =>
    rw [afterAll_append, afterAll_cons, afterAll_nil, after]
    split
    next feed => simp [feed, List.rtakeWhile_concat_neg]
    next other => simp [other, List.rtakeWhile_concat_pos, ih]

end Location

namespace Cursor

inductive Call where
  | peek
  | next
  | nth (n : Nat)
  | readAll
  deriving DecidableEq, Repr

/-- The characters that a call hands out, and the cursor that it leaves. -/
def perform (c : Cursor) : Call → List Char × Cursor
  | .peek => (c.peek?.toList, c)
  | .next => c.next.map Option.toList id
  | .nth n => (c.nth n).map Option.toList id
  | .readAll => c.readAll

def nexts (c : Cursor) : Nat → List Char × Cursor
  | 0 => ([], c)
  | n + 1 => (c.next.2.nexts n).map (c.next.1.toList ++ ·) id

/-- The characters that a call takes. A look ahead takes none; what is passed over is taken too. -/
def taken (c : Cursor) : Call → List Char
  | .peek => []
  | .nth n => (c.nexts n).1 ++ (c.perform (.nth n)).1
  | call => (c.perform call).1

def performAll (c : Cursor) (calls : List Call) : Cursor :=
  calls.foldl (fun c call => (c.perform call).2) c

def consumed (c : Cursor) : List Call → List Char
  | [] => []
  | call :: calls => c.taken call ++ (c.perform call).2.consumed calls

section Call

variable {c : Cursor}

theorem next_eq (c : Cursor) : c.next = (c.rest.head?, c.advance 1) := by
  rw [next, advance_one, peek?]

theorem nexts_eq (c : Cursor) (n : Nat) : c.nexts n = (c.rest.take n, c.advance n) := by
  induction n generalizing c with
  | zero => simp [nexts]
  | succ n ih =>
    rw [nexts, next_eq, ih, advance_advance, Nat.add_comm 1 n]
    cases split : c.rest <;> simp [split]

/-- How far a call reaches into what is still to come. -/
def reach (c : Cursor) : Call → Nat
  | .peek => 0
  | .next => 1
  | .nth n => n + 1
  | .readAll => c.remaining

theorem taken_perform (c : Cursor) (call : Call) :
    c.taken call = c.rest.take (c.reach call) ∧ (c.perform call).2 = c.advance (c.reach call) := by
  cases call with
  | peek => simp [taken, perform, reach]
  | next => simp [taken, perform, reach, next_eq, List.take_one]
  | nth n =>
    simp [taken, perform, reach, nth, next_eq, nexts_eq, advance_advance, List.take_add_one]
  | readAll => simp [taken, perform, reach, readAll, remaining]

theorem perform_of_rest_nil (ended : c.rest = []) (call : Call) : c.perform call = ([], c) := by
  obtain ⟨rest, position, location⟩ := c
  obtain rfl : rest = [] := ended
  cases call <;> simp [perform, peek?, next_eq, nth, readAll, advance]

end Call

section Place

variable {text : List Char} {c d : Cursor}

theorem On.take_position_advance (on : On text c) (n : Nat) :
    text.take (c.advance n).position = text.take c.position ++ c.rest.take n := by
  calc
    text.take (c.advance n).position = text.take (c.position + n) := by
      rw [List.take_eq_take_iff, position_advance_min, on.length_rest]
      have := on.position_le
      omega
    _ = text.take c.position ++ c.rest.take n := by rw [List.take_add, on.rest_eq]

theorem On.location_eq (on : On text c) :
    c.location = Location.start.afterAll (text.take c.position) :=
  congrArg location on.reached.symm

/-- The order of locations is that of positions. -/
theorem On.compare_location (on : On text c) (later : On text d) (before : c.position < d.position) :
    compare c.location d.location = .lt := by
  have between : (text.drop c.position).take (d.position - c.position) ≠ [] := by
    have := later.position_le
    simp only [ne_eq, List.take_eq_nil_iff, List.drop_eq_nil_iff]
    omega
  have moved : d.location =
      c.location.afterAll ((text.drop c.position).take (d.position - c.position)) := by
    rw [on.location_eq, later.location_eq, ← Location.afterAll_append, ← List.take_add,
      Nat.add_sub_cancel' before.le]
  rw [moved]
  exact Location.compare_afterAll _ between

theorem On.location_ne (on : On text c) (other : On text d) (apart : c.position ≠ d.position) :
    c.location ≠ d.location := by
  have distinct {c d : Cursor} (on : On text c) (later : On text d)
      (before : c.position < d.position) : c.location ≠ d.location := by
    intro same
    have ascends := on.compare_location later before
    simp [same, Location.compare_eq_lt_iff] at ascends
  rcases Nat.lt_or_gt_of_ne apart with before | behind
  · exact distinct on other before
  · exact (distinct other on behind).symm

end Place

structure Behind (text taken : List Char) (c : Cursor) : Prop where
  on : On text c
  taken_eq : taken = text.take c.position

section Row

variable {text taken : List Char} {c : Cursor}

theorem behind_ofList (text : List Char) : Behind text [] (ofList text) :=
  ⟨on_ofList text, rfl⟩

theorem Behind.perform (behind : Behind text taken c) (call : Call) :
    Behind text (taken ++ c.taken call) (c.perform call).2 := by
  obtain ⟨takes, moves⟩ := c.taken_perform call
  rw [takes, moves]
  refine ⟨behind.on.advance _, ?_⟩
  rw [behind.on.take_position_advance, behind.taken_eq]

theorem Behind.performAll (behind : Behind text taken c) (calls : List Call) :
    Behind text (taken ++ c.consumed calls) (c.performAll calls) := by
  induction calls generalizing taken c with
  | nil => simpa [consumed, Cursor.performAll] using behind
  | cons call calls ih =>
    have later := ih (behind.perform call)
    rwa [List.append_assoc] at later

end Row

end Cursor

/-- However a fresh cursor is read, it is settled by the characters it has taken. They are the first
ones of the text, as many as its position says, and the next one is what there is to look at; its
line counts the line feeds among them, its column what they hold behind the last of these, both from
1. A cursor in a later position is at a later location, and one in another position at another. The
size hint is exact: just so many characters are still handed out, and with none left no call does
anything. -/
theorem Source.cursor_determined_by_consumed (s : Source) (calls : List Cursor.Call) :
    let text := s.content.toList
    let c := s.cursor.performAll calls
    let consumed := s.cursor.consumed calls
    c.position ≤ text.length ∧ consumed = text.take c.position ∧ c.peek? = text[c.position]? ∧
      c.location.line = consumed.count '\n' + 1 ∧
      c.location.column = (consumed.rtakeWhile (· ≠ '\n')).length + 1 ∧
      (∀ others, let d := s.cursor.performAll others
        (c.position < d.position → compare c.location d.location = .lt) ∧
          (c.position ≠ d.position → c.location ≠ d.location)) ∧
      c.sizeHint = (text.length - c.position, some (text.length - c.position)) ∧
      (∀ n, (c.nexts n).1.length = min n (text.length - c.position)) ∧
      (c.position = text.length → ∀ call, c.perform call = ([], c)) := by
  intro text c consumed
  have standsBehind (calls : List Cursor.Call) :
      Cursor.Behind text (s.cursor.consumed calls) (s.cursor.performAll calls) :=
    (Cursor.behind_ofList text).performAll calls
  obtain ⟨on, taken⟩ : Cursor.Behind text consumed c := standsBehind calls
  have place : c.location = Location.start.afterAll consumed := taken ▸ on.location_eq
  refine ⟨on.position_le, taken, ?_, ?_, ?_, fun others => ⟨?_, ?_⟩, ?_, fun n => ?_, ?_⟩
  · rw [Cursor.peek?, on.rest_eq, List.head?_drop]
  · rw [place, Location.line_afterAll, Nat.add_comm]
    rfl
  · rw [place]
    exact Location.column_afterAll rfl consumed
  · exact on.compare_location (standsBehind others).on
  · exact on.location_ne (standsBehind others).on
  · rw [Cursor.sizeHint, Cursor.remaining, on.length_rest]
  · rw [Cursor.nexts_eq, List.length_take, on.length_rest]
  · intro ended
    exact Cursor.perform_of_rest_nil (by rw [on.rest_eq, ended, List.drop_length])

end TemplateLexer
