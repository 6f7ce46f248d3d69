import TemplateLexer.Proofs.LineSplitting

/-! A cursor opens a new line at a line feed alone, the line table at a lone carriage return too. They
agree up to a lone carriage return, and part at the first character behind it that ends no line. -/
namespace TemplateLexer

def Source.cursorAfter (s : Source) : Nat → Cursor
  | 0 => s.cursor
  | p + 1 => (s.cursorAfter p).next.2

/-- The character that the line table holds at a location. -/
def Source.characterAt? (s : Source) (l : Location) : Option Char :=
  match l.column with
  | 0 => none
  | m + 1 => do
    let line ← s.line? l.line
    line.toList[m]?

def LoneReturn (text : List Char) (i : Nat) : Prop :=
  text[i]? = some '\r' ∧ text[i + 1]? ≠ some '\n'

/-- Behind a lone carriage return only terminators follow. -/
def LoneReturnsTrail (text : List Char) : Prop :=
  ∀ i j x, i < j → LoneReturn text i → text[j]? = some x → IsTerminator x

@[simp] theorem Location.after_feed (l : Location) : l.after '\n' = ⟨l.line + 1, 1⟩ := rfl

theorem Location.line_afterAll (l : Location) (text : List Char) :
    (l.afterAll text).line = l.line + text.count '\n' := by
  induction text generalizing l with
  | nil => rfl
  | cons c text ih =>
    rw [afterAll_cons, ih, after]
    split
    · next feed => simp [feed]; omega
    · next other => simp [other]

theorem Location.afterAll_inline {text : List Char} (inline : '\n' ∉ text) (l : Location) :
    l.afterAll text = ⟨l.line, l.column + text.length⟩ := by
  induction text generalizing l with
  | nil => rfl
  | cons c text ih =>
    rw [List.mem_cons, not_or] at inline
    rw [afterAll_cons, ih inline.2, after, if_neg (Ne.symm inline.1), List.length_cons]
    simp only [mk.injEq, true_and]
    omega

theorem Source.cursorAfter_eq (s : Source) (p : Nat) : s.cursorAfter p = s.cursor.advance p := by
  induction p with
  | zero => exact (Cursor.advance_zero _).symm
  | succ p ih => rw [cursorAfter, ih, ← Cursor.advance_advance, Cursor.advance_one]; rfl

theorem Source.location_cursorAfter (s : Source) (p : Nat) :
    (s.cursorAfter p).location = Location.start.afterAll (s.content.toList.take p) := by
  rw [cursorAfter_eq]; rfl

theorem count_feed_lt_length (begun text : List Char) :
    text.count '\n' < (linesFrom begun text).length := by
  induction text using text_induction generalizing begun with
  | nil => simp
  | pair text ih => simpa using ih []
  | feed text ih => simpa using ih []
  | lone text single ih =>
    have later := ih []
    simp [linesFrom_lone single]; omega
  | plain c text inside ih =>
    have other : c ≠ '\n' := fun feed => inside (.inl feed)
    simpa [linesFrom_plain inside, other] using ih (begun ++ [c])

theorem exists_first_line (begun text : List Char) :
    ∃ line lines, linesFrom begun text = line :: lines ∧ begun <+: line.text := by
  induction text using text_induction generalizing begun with
  | nil => exact ⟨_, _, rfl, List.prefix_rfl⟩
  | pair text _ => exact ⟨_, _, linesFrom_pair, List.prefix_rfl⟩
  | feed text _ => exact ⟨_, _, linesFrom_feed, List.prefix_rfl⟩
  | lone text single _ => exact ⟨_, _, linesFrom_lone single, List.prefix_rfl⟩
  | plain c text inside ih =>
    obtain ⟨line, lines, split, begins⟩ := ih (begun ++ [c])
    exact ⟨line, lines, (linesFrom_plain inside).trans split,
      (List.prefix_append begun [c]).trans begins⟩

/-- The given lines, numbered from `first` on, hold the character at the location. -/
def Shows (lines : List Line) (first : Nat) (l : Location) (x : Char) : Prop :=
  ∃ n m line, l = ⟨first + n, m + 1⟩ ∧ lines[n]? = some line ∧ line.text[m]? = some x

/-- They hold every character of a text that begins at the location, apart from terminators. -/
def ShowsAll (lines : List Line) (first : Nat) (l : Location) (text : List Char) : Prop :=
  ∀ p x, text[p]? = some x → ¬ IsTerminator x → Shows lines first (l.afterAll (text.take p)) x

section

variable {lines : List Line} {line : Line} {first m : Nat} {l : Location} {x c : Char}
variable {text : List Char}

theorem shows_here : Shows (line :: lines) first ⟨first, m + 1⟩ x ↔ line.text[m]? = some x := by
  constructor
  · rintro ⟨n, k, found, place, inside, character⟩
    obtain ⟨number, rfl⟩ : first = first + n ∧ m = k := by simpa using place
    obtain rfl : n = 0 := by omega
    obtain rfl : line = found := by simpa using inside
    exact character
  · exact fun character => ⟨0, m, line, rfl, rfl, character⟩

theorem shows_later (beyond : first < l.line) :
    Shows (line :: lines) first l x ↔ Shows lines (first + 1) l x := by
  constructor
  · rintro ⟨n, k, found, rfl, inside, character⟩
    cases n with
    | zero => exact absurd beyond (Nat.lt_irrefl first)
    | succ n => exact ⟨n, k, found, by simp; omega, by simpa using inside, character⟩
  · rintro ⟨n, k, found, rfl, inside, character⟩
    exact ⟨n + 1, k, found, by simp; omega, by simpa using inside, character⟩

theorem showsAll_later (beyond : first < l.line) :
    ShowsAll (line :: lines) first l text ↔ ShowsAll lines (first + 1) l text := by
  have beyond (p : Nat) : first < (l.afterAll (text.take p)).line := by
    rw [Location.line_afterAll]; omega
  simp only [ShowsAll, shows_later (beyond _)]

@[simp] theorem showsAll_nil : ShowsAll lines first l [] := by simp [ShowsAll]

theorem showsAll_cons : ShowsAll lines first l (c :: text) ↔
    (¬ IsTerminator c → Shows lines first l c) ∧ ShowsAll lines first (l.after c) text := by
  constructor
  · exact fun all => ⟨all 0 c rfl, fun p x inside => all (p + 1) x inside⟩
  · rintro ⟨here, later⟩ (_ | p) x inside
    · obtain rfl : c = x := by simpa using inside
      exact here
    · exact later p x inside

theorem showsAll_terminator (terminator : IsTerminator c) :
    ShowsAll lines first l (c :: text) ↔ ShowsAll lines first (l.after c) text := by
  simp [showsAll_cons, terminator]

theorem showsAll_of_terminators (terminators : ∀ x ∈ text, IsTerminator x) :
    ShowsAll lines first l text :=
  fun _ x inside plain => absurd (terminators x (List.mem_of_getElem? inside)) plain

/-- A location in column `m + 1` of the first line is past the end of that line, and the lines
behind it hold nothing. -/
structure Lags (lines : List Line) (m : Nat) : Prop where
  nonempty : lines ≠ []
  past : ∀ line ∈ lines.head?, line.text.length ≤ m
  empty : ∀ line ∈ lines.tail, line.text = []

theorem Lags.lone (lags : Lags lines m) : Lags (lines ++ [⟨[], ['\r']⟩]) (m + 1) := by
  obtain ⟨line, later, rfl⟩ := List.exists_cons_of_ne_nil lags.nonempty
  refine ⟨by simp, fun found head => ?_, ?_⟩
  · obtain rfl : line = found := by simpa using head
    exact Nat.le_succ_of_le (lags.past line rfl)
  · exact List.forall_mem_append.mpr ⟨lags.empty, by simp⟩

theorem Lags.feed (lags : Lags (line :: lines) m) (terminator : List Char) :
    Lags (lines ++ [⟨[], terminator⟩]) 0 := by
  have empty : ∀ found ∈ lines ++ [⟨[], terminator⟩], found.text = [] :=
    List.forall_mem_append.mpr ⟨lags.empty, by simp⟩
  refine ⟨by simp, fun found head => ?_, fun found member => ?_⟩
  · rw [empty found (List.mem_of_head? head)]
    exact Nat.le_refl 0
  · exact empty found (List.mem_of_mem_tail member)

/-- A location that lags behind points at nothing until the text ends. -/
theorem Lags.terminators (lags : Lags lines m)
    (all : ShowsAll (lines ++ linesFrom [] text) first ⟨first, m + 1⟩ text) :
    ∀ x ∈ text, IsTerminator x := by
  induction text using text_induction generalizing lines first m with
  | nil => simp
  | pair text ih =>
    obtain ⟨line, later, rfl⟩ := List.exists_cons_of_ne_nil lags.nonempty
    rw [showsAll_terminator (.inr rfl), showsAll_terminator (.inl rfl), linesFrom_pair,
      List.cons_append, showsAll_later (Nat.lt_succ_self first), List.append_cons] at all
    simpa [IsTerminator] using ih (lags.feed _) all
  | feed text ih =>
    obtain ⟨line, later, rfl⟩ := List.exists_cons_of_ne_nil lags.nonempty
    rw [showsAll_terminator (.inl rfl), linesFrom_feed, List.cons_append,
      showsAll_later (Nat.lt_succ_self first), List.append_cons] at all
    simpa [IsTerminator] using ih (lags.feed _) all
  | lone text single ih =>
    rw [showsAll_terminator (.inr rfl), linesFrom_lone single, List.append_cons] at all
    simpa [IsTerminator] using ih lags.lone all
  | plain c text inside ih =>
    obtain ⟨line, later, rfl⟩ := List.exists_cons_of_ne_nil lags.nonempty
    have character : line.text[m]? = some c := shows_here.mp ((showsAll_cons.mp all).1 inside)
    rw [List.getElem?_eq_none (lags.past line rfl)] at character
    cases character

theorem loneReturnsTrail_cons : LoneReturnsTrail (c :: text) ↔
    (c = '\r' → text.head? ≠ some '\n' → ∀ x ∈ text, IsTerminator x) ∧ LoneReturnsTrail text := by
  constructor
  · refine fun trail => ⟨fun carriage single x member => ?_, fun i j x before lone inside => ?_⟩
    · obtain ⟨j, inside⟩ := List.getElem?_of_mem member
      apply trail 0 (j + 1) x (Nat.succ_pos j) ⟨by simp [carriage], _⟩ inside
      simpa [List.head?_eq_getElem?] using single
    · exact trail (i + 1) (j + 1) x (by omega) lone inside
  · rintro ⟨here, later⟩ i j x before ⟨carriage, single⟩ inside
    obtain ⟨j, rfl⟩ := Nat.exists_eq_succ_of_ne_zero (Nat.ne_of_gt (Nat.zero_lt_of_lt before))
    cases i with
    | zero =>
      apply here (by simpa using carriage) _ x (List.mem_of_getElem? inside)
      simpa [List.head?_eq_getElem?] using single
    | succ i => exact later i j x (by omega) ⟨carriage, single⟩ inside

theorem loneReturnsTrail_of_terminators (terminators : ∀ x ∈ text, IsTerminator x) :
    LoneReturnsTrail text :=
  fun _ _ x _ _ inside => terminators x (List.mem_of_getElem? inside)

theorem showsAll_linesFrom_iff (first : Nat) (begun : List Char) :
    ShowsAll (linesFrom begun text) first ⟨first, begun.length + 1⟩ text ↔
      LoneReturnsTrail text := by
  induction text using text_induction generalizing begun first with
  | nil => simp [LoneReturnsTrail]
  | pair text ih =>
    rw [showsAll_terminator (.inr rfl), showsAll_terminator (.inl rfl), linesFrom_pair,
      showsAll_later (Nat.lt_succ_self first), loneReturnsTrail_cons, loneReturnsTrail_cons]
    simpa [Location.after] using ih (first + 1) []
  | feed text ih =>
    rw [showsAll_terminator (.inl rfl), linesFrom_feed, showsAll_later (Nat.lt_succ_self first),
      loneReturnsTrail_cons]
    simpa using ih (first + 1) []
  | lone text single ih =>
    have lags : Lags [⟨begun, ['\r']⟩] (begun.length + 1) := ⟨by simp, by simp, by simp⟩
    rw [showsAll_terminator (.inr rfl), linesFrom_lone single, loneReturnsTrail_cons]
    constructor
    · intro all
      have terminators := lags.terminators all
      exact ⟨fun _ _ => terminators, loneReturnsTrail_of_terminators terminators⟩
    · exact fun trail => showsAll_of_terminators (trail.1 rfl single)
  | plain c text inside ih =>
    have other : c ≠ '\r' := fun carriage => inside (.inr carriage)
    have shown : Shows (linesFrom (begun ++ [c]) text) first ⟨first, begun.length + 1⟩ c := by
      obtain ⟨line, lines, split, tail, whole⟩ := exists_first_line (begun ++ [c]) text
      rw [split, shows_here, ← whole]
      simp
    have moved : Location.after ⟨first, begun.length + 1⟩ c =
        ⟨first, (begun ++ [c]).length + 1⟩ := by
      rw [List.length_append]
      exact if_neg fun feed => inside (.inl feed)
    rw [showsAll_cons, moved, linesFrom_plain inside, ih, loneReturnsTrail_cons]
    simp [shown, other]

end

namespace Source

theorem characterAt?_eq_some_iff {s : Source} {l : Location} {x : Char} :
    s.characterAt? l = some x ↔ Shows s.lines 1 l x := by
  obtain ⟨number, column⟩ := l
  constructor
  · intro character
    cases column with
    | zero => cases character
    | succ m =>
      cases number with
      | zero => cases character
      | succ n =>
        obtain ⟨shown, number, character⟩ := Option.bind_eq_some_iff.mp character
        rw [line?_succ] at number
        obtain ⟨line, found, rfl⟩ := Option.map_eq_some_iff.mp number
        rw [String.toList_ofList] at character
        exact ⟨n, m, line, by rw [Nat.add_comm], found, character⟩
  · rintro ⟨n, m, line, place, found, character⟩
    obtain ⟨rfl, rfl⟩ := Location.mk.inj place
    simp [characterAt?, Nat.add_comm 1 n, line?_succ, found, character]

/-- Every location that a cursor comes to lies in a line that the table has. And the table holds each
character that ends no line right where the cursor says, if and only if no lone carriage return
stands before such a character. -/
theorem locations_match_lines (s : Source) :
    let text := s.content.toList
    (∀ p, 1 ≤ (s.cursorAfter p).location.line ∧ (s.cursorAfter p).location.line ≤ s.lineCount ∧
      (s.line? (s.cursorAfter p).location.line).isSome) ∧
    ((∀ p x, text[p]? = some x → ¬ IsTerminator x →
        s.characterAt? (s.cursorAfter p).location = some x) ↔
      ¬ ∃ i j x, i < j ∧ LoneReturn text i ∧ text[j]? = some x ∧ ¬ IsTerminator x) := by
  intro text
  refine ⟨fun p => ?_, ?_⟩
  · have line : (s.cursorAfter p).location.line = (text.take p).count '\n' + 1 := by
      rw [location_cursorAfter, Location.line_afterAll, Nat.add_comm]; rfl
    have before : (text.take p).count '\n' < s.lines.length :=
      Nat.lt_of_le_of_lt ((List.take_sublist p text).count_le '\n') (count_feed_lt_length [] text)
    rw [line, lineCount_eq, line?_succ, List.getElem?_eq_getElem before]
    exact ⟨Nat.le_add_left 1 _, before, rfl⟩
  · have trail : LoneReturnsTrail text ↔
        ¬ ∃ i j x, i < j ∧ LoneReturn text i ∧ text[j]? = some x ∧ ¬ IsTerminator x := by
      simp only [LoneReturnsTrail, not_exists, not_and, Classical.not_not]
    rw [← trail, ← showsAll_linesFrom_iff 1 []]
    simp only [characterAt?_eq_some_iff, location_cursorAfter]
    rfl

end Source

end TemplateLexer
