import TemplateLexer.Source.Basic

/-! The lines of a text as characters. The spans of the line table are the stretches that the lines
take up with their terminators, and what a source gives for a line number is the line's text. -/
namespace TemplateLexer

/-- A line and the characters that end it, none behind the last line of a text. -/
structure Line where
  text : List Char
  terminator : List Char
  deriving DecidableEq, Repr

def Line.written (line : Line) : List Char := line.text ++ line.terminator

def IsTerminator (c : Char) : Prop := c = '\n' ∨ c = '\r'

/-- The lines of a text, the first of which has already begun with the given characters. -/
def linesFrom (begun : List Char) : List Char → List Line
  | [] => [⟨begun, []⟩]
  | '\r' :: '\n' :: text => ⟨begun, ['\r', '\n']⟩ :: linesFrom [] text
  | c :: text =>
    if c = '\n' ∨ c = '\r' then ⟨begun, [c]⟩ :: linesFrom [] text
    else linesFrom (begun ++ [c]) text

/-- A text taken apart the way its lines are. -/
@[elab_as_elim]
theorem text_induction {motive : List Char → Prop} (nil : motive [])
    (pair : ∀ text, motive text → motive ('\r' :: '\n' :: text))
    (feed : ∀ text, motive text → motive ('\n' :: text))
    (lone : ∀ text, text.head? ≠ some '\n' → motive text → motive ('\r' :: text))
    (plain : ∀ c text, ¬ IsTerminator c → motive text → motive (c :: text))
    (text : List Char) : motive text := by
  have begun_with (begun : List Char) : motive text := by
    induction begun, text using linesFrom.induct with
    | case1 => exact nil
    | case2 _ text ih => exact pair text ih
    | case3 _ c text single ends ih =>
      rcases ends with rfl | rfl
      · exact feed text ih
      · refine lone text (fun head => ?_) ih
        obtain ⟨tail, rfl⟩ := List.head?_eq_some_iff.mp head
        exact single tail rfl rfl
    | case4 _ c text _ inside ih => exact plain c text inside ih
  exact begun_with []

variable {begun text : List Char} {c : Char}

@[simp] theorem linesFrom_nil : linesFrom begun [] = [⟨begun, []⟩] := rfl

@[simp] theorem linesFrom_pair :
    linesFrom begun ('\r' :: '\n' :: text) = ⟨begun, ['\r', '\n']⟩ :: linesFrom [] text := rfl

@[simp] theorem linesFrom_feed :
    linesFrom begun ('\n' :: text) = ⟨begun, ['\n']⟩ :: linesFrom [] text := by
  simp [linesFrom]

theorem linesFrom_lone (single : text.head? ≠ some '\n') :
    linesFrom begun ('\r' :: text) = ⟨begun, ['\r']⟩ :: linesFrom [] text := by
  rw [linesFrom]
  · simp
  · rintro tail - rfl
    exact single rfl

theorem linesFrom_plain (plain : ¬ IsTerminator c) :
    linesFrom begun (c :: text) = linesFrom (begun ++ [c]) text := by
  have inside : ¬ (c = '\n' ∨ c = '\r') := plain
  rw [linesFrom, if_neg inside]
  rintro tail rfl
  exact absurd (.inr rfl) plain

theorem flatMap_written_linesFrom :
    (linesFrom begun text).flatMap Line.written = begun ++ text := by
  induction text using text_induction generalizing begun with
  | nil => simp [Line.written]
  | pair text ih => simp [Line.written, ih]
  | feed text ih => simp [Line.written, ih]
  | lone text single ih => simp [linesFrom_lone single, Line.written, ih]
  | plain c text plain ih => simp [linesFrom_plain plain, ih]

/-- No line's text holds a terminator, and what ends a line is terminators. -/
structure Line.Valid (line : Line) : Prop where
  plain : ∀ c ∈ line.text, ¬ IsTerminator c
  ended : ∀ c ∈ line.terminator, IsTerminator c

theorem valid_linesFrom (plain : ∀ c ∈ begun, ¬ IsTerminator c) :
    ∀ line ∈ linesFrom begun text, line.Valid := by
  induction text using text_induction generalizing begun with
  | nil =>
    rw [linesFrom_nil, List.forall_mem_singleton]
    exact ⟨plain, by simp⟩
  | pair text ih =>
    rw [linesFrom_pair, List.forall_mem_cons]
    exact ⟨⟨plain, by simp [IsTerminator]⟩, ih (by simp)⟩
  | feed text ih =>
    rw [linesFrom_feed, List.forall_mem_cons]
    exact ⟨⟨plain, by simp [IsTerminator]⟩, ih (by simp)⟩
  | lone text single ih =>
    rw [linesFrom_lone single, List.forall_mem_cons]
    exact ⟨⟨plain, by simp [IsTerminator]⟩, ih (by simp)⟩
  | plain c text inside ih =>
    rw [linesFrom_plain inside]
    apply ih
    rw [List.forall_mem_append, List.forall_mem_singleton]
    exact ⟨plain, inside⟩

theorem trimLineEnd_written {line : Line} (valid : line.Valid) :
    trimLineEnd line.written = line.text := by
  have ended : ∀ c ∈ line.terminator.reverse, c = '\n' ∨ c = '\r' :=
    fun c member => valid.ended c (List.mem_reverse.mp member)
  have plain : line.text.reverse.dropWhile (fun c => c = '\n' ∨ c = '\r') = line.text.reverse := by
    cases reversed : line.text.reverse with
    | nil => rfl
    | cons c tail =>
      have member : c ∈ line.text := List.mem_reverse.mp (reversed ▸ List.mem_cons_self)
      exact List.dropWhile_cons_of_neg (by simpa [IsTerminator] using valid.plain c member)
  rw [trimLineEnd, Line.written, List.reverse_append,
    List.dropWhile_append_of_pos (by simpa using ended), plain, List.reverse_reverse]

def byteLength : List Char → Nat
  | [] => 0
  | c :: text => c.utf8Size + byteLength text

@[simp] theorem byteLength_nil : byteLength [] = 0 := rfl

@[simp] theorem byteLength_cons : byteLength (c :: text) = c.utf8Size + byteLength text := rfl

@[simp] theorem byteLength_append {front back : List Char} :
    byteLength (front ++ back) = byteLength front + byteLength back := by
  induction front with
  | nil => simp
  | cons c front ih => simp [ih, Nat.add_assoc]

theorem splitAtByte?_append (front back : List Char) :
    splitAtByte? (byteLength front) (front ++ back) = some (front, back) := by
  induction front with
  | nil => simp [splitAtByte?]
  | cons c front ih =>
    obtain ⟨n, size⟩ := Nat.exists_eq_succ_of_ne_zero (Nat.ne_of_gt c.utf8Size_pos)
    have total : byteLength (c :: front) = n + byteLength front + 1 := by
      rw [byteLength_cons, size]; omega
    have left : n + byteLength front + 1 - c.utf8Size = byteLength front := by omega
    rw [total, List.cons_append, splitAtByte?, if_pos (by omega), left, ih]
    rfl

def spansFrom (start : Nat) : List Line → List ByteSpan
  | [] => []
  | line :: lines =>
    let stop := start + byteLength line.written
    ⟨start, stop⟩ :: spansFrom stop lines

theorem lineSpansFrom_lone {start position : Nat} (single : text.head? ≠ some '\n') :
    lineSpansFrom start position ('\r' :: text) =
      ⟨start, position + 1⟩ :: lineSpansFrom (position + 1) (position + 1) text := by
  rw [lineSpansFrom]
  · simp
  · rintro tail - rfl
    exact single rfl

theorem lineSpansFrom_plain {start position : Nat} (plain : ¬ IsTerminator c) :
    lineSpansFrom start position (c :: text) =
      lineSpansFrom start (position + c.utf8Size) text := by
  have inside : ¬ (c = '\n' ∨ c = '\r') := plain
  rw [lineSpansFrom, if_neg inside]
  rintro tail rfl
  exact absurd (.inr rfl) plain

/-- The line table holds the spans of the lines. -/
theorem lineSpansFrom_eq (start : Nat) (begun text : List Char) :
    lineSpansFrom start (start + byteLength begun) text =
      spansFrom start (linesFrom begun text) := by
  have feed_size : '\n'.utf8Size = 1 := by decide
  have return_size : '\r'.utf8Size = 1 := by decide
  induction text using text_induction generalizing start begun with
  | nil => simp [lineSpansFrom, spansFrom, Line.written]
  | pair text ih =>
    have later := ih (start + byteLength begun + 2) []
    simpa [lineSpansFrom, spansFrom, Line.written, feed_size, return_size, Nat.add_assoc] using later
  | feed text ih =>
    have later := ih (start + byteLength begun + 1) []
    simpa [lineSpansFrom, spansFrom, Line.written, feed_size, Nat.add_assoc] using later
  | lone text single ih =>
    have later := ih (start + byteLength begun + 1) []
    simpa [lineSpansFrom_lone single, linesFrom_lone single, spansFrom, Line.written, return_size,
      Nat.add_assoc] using later
  | plain c text inside ih =>
    have later := ih start (begun ++ [c])
    simpa [lineSpansFrom_plain inside, linesFrom_plain inside, Nat.add_assoc] using later

@[simp] theorem length_spansFrom {start : Nat} {lines : List Line} :
    (spansFrom start lines).length = lines.length := by
  induction lines generalizing start with
  | nil => rfl
  | cons line lines ih => simp [spansFrom, ih]

/-- A line's span cuts the line with its terminator out of the text. -/
theorem slice_spansFrom (lines : List Line) (front : List Char) (n : Nat) :
    (spansFrom (byteLength front) lines)[n]?.bind
        (·.slice? (front ++ lines.flatMap Line.written)) = lines[n]?.map Line.written := by
  induction lines generalizing front n with
  | nil => rfl
  | cons line lines ih =>
    cases n with
    | zero =>
      simp [spansFrom, ByteSpan.slice?, splitAtByte?_append]
    | succ n =>
      have later := ih (front ++ line.written) n
      simpa [spansFrom] using later

namespace Source

variable {s : Source}

def lines (s : Source) : List Line := linesFrom [] s.content.toList

theorem lineSpans_eq : s.lineSpans = spansFrom 0 s.lines :=
  lineSpansFrom_eq 0 [] s.content.toList

theorem lineCount_eq : s.lineCount = s.lines.length := by
  rw [lineCount, lineSpans_eq, length_spansFrom]

theorem flatMap_written_lines : s.lines.flatMap Line.written = s.content.toList :=
  flatMap_written_linesFrom

theorem valid_of_mem_lines {line : Line} (member : line ∈ s.lines) : line.Valid :=
  valid_linesFrom (by simp) line member

theorem slice_lineSpans (n : Nat) :
    s.lineSpans[n]?.bind (·.slice? s.content.toList) = s.lines[n]?.map Line.written := by
  have cut := slice_spansFrom s.lines [] n
  rwa [List.nil_append, flatMap_written_lines, byteLength_nil, ← lineSpans_eq] at cut

theorem line?_succ (n : Nat) : s.line? (n + 1) = s.lines[n]?.map (String.ofList ·.text) := by
  calc
    s.line? (n + 1) = (s.lineSpans[n]?.bind (·.slice? s.content.toList)).map
        fun text => String.ofList (trimLineEnd text) := by
      simp only [line?, Option.map_eq_bind, Option.bind_assoc]
      rfl
    _ = (s.lines[n]?.map Line.written).map fun text => String.ofList (trimLineEnd text) := by
      rw [slice_lineSpans]
    _ = s.lines[n]?.map (String.ofList ·.text) := by
      rw [Option.map_map]
      apply Option.map_congr
      intro line found
      exact congrArg String.ofList
        (trimLineEnd_written (valid_of_mem_lines (List.mem_of_getElem? found)))

theorem isSome_line?_iff {number : Nat} :
    (s.line? number).isSome ↔ 1 ≤ number ∧ number ≤ s.lineCount := by
  cases number with
  | zero => simp [line?]
  | succ n =>
    rw [line?_succ, lineCount_eq, Option.isSome_map, isSome_getElem?]
    omega

theorem exists_line {number : Nat} (pos : 1 ≤ number) (le : number ≤ s.lineCount) :
    ∃ line, s.line? number = some line :=
  Option.isSome_iff_exists.mp (isSome_line?_iff.mpr ⟨pos, le⟩)

end Source

end TemplateLexer
