import TemplateLexer.Proofs.Continuation

/-! Two texts one behind the other. Where the first is read without an error, the tokens of both
together are those of the first and those of the second, which only move to another place. -/
namespace TemplateLexer

namespace Location

structure Proper (l : Location) : Prop where
  line : 1 ≤ l.line
  column : 1 ≤ l.column

/-- Where the place comes to stand if its text begins at the origin. Only the places of the first
line move sideways. -/
def movedTo (l origin : Location) : Location :=
  if l.line = 1 then ⟨origin.line, l.column + origin.column - 1⟩
  else ⟨l.line + origin.line - 1, l.column⟩

variable {l origin : Location}

theorem proper_start : start.Proper := ⟨le_rfl, le_rfl⟩

theorem Proper.after (proper : l.Proper) (c : Char) : (l.after c).Proper := by
  unfold Location.after
  split
  · exact ⟨Nat.le_add_left .., le_rfl⟩
  · exact ⟨proper.line, Nat.le_add_left ..⟩

theorem Proper.afterAll (proper : l.Proper) (text : List Char) : (l.afterAll text).Proper := by
  induction text generalizing l with
  | nil => exact proper
  | cons c text ih => exact ih (proper.after c)

theorem start_movedTo (origin : Location) : start.movedTo origin = origin := by
  simp [start, movedTo]

theorem after_movedTo (proper : l.Proper) (c : Char) :
    (l.after c).movedTo origin = (l.movedTo origin).after c := by
  have line := proper.line
  have column := proper.column
  by_cases feed : c = '\n'
  · have below : ¬ l.line + 1 = 1 := by omega
    simp only [after, movedTo, if_pos feed, if_neg below]
    split <;> simp only [mk.injEq, and_true] <;> omega
  · simp only [after, movedTo, if_neg feed]
    split <;> simp only [mk.injEq, true_and]
    omega

theorem afterAll_movedTo (proper : l.Proper) (text : List Char) :
    (l.afterAll text).movedTo origin = (l.movedTo origin).afterAll text := by
  induction text generalizing l with
  | nil => rfl
  | cons c text ih => rw [afterAll_cons, afterAll_cons, ih (proper.after c), after_movedTo proper]

end Location

def Token.movedTo (t : Token) (origin : Location) : Token :=
  { t with location := t.location.movedTo origin }

def ScanError.movedTo (e : ScanError) (origin : Location) : ScanError :=
  { e with location := e.location.movedTo origin }

def resultMovedTo (origin : Location) : ScanResult → ScanResult
  | .ok token => .ok (token.movedTo origin)
  | .error e => .error (e.movedTo origin)

namespace Cursor

def movedTo (c origin : Cursor) : Cursor :=
  ⟨c.rest, c.position + origin.position, c.location.movedTo origin.location⟩

variable {c stop origin : Cursor} {tokens : List Token}

theorem proper_advance (proper : c.location.Proper) (n : Nat) : (c.advance n).location.Proper :=
  proper.afterAll _

theorem advance_movedTo (proper : c.location.Proper) (n : Nat) :
    (c.movedTo origin).advance n = (c.advance n).movedTo origin := by
  simp only [advance, movedTo, mk.injEq, true_and]
  exact ⟨by omega, (Location.afterAll_movedTo proper _).symm⟩

theorem scan_movedTo (proper : c.location.Proper) :
    (c.movedTo origin).scan =
      (resultMovedTo origin.location c.scan.1, c.scan.2.movedTo origin) := by
  have skipped : (c.movedTo origin).skipBlanks = c.skipBlanks.movedTo origin :=
    advance_movedTo proper _
  have stopped (n : Nat) :
      (c.skipBlanks.movedTo origin).advance n = (c.skipBlanks.advance n).movedTo origin :=
    advance_movedTo (proper_advance proper _) n
  have same : (c.skipBlanks.movedTo origin).rest = c.skipBlanks.rest := rfl
  unfold scan
  simp only [skipped, same, stopped]
  split <;> rfl

theorem proper_scan (proper : c.location.Proper) : c.scan.2.location.Proper := by
  obtain ⟨n, moved⟩ := c.exists_advance_of_scan
  rw [moved]
  exact proper_advance proper n

theorem Yields.movedTo (yields : Yields c tokens stop) (proper : c.location.Proper)
    (origin : Cursor) :
    Yields (c.movedTo origin) (tokens.map (·.movedTo origin.location)) (stop.movedTo origin) := by
  induction yields with
  | nil c => exact .nil _
  | @cons c next stop token tokens read _ ih =>
    have later : next.location.Proper := by simpa only [read] using proper_scan proper
    refine .cons ?_ (ih later)
    rw [scan_movedTo proper, read]
    rfl

theorem Yields.proper (yields : Yields c tokens stop) (proper : c.location.Proper) :
    stop.location.Proper := by
  induction yields with
  | nil c => exact proper
  | cons read _ ih =>
    apply ih
    simpa only [read] using proper_scan proper

/-- A reading that is moved comes to the same tokens and the same error, moved. -/
theorem tokenize_movedTo (proper : c.location.Proper) (origin : Cursor) :
    (c.movedTo origin).tokenize = ⟨c.tokenize.tokens.map (·.movedTo origin.location),
      c.tokenize.error?.map (·.movedTo origin.location)⟩ := by
  obtain ⟨stop, yields, halted⟩ := c.exists_yields
  have last : (stop.movedTo origin).tokenize =
      ⟨[], c.tokenize.error?.map (·.movedTo origin.location)⟩ := by
    cases failed : c.tokenize.error? with
    | none =>
      rw [failed] at halted
      have done : stop.rest = [] := tokenize_eq_nil_iff.mp halted
      exact tokenize_of_atEnd done
    | some e =>
      rw [failed] at halted
      obtain ⟨more, read⟩ := tokenize_eq_failed_iff.mp halted
      refine tokenize_eq_failed_iff.mpr ⟨more, ?_⟩
      rw [scan_movedTo (yields.proper proper), read]
      rfl
  rw [tokenize_of_yields (yields.movedTo proper origin), last, List.append_nil]

theorem Yields.on {text : List Char} (yields : Yields c tokens stop) (on : On text c) :
    On text stop := by
  induction yields with
  | nil c => exact on
  | cons read _ ih =>
    apply ih
    simpa only [read] using on.scan

theorem append_of_rest_nil (ended : stop.rest = []) (more : List Char) :
    stop.append more = (ofList more).movedTo stop := by
  simp [append, movedTo, ofList, ended, Location.start_movedTo]

end Cursor

def Source.endLocation (s : Source) : Location := s.cursor.readAll.2.location

theorem Source.location_of_rest_nil {s : Source} {c : Cursor} (on : c.On s.content.toList)
    (ended : c.rest = []) : c.location = s.endLocation := by
  have long : s.content.toList.length ≤ c.position := by
    rwa [on.rest_eq, List.drop_eq_nil_iff] at ended
  have length : c.position = s.content.toList.length := le_antisymm on.position_le long
  rw [← on.reached, length]
  rfl

/-- Two texts one behind the other: if the first is read without an error, what is read of both is
what is read of the first and then what is read of the second, moved to the end of the first. -/
theorem tokenize_append_of_clean (s t : Source) (clean : s.tokenize.error? = none) :
    (s.append t.content).tokenize =
      ⟨s.tokenize.tokens ++ t.tokenize.tokens.map (·.movedTo s.endLocation),
        t.tokenize.error?.map (·.movedTo s.endLocation)⟩ := by
  obtain ⟨stop, yields, halted⟩ : ∃ stop, s.cursor.Yields s.tokenize.tokens stop ∧
      stop.tokenize = ⟨[], s.tokenize.error?⟩ := s.cursor.exists_yields
  rw [clean] at halted
  have ended : stop.rest = [] := Cursor.tokenize_eq_nil_iff.mp halted
  have arrived : stop.location = s.endLocation :=
    Source.location_of_rest_nil (yields.on (Cursor.on_ofList _)) ended
  have second : (stop.append t.content.toList).tokenize = (t.cursor.movedTo stop).tokenize := by
    rw [Cursor.append_of_rest_nil ended]
    rfl
  rw [Source.tokenize_append yields, second, Cursor.tokenize_movedTo Location.proper_start, arrived]
  rfl

theorem tokenize_append_of_clean_lines :
    let s := Source.anonymous "( a\n + 'b'"
    let t := Source.anonymous " )\n @"
    s.tokenize.error? = none ∧
      (s.append t.content).tokenize =
        ⟨s.tokenize.tokens ++ [⟨⟨2, 8⟩, .closeParenthesis⟩], some ⟨.unknownToken, ⟨3, 2⟩⟩⟩ := by
  intro s t
  have clean : s.tokenize.error? = none := by decide +kernel
  have second : t.tokenize = ⟨[⟨⟨1, 2⟩, .closeParenthesis⟩], some ⟨.unknownToken, ⟨2, 2⟩⟩⟩ := by
    decide +kernel
  have border : s.endLocation = ⟨2, 7⟩ := by decide +kernel
  refine ⟨clean, ?_⟩
  rw [tokenize_append_of_clean s t clean, second, border]
  rfl

end TemplateLexer
