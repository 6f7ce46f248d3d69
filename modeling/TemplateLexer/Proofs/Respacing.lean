import Mathlib.Data.List.DropRight
import TemplateLexer.Proofs.Acceptance
import TemplateLexer.Proofs.Progress

/-! Other blanks between the tokens. The blanks behind a token can be exchanged for others, and put
where there are none, at any number of places: the same tokens are read, and if the reading fails it
fails for the same reason. -/
namespace TemplateLexer

/-- A change of the blanks that begin at a position of a text. -/
structure Respacing where
  position : Nat
  blanks : List Char
  deriving DecidableEq, Repr

def Respacing.apply (r : Respacing) (text : List Char) : List Char :=
  text.take r.position ++ r.blanks ++ (text.drop r.position).dropWhile isBlank

namespace Source

/-- The source with its blanks changed. The positions are those before any change: the changes are
listed from the first position to the last, and made from the last to the first. -/
def respaced (s : Source) (changes : List Respacing) : Source :=
  { s with content := String.ofList (changes.foldr Respacing.apply s.content.toList) }

/-- The positions right behind the tokens, and the start of the text. -/
def tokenEnds (s : Source) : List Nat :=
  (List.range (s.tokenize.tokens.length + 1)).map fun i => (Lexer.afterReads s i).cursor.position

end Source

/-- The change can be made to the source: the position is behind a token and not at the end, there
are only blanks to put there, and where there were some, some are left. -/
structure Respacing.Fits (r : Respacing) (s : Source) : Prop where
  behind : r.position ∈ s.tokenEnds
  inside : r.position < s.content.toList.length
  blank : ∀ c ∈ r.blanks, isBlank c
  kept : (s.content.toList.drop r.position).takeWhile isBlank ≠ [] → r.blanks ≠ []

/-- The second text begins like the first, or with a blank. -/
def BreaksLike (rest tail : List Char) : Prop :=
  tail.head? = rest.head? ∨ ∃ c ∈ tail.head?, isBlank c

section Breaks

variable {text rest tail : List Char} {lexeme : Lexeme}

theorem Ends.of_breaksLike (ends : Ends text lexeme rest) (breaks : BreaksLike rest tail) :
    Ends text lexeme tail := by
  rcases ends with itself | ⟨c, head, stop⟩
  · exact .inl itself
  · rcases breaks with same | ⟨b, first, blank⟩
    · exact .inr ⟨c, same ▸ head, stop⟩
    · refine .inr ⟨b, first, not_fuses_of_isBlank blank, fun _ => ?_⟩
      rintro rfl
      exact absurd blank (by decide)

theorem BreaksLike.append (breaks : BreaksLike rest tail) (front : List Char) :
    BreaksLike (front ++ rest) (front ++ tail) := by
  cases front with
  | nil => exact breaks
  | cons c front => exact .inl rfl

end Breaks

namespace Cursor

def withRest (c : Cursor) (text : List Char) : Cursor := { c with rest := text }

variable {c d next stop : Cursor} {tokens first second : List Token} {tail : List Char}

theorem advance_withRest {front rest : List Char} (split : c.rest = front ++ rest) :
    (c.withRest (front ++ tail)).advance front.length =
      (c.advance front.length).withRest tail := by
  simp [advance, withRest, split]

theorem Yields.withRest (yields : Yields c tokens stop) (breaks : BreaksLike stop.rest tail) :
    ∃ front, c.rest = front ++ stop.rest ∧ stop.position = c.position + front.length ∧
      Yields (c.withRest (front ++ tail)) tokens (stop.withRest tail) := by
  induction yields with
  | nil c => exact ⟨[], rfl, rfl, .nil _⟩
  | @cons c next stop token tokens read _ ih =>
    obtain ⟨front, behind, position, later⟩ := ih breaks
    obtain ⟨p, rest, valid, split, ends, rfl, rfl⟩ := exists_piece_of_scan read
    rw [rest_advance_length split] at behind
    subst behind
    have shorter : p.written.length ≤ c.rest.length := by
      rw [split, List.length_append]
      exact Nat.le_add_right ..
    rw [position_advance shorter] at position
    have again := scan_piece (c := c.withRest (p.written ++ (front ++ tail))) valid rfl
      (ends.of_breaksLike (breaks.append front))
    rw [advance_withRest split] at again
    refine ⟨p.written ++ front, by rw [split, List.append_assoc], ?_, ?_⟩
    · rw [position, List.length_append, Nat.add_assoc]
    · rw [List.append_assoc]
      exact .cons again later

theorem Yields.split (yields : Yields c (first ++ second) stop) :
    ∃ mid, Yields c first mid ∧ Yields mid second stop := by
  induction first generalizing c with
  | nil => exact ⟨c, .nil c, yields⟩
  | cons token first ih =>
    cases yields with
    | cons read yields =>
      obtain ⟨mid, before, behind⟩ := ih yields
      exact ⟨mid, .cons read before, behind⟩

theorem rest_skipBlanks (c : Cursor) : c.skipBlanks.rest = c.rest.dropWhile isBlank := by
  obtain ⟨blanks, behind, split, blank, stop⟩ := c.exists_blanks
  rw [skipBlanks_eq split blank stop, rest_advance_length split, split,
    dropWhile_append_stop blank stop]

/-- Two cursors with the same text behind their blanks find the same lexeme, with the same text
behind it, or fail for the same reason. -/
theorem scan_congr_token {token : Token} {stop : Cursor}
    (same : c.skipBlanks.rest = d.skipBlanks.rest) (read : c.scan = (.ok token, stop)) :
    ∃ token' stop', d.scan = (.ok token', stop') ∧ token.lexeme = token'.lexeme ∧
      stop.rest = stop'.rest := by
  unfold scan at read ⊢
  simp only [← same]
  cases outcome : (scanLexeme c.skipBlanks.rest).outcome with
  | ok lexeme =>
    simp only [outcome] at read
    cases read
    exact ⟨_, _, rfl, rfl, by simp [same]⟩
  | error fault => simp [outcome] at read

theorem scan_congr_error {e : ScanError} {stop : Cursor}
    (same : c.skipBlanks.rest = d.skipBlanks.rest) (read : c.scan = (.error e, stop)) :
    ∃ e' stop', d.scan = (.error e', stop') ∧ e.fault = e'.fault := by
  unfold scan at read ⊢
  simp only [← same]
  cases outcome : (scanLexeme c.skipBlanks.rest).outcome with
  | ok lexeme => simp [outcome] at read
  | error fault =>
    simp only [outcome] at read
    cases read
    exact ⟨_, _, rfl, rfl⟩

end Cursor

/-- What was read and why no more was, places aside. -/
def Tokenization.outline (t : Tokenization) : List Lexeme × Option Fault :=
  (t.tokens.map Token.lexeme, t.error?.map ScanError.fault)

/-- The outline of a reading depends only on the text behind the first blanks, and on whether there
is any text at all. -/
theorem Cursor.outline_tokenize_congr {c d : Cursor} (same : c.skipBlanks.rest = d.skipBlanks.rest)
    (ended : c.rest = [] ↔ d.rest = []) : c.tokenize.outline = d.tokenize.outline := by
  induction c using scan_induction generalizing d with
  | ended c done => rw [tokenize_of_atEnd done, tokenize_of_atEnd (ended.mp done)]
  | failed c e stop more read =>
    obtain ⟨e', stop', read', fault⟩ := scan_congr_error same read
    rw [tokenize_of_error more read, tokenize_of_error (more ∘ ended.mpr) read']
    simp only [Tokenization.outline, Option.map_some, fault]
  | token c token stop more read ih =>
    obtain ⟨token', stop', read', lexeme, behind⟩ := scan_congr_token same read
    have later : stop.tokenize.outline = stop'.tokenize.outline := by
      apply ih
      · rw [rest_skipBlanks, rest_skipBlanks, behind]
      · rw [behind]
    obtain ⟨tokens, error⟩ := Prod.mk.inj later
    rw [tokenize_of_token more read, tokenize_of_token (more ∘ ended.mpr) read']
    simp only [Tokenization.outline, List.map_cons, lexeme, tokens, error]

theorem Cursor.outline_tokenize_blanks {c : Cursor} {blanks : List Char}
    (blank : ∀ x ∈ blanks, isBlank x) (some : blanks ≠ []) (more : c.rest ≠ []) :
    (c.withRest (blanks ++ c.rest.dropWhile isBlank)).tokenize.outline = c.tokenize.outline := by
  apply outline_tokenize_congr
  · rw [rest_skipBlanks, rest_skipBlanks, withRest, List.dropWhile_append_of_pos blank,
      List.dropWhile_idempotent]
  · simp [withRest, some, more]

theorem Cursor.Yields.outline_tokenize {c stop : Cursor} {tokens : List Token}
    (yields : c.Yields tokens stop) : c.tokenize.outline =
      (tokens.map Token.lexeme ++ stop.tokenize.outline.1, stop.tokenize.outline.2) := by
  rw [Cursor.tokenize_of_yields yields, Tokenization.outline, List.map_append]
  rfl

namespace Source

variable {s t : Source}

theorem mem_tokenEnds {p : Nat} :
    p ∈ s.tokenEnds ↔ ∃ tokens stop, s.cursor.Yields tokens stop ∧ stop.position = p := by
  simp only [tokenEnds, List.mem_map, List.mem_range, Nat.lt_succ_iff]
  constructor
  · rintro ⟨i, inside, rfl⟩
    obtain ⟨stop, all, -⟩ := s.exists_yields
    rw [← List.take_append_drop i s.tokenize.tokens] at all
    obtain ⟨mid, yields, -⟩ := all.split
    have here := (Lexer.yields_afterReads (k := 0) yields rfl).1
    rw [Nat.zero_add, List.length_take, Nat.min_eq_left inside] at here
    exact ⟨_, mid, yields, by rw [here]⟩
  · rintro ⟨tokens, stop, yields, rfl⟩
    have here := (Lexer.yields_afterReads (k := 0) yields rfl).1
    rw [Nat.zero_add] at here
    refine ⟨tokens.length, ?_, by rw [here]⟩
    rw [tokenize, Cursor.tokenize_of_yields yields, List.length_append]
    exact Nat.le_add_right ..

/-- A row of tokens is read in another source as well if that has the same text up to the end of the
row and breaks off there. -/
theorem yields_of_alike {p : Nat} {tokens : List Token} {stop : Cursor}
    (yields : s.cursor.Yields tokens stop) (position : stop.position = p)
    (front : t.content.toList.take p = s.content.toList.take p)
    (breaks : BreaksLike (s.content.toList.drop p) (t.content.toList.drop p)) :
    t.cursor.Yields tokens (stop.withRest (t.content.toList.drop p)) := by
  subst position
  have on : stop.On s.content.toList := yields.on (Cursor.on_ofList _)
  rw [← on.rest_eq] at breaks
  obtain ⟨before, split, position, again⟩ := yields.withRest breaks
  have whole : t.content.toList = before ++ t.content.toList.drop stop.position := by
    have passed : s.content.toList.take stop.position = before := by
      have start : s.cursor.rest = s.content.toList := rfl
      have length : stop.position = before.length := by
        rw [position]
        exact Nat.zero_add _
      rw [← start, split, length, List.take_left]
    rw [← passed, ← front, List.take_append_drop]
  rw [← whole] at again
  exact again

theorem take_respaced {r : Respacing} {p : Nat} (inside : r.position ≤ s.content.toList.length)
    (before : p ≤ r.position) :
    (s.respaced [r]).content.toList.take p = s.content.toList.take p := by
  have length : p ≤ (s.content.toList.take r.position).length := by
    rw [List.length_take, Nat.min_eq_left inside]
    exact before
  simp only [respaced, List.foldr_cons, List.foldr_nil, String.toList_ofList, Respacing.apply,
    List.append_assoc]
  rw [List.take_append_of_le_length length, List.take_take, Nat.min_eq_left before]

theorem drop_respaced {r : Respacing} (inside : r.position ≤ s.content.toList.length) :
    (s.respaced [r]).content.toList.drop r.position =
      r.blanks ++ (s.content.toList.drop r.position).dropWhile isBlank := by
  have length : (s.content.toList.take r.position).length = r.position := by
    rw [List.length_take, Nat.min_eq_left inside]
  simp only [respaced, List.foldr_cons, List.foldr_nil, String.toList_ofList, Respacing.apply,
    List.append_assoc]
  exact List.drop_left' length

theorem length_le_respaced {r : Respacing} (inside : r.position ≤ s.content.toList.length) :
    r.position ≤ (s.respaced [r]).content.toList.length := by
  have front := congrArg List.length (take_respaced inside (Nat.le_refl r.position))
  rw [List.length_take, List.length_take, Nat.min_eq_left inside] at front
  omega

theorem head_respaced {r : Respacing} {p : Nat} (inside : r.position ≤ s.content.toList.length)
    (before : p < r.position) :
    ((s.respaced [r]).content.toList.drop p).head? = (s.content.toList.drop p).head? := by
  have front := congrArg (·[p]?) (take_respaced inside (Nat.le_refl r.position))
  simp only [List.getElem?_take, before, if_true] at front
  rw [List.head?_drop, List.head?_drop, front]

theorem respaced_nil (s : Source) : s.respaced [] = s := by
  simp [respaced]

theorem respaced_cons (s : Source) (r : Respacing) (changes : List Respacing) :
    s.respaced (r :: changes) = (s.respaced changes).respaced [r] := by
  simp [respaced]

end Source

section Fits

variable {s : Source} {r later : Respacing} {changes : List Respacing}

theorem takeWhile_isBlank_ne_nil_iff {text : List Char} :
    text.takeWhile isBlank ≠ [] ↔ ∃ c ∈ text.head?, isBlank c := by
  cases text with
  | nil => simp
  | cons c text => simp [List.takeWhile_cons]

theorem Respacing.Fits.respaced_of_blanks_nil (fits : r.Fits s) (none : r.blanks = []) :
    s.respaced [r] = s := by
  have blankless : (s.content.toList.drop r.position).takeWhile isBlank = [] :=
    by_contra fun some => fits.kept some none
  have whole := List.takeWhile_append_dropWhile
    (p := isBlank) (l := s.content.toList.drop r.position)
  rw [blankless, List.nil_append] at whole
  simp [Source.respaced, Respacing.apply, none, whole]

theorem Respacing.Fits.outline_tokenize (fits : r.Fits s) :
    (s.respaced [r]).tokenize.outline = s.tokenize.outline := by
  by_cases none : r.blanks = []
  · rw [fits.respaced_of_blanks_nil none]
  obtain ⟨tokens, stop, yields, position⟩ := Source.mem_tokenEnds.mp fits.behind
  have on : stop.On s.content.toList := yields.on (Cursor.on_ofList _)
  have rest : stop.rest = s.content.toList.drop r.position := by rw [on.rest_eq, position]
  have more : stop.rest ≠ [] := by
    rw [rest, ne_eq, List.drop_eq_nil_iff, not_le]
    exact fits.inside
  have inside := fits.inside.le
  have behind := Source.drop_respaced (r := r) inside
  have breaks : BreaksLike (s.content.toList.drop r.position)
      ((s.respaced [r]).content.toList.drop r.position) := by
    obtain ⟨b, blanks, split⟩ := List.exists_cons_of_ne_nil none
    exact .inr ⟨b, by rw [behind, split]; rfl, fits.blank b (by rw [split]; exact .head _)⟩
  have again := Source.yields_of_alike yields position (Source.take_respaced inside le_rfl) breaks
  rw [behind, ← rest] at again
  rw [Source.tokenize, Source.tokenize, again.outline_tokenize, yields.outline_tokenize,
    Cursor.outline_tokenize_blanks fits.blank none more]

theorem Respacing.Fits.before (fits : r.Fits s) (other : later.Fits s)
    (order : r.position < later.position) : r.Fits (s.respaced [later]) := by
  obtain ⟨tokens, stop, yields, position⟩ := Source.mem_tokenEnds.mp fits.behind
  have inside := other.inside.le
  have head := Source.head_respaced inside order
  have again :=
    Source.yields_of_alike yields position (Source.take_respaced inside order.le) (.inl head)
  refine ⟨Source.mem_tokenEnds.mpr ⟨tokens, _, again, position⟩,
    order.trans_le (Source.length_le_respaced inside), fits.blank, fun some => fits.kept ?_⟩
  rw [takeWhile_isBlank_ne_nil_iff] at some ⊢
  rwa [head] at some

theorem Respacing.Fits.before_all (fits : r.Fits s) (others : ∀ later ∈ changes, later.Fits s)
    (ordered : (r :: changes).Pairwise (·.position < ·.position)) :
    r.Fits (s.respaced changes) := by
  induction changes generalizing r with
  | nil => rwa [Source.respaced_nil]
  | cons next changes ih =>
    obtain ⟨first, rest⟩ := List.forall_mem_cons.mp others
    obtain ⟨before, inner⟩ := List.pairwise_cons.mp ordered
    obtain ⟨apart, tail⟩ := List.pairwise_cons.mp inner
    rw [Source.respaced_cons]
    apply (ih fits rest _).before (ih first rest inner) (before next List.mem_cons_self)
    exact .cons (fun later member => before later (.tail _ member)) tail

/-- Other blanks behind any of the tokens of a source, or before the first of them, leave the tokens
as they are and the reason for which the reading fails, if it does; only places move. -/
theorem tokenize_respaced (s : Source) (changes : List Respacing)
    (ordered : changes.Pairwise (·.position < ·.position)) (fits : ∀ r ∈ changes, r.Fits s) :
    (s.respaced changes).tokenize.tokens.map Token.lexeme = s.tokenize.tokens.map Token.lexeme ∧
      (s.respaced changes).tokenize.error?.map ScanError.fault =
        s.tokenize.error?.map ScanError.fault := by
  have outline : (s.respaced changes).tokenize.outline = s.tokenize.outline := by
    induction changes with
    | nil => rw [Source.respaced_nil]
    | cons r changes ih =>
      obtain ⟨first, rest⟩ := List.forall_mem_cons.mp fits
      rw [Source.respaced_cons, (first.before_all rest ordered).outline_tokenize]
      exact ih (List.pairwise_cons.mp ordered).2 rest
  exact Prod.mk.inj outline

theorem tokenize_respaced_unknown :
    let s := Source.anonymous "x+1 #"
    let changes : List Respacing := [⟨0, ['\n']⟩, ⟨1, [' ', '\t']⟩, ⟨3, ['\r', '\n']⟩]
    let t := Source.anonymous "\nx \t+1\r\n#"
    changes.Pairwise (·.position < ·.position) ∧ (∀ r ∈ changes, r.Fits s) ∧
      s.respaced changes = t ∧
      t.tokenize.tokens.map Token.lexeme = s.tokenize.tokens.map Token.lexeme ∧
      t.tokenize.error?.map ScanError.fault = some .unknownToken := by
  intro s changes t
  have ordered : changes.Pairwise (·.position < ·.position) := by decide
  have ends : s.tokenEnds = [0, 1, 2, 3] := by decide +kernel
  have length : s.content.toList.length = 5 := by decide +kernel
  have fits : ∀ r ∈ changes, r.Fits s := by
    simp only [changes, List.forall_mem_cons, List.not_mem_nil, false_implies, implies_true,
      and_true]
    refine ⟨⟨?_, ?_, ?_, ?_⟩, ⟨?_, ?_, ?_, ?_⟩, ?_, ?_, ?_, ?_⟩ <;> simp [ends, length, isBlank]
  have same : s.respaced changes = t := by decide +kernel
  obtain ⟨tokens, fault⟩ := tokenize_respaced s changes ordered fits
  rw [same] at tokens fault
  exact ⟨ordered, fits, same, tokens, fault.trans (by decide +kernel)⟩

end Fits

end TemplateLexer
