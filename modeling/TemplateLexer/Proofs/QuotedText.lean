import TemplateLexer.Proofs.Grammar

/-! Quoted texts. The inside of a quoted text is passed over piece by piece, so that what comes of
the scan depends only on the first place where the inside cannot go on. -/
namespace TemplateLexer

namespace Quoted

theorem unescape?_eq_some_iff {letter c : Char} :
    unescape? letter = some c ↔ (letter, c) ∈ escapes := by
  constructor
  · intro known
    obtain ⟨before, behind, table, -⟩ := List.lookup_eq_some_iff.mp known
    simp [table]
  · intro member
    simp only [escapes, List.mem_cons, Prod.mk.injEq, List.not_mem_nil, or_false] at member
    rcases member with ⟨rfl, rfl⟩ | ⟨rfl, rfl⟩ | ⟨rfl, rfl⟩ | ⟨rfl, rfl⟩ | ⟨rfl, rfl⟩ | ⟨rfl, rfl⟩ |
      ⟨rfl, rfl⟩ <;> rfl

theorem unescape?_eq_none_iff {letter : Char} :
    unescape? letter = none ↔ ∀ entry ∈ escapes, entry.1 ≠ letter := by
  rw [unescape?, List.lookup_eq_none_iff]
  simp only [bne_iff_ne, ne_comm]

/-- Why the inside of a quoted text cannot go on at the front of a text. -/
inductive Halt (quote : Char) : List Char → Prop where
  | empty : Halt quote []
  | escape : Halt quote ['\\']
  | invalid {letter : Char} {rest : List Char} : unescape? letter = none →
      Halt quote ('\\' :: letter :: rest)
  | closed {rest : List Char} : Halt quote (quote :: rest)

/-- Every text goes on as the inside of a quoted text up to a place where that has to end. -/
theorem exists_body (quote : Char) (text : List Char) :
    ∃ body value tail, text = body ++ tail ∧ Body quote body value ∧ Halt quote tail := by
  induction text using scanQuoted.induct quote with
  | case1 => exact ⟨[], [], [], rfl, .nil, .empty⟩
  | case2 => exact ⟨[], [], ['\\'], rfl, .nil, .escape⟩
  | case3 letter rest unknown => exact ⟨[], [], '\\' :: letter :: rest, rfl, .nil, .invalid unknown⟩
  | case4 letter rest c known ih =>
    obtain ⟨body, value, tail, rfl, inside, halt⟩ := ih
    exact ⟨'\\' :: letter :: body, c :: value, tail, rfl,
      .escaped (unescape?_eq_some_iff.mp known) inside, halt⟩
  | case5 rest plain => exact ⟨[], [], quote :: rest, rfl, .nil, .closed⟩
  | case6 c rest plain other ih =>
    obtain ⟨body, value, tail, rfl, inside, halt⟩ := ih
    exact ⟨c :: body, c :: value, tail, rfl, .plain plain other inside, halt⟩

end Quoted

section Scan

variable {quote c letter : Char} {body value rest : List Char}

theorem scanQuoted_quote (plain : quote ≠ '\\') : scanQuoted quote (quote :: rest) = .found [] 1 := by
  rw [scanQuoted.eq_def]
  simp [plain]

theorem scanQuoted_plain (plain : c ≠ '\\') (other : c ≠ quote) :
    scanQuoted quote (c :: rest) = (scanQuoted quote rest).mapAfter 1 (c :: ·) := by
  rw [scanQuoted.eq_def]
  simp [plain, other]

theorem scanQuoted_append (inside : Quoted.Body quote body value) (tail : List Char) :
    scanQuoted quote (body ++ tail) = (scanQuoted quote tail).mapAfter body.length (value ++ ·) := by
  induction inside with
  | nil => exact (Scan.mapAfter_zero_id _).symm
  | @plain c body value plain other inside ih =>
    rw [List.cons_append, scanQuoted_plain plain other, ih, Scan.mapAfter_mapAfter,
      List.length_cons, Nat.add_comm 1]
    rfl
  | @escaped letter c body value member inside ih =>
    rw [List.cons_append, List.cons_append, scanQuoted, if_pos rfl]
    simp only [Quoted.unescape?_eq_some_iff.mpr member]
    rw [ih, Scan.mapAfter_mapAfter, List.length_cons, List.length_cons, Nat.add_comm 2]
    rfl

theorem scanQuoted_closed (inside : Quoted.Body quote body value) (plain : quote ≠ '\\') :
    scanQuoted quote (body ++ quote :: rest) = .found value (body.length + 1) := by
  rw [scanQuoted_append inside, scanQuoted_quote plain]
  simp

theorem scanQuoted_open (inside : Quoted.Body quote body value) :
    scanQuoted quote body = .failed .unexpectedEnd body.length := by
  have read := scanQuoted_append inside []
  rwa [List.append_nil, scanQuoted, Scan.mapAfter_failed, Nat.add_zero] at read

theorem scanQuoted_open_escape (inside : Quoted.Body quote body value) :
    scanQuoted quote (body ++ ['\\']) = .failed .unexpectedEnd (body.length + 1) := by
  rw [scanQuoted_append inside, scanQuoted]
  simp

theorem scanQuoted_invalid (inside : Quoted.Body quote body value)
    (unknown : Quoted.unescape? letter = none) :
    scanQuoted quote (body ++ '\\' :: letter :: rest) =
      .failed (.invalidEscape letter) (body.length + 2) := by
  rw [scanQuoted_append inside, scanQuoted]
  simp [unknown]

end Scan

end TemplateLexer
