import TemplateLexer.Proofs.LineAgreement
import TemplateLexer.Proofs.Reads
import TemplateLexer.Proofs.Rendering

/-! The written form of strings. It stands on one line and shows its own end, so that it is read back
whatever follows it; and as it depends on the value alone, it is a normal form of all the literals
that stand for one value. -/
namespace TemplateLexer

namespace Quoted

/-- The characters of a quoted text that stand for themselves: what is left of it without the
backslashes and the characters that they escape. -/
def bare : List Char → List Char
  | [] => []
  | c :: text =>
    if c = '\\' then
      match text with
      | [] => []
      | _ :: text => bare text
    else c :: bare text

section Encode

variable {c letter : Char} {value text : List Char}

theorem bare_escaped : bare ('\\' :: letter :: text) = bare text := by
  rw [bare.eq_def]
  simp

theorem bare_plain (plain : c ≠ '\\') : bare (c :: text) = c :: bare text := by
  rw [bare.eq_def]
  simp [plain]

theorem encodeChar_escaped (known : escape? c = some letter) : encodeChar c = ['\\', letter] := by
  simp [encodeChar, known]

theorem encodeChar_plain (none : escape? c = none) : encodeChar c = [c] := by
  simp [encodeChar, none]

theorem escape?_ne_none (member : (letter, c) ∈ escapes) : escape? c ≠ none := by
  have table : ∀ entry ∈ escapes, escape? entry.2 ≠ none := by simp [escapes, escape?]
  exact table (letter, c) member

theorem bare_encode (value : List Char) :
    bare (encode value) = value.filter fun c => (escape? c).isNone := by
  induction value with
  | nil => rfl
  | cons c value ih =>
    rw [encode_cons]
    cases known : escape? c with
    | some letter =>
      rw [encodeChar_escaped known, List.cons_append, List.singleton_append, bare_escaped, ih]
      simp [known]
    | none =>
      have plain : c ≠ '\\' := by
        rintro rfl
        exact escape?_ne_none (show ('\\', '\\') ∈ escapes by simp [escapes]) known
      rw [encodeChar_plain known, List.singleton_append, bare_plain plain, ih]
      simp [known]

theorem not_isQuote_of_mem_bare_encode (member : c ∈ bare (encode value)) : ¬ isQuote c := by
  intro quote
  rw [bare_encode, List.mem_filter] at member
  have table : ∀ c ∈ ['"', '\''], (escape? c).isNone = false := by simp [escape?, escapes]
  rw [table c (mem_of_isQuote quote)] at member
  exact absurd member.2 (by decide)

theorem not_mem_encode (member : (letter, c) ∈ escapes)
    (other : c ≠ '\\' ∧ ∀ entry ∈ escapes, entry.1 ≠ c) : c ∉ encode value := by
  intro inside
  obtain ⟨x, -, written⟩ := List.mem_flatMap.mp inside
  cases known : escape? x with
  | some letter =>
    have entry := unescape?_eq_some_iff.mp (unescape?_of_escape? known)
    rw [encodeChar_escaped known, List.mem_cons, List.mem_singleton] at written
    rcases written with slash | rfl
    · exact other.1 slash
    · exact other.2 _ entry rfl
  | none =>
    rw [encodeChar_plain known, List.mem_singleton] at written
    exact escape?_ne_none (written ▸ member) known

theorem not_mem_quote (value : List Char) : ∀ c ∈ ['\n', '\r', '\t', '\x00'], c ∉ quote value := by
  have table : ∀ c ∈ ['\n', '\r', '\t', '\x00'], c ≠ '"' ∧ (∃ letter, (letter, c) ∈ escapes) ∧
      c ≠ '\\' ∧ ∀ entry ∈ escapes, entry.1 ≠ c := by
    simp [escapes]
  intro c member
  obtain ⟨outside, ⟨letter, known⟩, other⟩ := table c member
  simp only [quote, List.cons_append, List.mem_cons, List.mem_append, not_or]
  exact ⟨outside, not_mem_encode known other, outside, List.not_mem_nil⟩

end Encode

end Quoted

theorem Cursor.advance_inline {c : Cursor} {front behind : List Char}
    (split : c.rest = front ++ behind) (inline : '\n' ∉ front) :
    c.advance front.length =
      ⟨behind, c.position + front.length, ⟨c.location.line, c.location.column + front.length⟩⟩ := by
  simp [advance, split, Location.afterAll_inline inline]

namespace Lexer

/-- Where the written form of a string comes first in a source, the first read finds that string and
stops behind it. -/
theorem next_string_text (value : String) (behind : List Char) :
    let text := (Lexeme.string value).text
    let l := ofSource (.anonymous (String.ofList (text ++ behind)))
    l.next.1 = .ok ⟨.start, .string value⟩ ∧
      l.next.2.cursor = ⟨behind, text.length, ⟨1, text.length + 1⟩⟩ := by
  intro text l
  have fresh : l.cursor = .ofList (text ++ behind) := by
    simp [l, ofSource, ofCursor, Source.anonymous, Source.cursor, Cursor.ofString]
  have rest : l.cursor.rest = text ++ behind := by rw [fresh, Cursor.rest_ofList]
  have inline : '\n' ∉ text := Quoted.not_mem_quote value.toList '\n' (by simp)
  have read : l.cursor.scan = (.ok ⟨l.cursor.location, .string value⟩, l.cursor.advance text.length) :=
    Cursor.scan_piece (p := ⟨[], text, .string value⟩) ⟨by simp, Quoted.spells_quote value⟩ rest
      (.inl rfl)
  rw [next_of_unbuffered rfl, read, Cursor.advance_inline rest inline, fresh]
  refine ⟨rfl, ?_⟩
  simp [Cursor.ofList, Location.start, Nat.add_comm]

/-- A string that a scan found was written between quotes of one kind, its characters raw or
escaped. -/
theorem exists_quoted_of_scan {c stop : Cursor} {token : Token} {value : String}
    (read : c.scan = (.ok token, stop)) (string : token.lexeme = .string value) :
    ∃ blanks quote body, (∀ x ∈ blanks, isBlank x) ∧ isQuote quote ∧
      Quoted.Body quote body value.toList ∧
        c.rest = blanks ++ quote :: (body ++ quote :: stop.rest) := by
  obtain ⟨p, rest, valid, split, -, rfl, rfl⟩ := Cursor.exists_piece_of_scan read
  obtain ⟨blanks, text, lexeme⟩ := p
  obtain rfl : lexeme = .string value := string
  rw [Cursor.rest_advance_length split]
  cases valid.spells with
  | @string quote body value known inside =>
    refine ⟨blanks, quote, body, valid.blanks, known, by rwa [String.toList_ofList], ?_⟩
    rw [split]
    simp [Piece.written]

/-- The written form of a string stands on one line, with every quote inside escaped. A read finds
the string in it whatever follows, and stops right behind it. And whatever literal a scan accepted,
wherever it stood, whichever its quotes, and whether its characters were raw or escaped, the written
form of its value is read as the same value, of which it is the written form. -/
theorem string_text_normal :
    (∀ (value : String) (behind : List Char),
      let text := (Lexeme.string value).text
      let l := ofSource (.anonymous (String.ofList (text ++ behind)))
      l.next.1 = .ok ⟨.start, .string value⟩ ∧
        l.next.2.cursor = ⟨behind, text.length, ⟨1, text.length + 1⟩⟩ ∧
        (∀ c ∈ ['\n', '\r', '\t', '\x00'], c ∉ text) ∧
        ∃ inside, text = '"' :: (inside ++ ['"']) ∧ ∀ c ∈ Quoted.bare inside, ¬ isQuote c) ∧
      ∀ (c stop : Cursor) (token : Token) (value : String),
        c.scan = (.ok token, stop) → token.lexeme = .string value →
          (∃ blanks quote body, (∀ x ∈ blanks, isBlank x) ∧ isQuote quote ∧
            Quoted.Body quote body value.toList ∧
              c.rest = blanks ++ quote :: (body ++ quote :: stop.rest)) ∧
          ∃ again, (ofSource (.anonymous (String.ofList token.text))).next.1 = .ok again ∧
            again.lexeme = .string value ∧ again.text = token.text := by
  constructor
  · intro value behind
    obtain ⟨read, stop⟩ := next_string_text value behind
    have plain := Quoted.not_mem_quote value.toList
    have enclosed : (Lexeme.string value).text = '"' :: (Quoted.encode value.toList ++ ['"']) := rfl
    have escaped : ∀ c ∈ Quoted.bare (Quoted.encode value.toList), ¬ isQuote c :=
      fun c => Quoted.not_isQuote_of_mem_bare_encode
    exact ⟨read, stop, plain, _, enclosed, escaped⟩
  · intro c stop token value scanned string
    have text : token.text = (Lexeme.string value).text := by rw [Token.text, string]
    obtain ⟨read, -⟩ := next_string_text value []
    rw [List.append_nil] at read
    rw [text]
    exact ⟨exists_quoted_of_scan scanned string, ⟨.start, .string value⟩, read, rfl, rfl⟩

end Lexer

end TemplateLexer
