import Mathlib.Data.List.Forall2
import TemplateLexer.Proofs.Acceptance
import TemplateLexer.Proofs.ReadBack

/-! Reading what was rendered. Tokens that were read from a text are rendered as a text of the
grammar again, which stands for the same lexemes, except that an infinite number comes back as the
symbol of its name. -/
namespace TemplateLexer

theorem Quoted.body_encode (value : List Char) : Body '"' (encode value) value := by
  induction value with
  | nil => exact .nil
  | cons c value ih =>
    rw [encode_cons]
    cases known : escape? c with
    | some letter =>
      simp only [encodeChar, known]
      exact .escaped (unescape?_eq_some_iff.mp (unescape?_of_escape? known)) ih
    | none =>
      simp only [encodeChar, known]
      have special : ∀ c ∈ ['\\', '"'], escape? c ≠ none := by simp [escape?, escapes]
      apply Body.plain _ _ ih
      · rintro rfl; exact special _ (by simp) known
      · rintro rfl; exact special _ (by simp) known

theorem Quoted.spells_quote (value : String) : Spells (quote value.toList) (.string value) := by
  have spelled : Spells ('"' :: (encode value.toList ++ ['"'])) _ :=
    .string rfl (body_encode value.toList)
  rwa [String.ofList_toList] at spelled

def Lexeme.isInfinite : Lexeme → Bool
  | number x => x.isInfinite
  | _ => false

/-- What a lexeme comes back as when its text is read. -/
def Lexeme.reread (lexeme : Lexeme) : Lexeme :=
  if lexeme.isInfinite then symbol "inf" else lexeme

theorem Spells.number_bounds {text : List Char} {x : Binary64} (spells : Spells text (.number x)) :
    x.negative = false ∧ x.magnitude ≤ Binary64.infinity := by
  cases spells with
  | whole | decimal => exact ⟨rfl, Binary64.magnitudeOfDecimal_le _⟩

/-- The text of a lexeme that was read is one of the ways to write what it comes back as. -/
theorem Spells.text_reread {text : List Char} {lexeme : Lexeme} (spells : Spells text lexeme) :
    Spells lexeme.text lexeme.reread := by
  cases lexeme with
  | openTemplate => exact .openTemplate
  | closeTemplate => exact .closeTemplate
  | openParenthesis => exact .openParenthesis
  | closeParenthesis => exact .closeParenthesis
  | number x =>
    obtain ⟨positive, bound⟩ := spells.number_bounds
    by_cases infinite : x.isInfinite
    · rw [Lexeme.text, Binary64.text_of_infinite positive infinite]
      simp only [Lexeme.reread, Lexeme.isInfinite, infinite, if_true]
      exact .symbol rfl (by simp [continuesWord, startsWord]) (by decide) (by decide)
    · have finite : x.magnitude < Binary64.infinity :=
        Nat.lt_of_le_of_ne bound (by simpa [Binary64.isInfinite] using infinite)
      simp only [Lexeme.text, Lexeme.reread, Lexeme.isInfinite, infinite]
      exact Binary64.spells_text positive finite
  | string value => exact Quoted.spells_quote value
  | keyword word =>
    cases spells with
    | null => exact .null
    | undefined => exact .undefined
  | symbol name =>
    have same : name.toList = text := by
      cases spells
      exact String.toList_ofList
    change Spells name.toList (.symbol name)
    rw [same]
    exact spells
  | unaryOperator operator => exact .unaryOperator operator
  | binaryOperator operator => exact .binaryOperator operator

namespace Piece

def rendered (separator : List Char) : List Lexeme → List Piece
  | [] => []
  | lexeme :: lexemes =>
    ⟨[], lexeme.text, lexeme.reread⟩ ::
      lexemes.map fun lexeme => ⟨separator, lexeme.text, lexeme.reread⟩

variable {separator : List Char} {lexemes : List Lexeme}

theorem map_lexeme_rendered (separator : List Char) (lexemes : List Lexeme) :
    (rendered separator lexemes).map Piece.lexeme = lexemes.map Lexeme.reread := by
  cases lexemes <;> simp [rendered, Function.comp_def]

theorem map_lexeme_tokens (l : Location) (pieces : List Piece) :
    (tokens l pieces).map Token.lexeme = pieces.map Piece.lexeme := by
  induction pieces generalizing l with
  | nil => rfl
  | cons p pieces ih => rw [tokens, List.map_cons, List.map_cons, ih]

theorem written_rendered (separator : List Char) (lexemes : List Lexeme) :
    (rendered separator lexemes).flatMap written =
      separator.intercalate (lexemes.map Lexeme.text) := by
  cases lexemes with
  | nil => rfl
  | cons lexeme lexemes =>
    rw [rendered, List.flatMap_cons, List.map_cons]
    induction lexemes generalizing lexeme with
    | nil => simp [written]
    | cons next lexemes ih =>
      rw [List.map_cons, List.map_cons, List.intercalate_cons_cons, ← ih next]
      simp [written]

theorem isChain_separate {p : Piece} {pieces : List Piece} (apart : ∀ q ∈ pieces, q.blanks ≠ []) :
    (p :: pieces).IsChain Separate := by
  induction pieces generalizing p with
  | nil => exact .singleton p
  | cons q pieces ih =>
    obtain ⟨first, later⟩ := List.forall_mem_cons.mp apart
    exact .cons_cons (fun none => absurd none first) (ih later)

theorem endsItself_reread (lexeme : Lexeme) : lexeme.reread.endsItself = lexeme.endsItself := by
  unfold Lexeme.reread
  split
  next infinite => cases lexeme <;> first | rfl | cases infinite
  · rfl

theorem sentence_rendered (blank : ∀ c ∈ separator, isBlank c) (some : separator ≠ [])
    (spelled : ∀ lexeme ∈ lexemes, ∃ text, Spells text lexeme)
    (ended : ∀ lexeme ∈ lexemes.getLast?, lexeme.endsItself) :
    Sentence (rendered separator lexemes) := by
  have valid : ∀ lexeme ∈ lexemes, Spells lexeme.text lexeme.reread := by
    intro lexeme member
    obtain ⟨text, spells⟩ := spelled lexeme member
    exact spells.text_reread
  cases lexemes with
  | nil => exact sentence_nil
  | cons lexeme lexemes =>
    obtain ⟨first, later⟩ := List.forall_mem_cons.mp valid
    refine ⟨?_, ?_, ?_⟩
    · rw [rendered, List.forall_mem_cons, List.forall_mem_map]
      exact ⟨⟨by simp, first⟩, fun next member => ⟨blank, later next member⟩⟩
    · apply isChain_separate
      rw [List.forall_mem_map]
      exact fun _ _ => some
    · have last : (rendered separator (lexeme :: lexemes)).getLast?.map Piece.lexeme =
          (lexeme :: lexemes).getLast?.map Lexeme.reread := by
        rw [← List.getLast?_map, ← List.getLast?_map, map_lexeme_rendered]
      intro p final
      rw [Option.mem_def.mp final, Option.map_some, eq_comm, Option.map_eq_some_iff] at last
      obtain ⟨original, member, same⟩ := last
      rw [← same, endsItself_reread]
      exact ended original member

end Piece

/-- Rendering the lexemes of a sentence and reading that text gives each of them as it comes
back. -/
theorem tokenize_rendered {pieces : List Piece} (sentence : Sentence pieces) {separator : List Char}
    (blank : ∀ c ∈ separator, isBlank c) (some : separator ≠ []) (l : Location) :
    let again :=
      (Source.anonymous (String.ofList (renderTokens separator (Piece.tokens l pieces)))).tokenize
    again.error? = none ∧
      again.tokens.map Token.lexeme = (pieces.map Piece.lexeme).map Lexeme.reread := by
  have texts : (Piece.tokens l pieces).map Token.text =
      (pieces.map Piece.lexeme).map Lexeme.text := by
    rw [← Piece.map_lexeme_tokens l, List.map_map]
    rfl
  have spelled : ∀ lexeme ∈ pieces.map Piece.lexeme, ∃ text, Spells text lexeme := by
    rw [List.forall_mem_map]
    exact fun p member => ⟨p.text, (sentence.wellFormed p member).spells⟩
  have ended : ∀ lexeme ∈ (pieces.map Piece.lexeme).getLast?, lexeme.endsItself := by
    rw [List.getLast?_map]
    intro lexeme last
    obtain ⟨p, final, rfl⟩ := Option.map_eq_some_iff.mp last
    exact sentence.ended p final
  have read := Cursor.tokenize_of_sentence (Piece.sentence_rendered blank some spelled ended)
    (c := .ofList (renderTokens separator (Piece.tokens l pieces)))
    (by rw [Cursor.rest_ofList, renderTokens, texts, Piece.written_rendered])
  intro again
  have same : again = (Cursor.ofList (renderTokens separator (Piece.tokens l pieces))).tokenize := by
    simp [again, Source.tokenize, Source.cursor, Source.anonymous, Cursor.ofString]
  rw [same, read]
  exact ⟨rfl, by rw [Piece.map_lexeme_tokens, Piece.map_lexeme_rendered]⟩

theorem Spells.valueEq_reread_iff {text : List Char} {lexeme : Lexeme}
    (spells : Spells text lexeme) :
    lexeme.valueEq lexeme.reread ↔ ¬ lexeme.isInfinite := by
  cases lexeme with
  | number x =>
    obtain ⟨-, bound⟩ := spells.number_bounds
    have number : x.isNaN = false := by simpa [Binary64.isNaN] using bound
    by_cases infinite : x.isInfinite
    · simp [Lexeme.reread, Lexeme.isInfinite, infinite, Lexeme.valueEq]
    · simp [Lexeme.reread, Lexeme.isInfinite, infinite, Lexeme.valueEq, Binary64.valueEq,
        Binary64.compare?, number]
  | _ => simp [Lexeme.reread, Lexeme.isInfinite, Lexeme.valueEq]

/-- Where a text is tokenized without an error, its tokens, rendered with blanks between them, are
read back without an error as equal tokens, place by place, exactly if none is an infinite number. -/
theorem renderTokens_read_back_iff (s : Source) (separator : List Char)
    (clean : s.tokenize.error? = none) (blank : ∀ c ∈ separator, isBlank c)
    (some : separator ≠ []) :
    let again :=
      (Source.anonymous (String.ofList (renderTokens separator s.tokenize.tokens))).tokenize
    (again.error? = none ∧
      List.Forall₂ (fun first second => first.lexeme.valueEq second.lexeme)
        s.tokenize.tokens again.tokens) ↔
      ∀ token ∈ s.tokenize.tokens, ¬ token.lexeme.isInfinite := by
  intro again
  obtain ⟨pieces, sentence, -, tokens⟩ :=
    Cursor.exists_sentence (show s.cursor.tokenize = ⟨s.tokenize.tokens, none⟩ by rw [← clean]; rfl)
  obtain ⟨fine, lexemes⟩ := tokenize_rendered sentence blank some s.cursor.location
  rw [← tokens] at fine lexemes
  rw [← Piece.map_lexeme_tokens s.cursor.location, ← tokens] at lexemes
  have spelled : ∀ token ∈ s.tokenize.tokens, ∃ text, Spells text token.lexeme := by
    rw [← List.forall_mem_map (f := Token.lexeme) (P := fun lexeme => ∃ text, Spells text lexeme),
      tokens, Piece.map_lexeme_tokens, List.forall_mem_map]
    exact fun p member => ⟨p.text, (sentence.wellFormed p member).spells⟩
  have pairs : List.Forall₂ (fun first second => first.lexeme.valueEq second.lexeme)
      s.tokenize.tokens again.tokens ↔
        List.Forall₂ (fun first second => first.valueEq second)
          (s.tokenize.tokens.map Token.lexeme) (again.tokens.map Token.lexeme) := by
    rw [List.forall₂_map_left_iff, List.forall₂_map_right_iff]
  rw [pairs, lexemes, List.forall₂_map_right_iff, List.forall₂_same, List.forall_mem_map]
  constructor
  · rintro ⟨-, equal⟩ token member
    obtain ⟨text, spells⟩ := spelled token member
    exact spells.valueEq_reread_iff.mp (equal token member)
  · intro finite
    refine ⟨fine, fun token member => ?_⟩
    obtain ⟨text, spells⟩ := spelled token member
    exact spells.valueEq_reread_iff.mpr (finite token member)

theorem renderTokens_read_back_mixed :
    let s := Source.anonymous "\x7b(1.50!==\t'it\\'s\n')null\x7d"
    let again :=
      (Source.anonymous (String.ofList (renderTokens ['\n', ' '] s.tokenize.tokens))).tokenize
    s.tokenize.error? = none ∧ (∀ c ∈ ['\n', ' '], isBlank c) ∧ ['\n', ' '] ≠ [] ∧
      again.error? = none ∧
        List.Forall₂ (fun first second => first.lexeme.valueEq second.lexeme)
          s.tokenize.tokens again.tokens :=
  ⟨by decide +kernel, by simp [isBlank], by simp,
    (renderTokens_read_back_iff _ ['\n', ' '] (by decide +kernel) (by simp [isBlank]) (by simp)).mpr
      (by decide +kernel)⟩

end TemplateLexer
