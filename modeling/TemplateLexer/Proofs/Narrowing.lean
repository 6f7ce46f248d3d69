import Mathlib.Data.List.Infix
import TemplateLexer.Proofs.Runs

/-! Operators. Narrowing finds the longest front of a text that some operator begins with; where that
front is no operator itself, it is one of four characters that stand for an operator only twice. -/
namespace TemplateLexer

section Narrow

variable {candidates : List (List Char)} {front rest text spelling : List Char} {c : Char}

theorem behind?_eq_some_iff : behind? c text = some rest ↔ text = c :: rest := by
  cases text with
  | nil => simp [behind?]
  | cons x text => simp [behind?, eq_comm]

theorem narrow_cons_nil (left : candidates.filterMap (behind? c) = []) :
    narrow candidates (c :: text) = [] := by
  simp [narrow, left]

theorem narrow_cons (left : candidates.filterMap (behind? c) ≠ []) :
    narrow candidates (c :: text) = c :: narrow (candidates.filterMap (behind? c)) text := by
  simp only [narrow, List.isEmpty_iff, if_neg left]

theorem narrow_prefix (candidates : List (List Char)) (text : List Char) :
    narrow candidates text <+: text := by
  induction text generalizing candidates with
  | nil => exact List.prefix_rfl
  | cons c text ih =>
    by_cases left : candidates.filterMap (behind? c) = []
    · rw [narrow_cons_nil left]
      exact List.nil_prefix
    · rw [narrow_cons left]
      exact List.cons_prefix_cons.mpr ⟨rfl, ih _⟩

theorem exists_candidate_narrow (nonempty : narrow candidates text ≠ []) :
    ∃ spelling ∈ candidates, narrow candidates text <+: spelling := by
  induction text generalizing candidates with
  | nil => exact absurd rfl nonempty
  | cons c text ih =>
    by_cases left : candidates.filterMap (behind? c) = []
    · exact absurd (narrow_cons_nil left) nonempty
    rw [narrow_cons left]
    obtain ⟨tail, member, begins⟩ : ∃ tail ∈ candidates.filterMap (behind? c),
        narrow (candidates.filterMap (behind? c)) text <+: tail := by
      by_cases more : narrow (candidates.filterMap (behind? c)) text = []
      · rw [more]
        obtain ⟨tail, member⟩ := List.exists_mem_of_ne_nil _ left
        exact ⟨tail, member, List.nil_prefix⟩
      · exact ih more
    obtain ⟨spelling, candidate, found⟩ := List.mem_filterMap.mp member
    rw [behind?_eq_some_iff] at found
    exact ⟨spelling, candidate, by rw [found]; exact List.cons_prefix_cons.mpr ⟨rfl, begins⟩⟩

theorem prefix_narrow (member : spelling ∈ candidates) (begins : front <+: spelling)
    (at_front : front <+: text) : front <+: narrow candidates text := by
  induction front generalizing candidates spelling text with
  | nil => exact List.nil_prefix
  | cons c front ih =>
    obtain ⟨behind, rfl⟩ := begins
    obtain ⟨rest, rfl⟩ := at_front
    have kept : front ++ behind ∈ candidates.filterMap (behind? c) :=
      List.mem_filterMap.mpr ⟨_, member, behind?_eq_some_iff.mpr rfl⟩
    rw [List.cons_append, narrow_cons (List.ne_nil_of_mem kept)]
    exact List.cons_prefix_cons.mpr
      ⟨rfl, ih kept (List.prefix_append front behind) (List.prefix_append front rest)⟩

/-- The taken front ends where no candidate goes on with the next character. -/
theorem narrow_append (member : spelling ∈ candidates) (begins : front <+: spelling)
    (stop : ∀ c ∈ rest.head?, ∀ other ∈ candidates, ¬ front ++ [c] <+: other) :
    narrow candidates (front ++ rest) = front := by
  obtain ⟨more, taken⟩ := prefix_narrow member begins (List.prefix_append front rest)
  have within := narrow_prefix candidates (front ++ rest)
  rw [← taken, List.prefix_append_right_inj] at within
  cases more with
  | nil => rw [← taken, List.append_nil]
  | cons c more =>
    exfalso
    obtain ⟨behind, rfl⟩ := within
    have nonempty : narrow candidates (front ++ (c :: more ++ behind)) ≠ [] := by
      rw [← taken]
      simp
    obtain ⟨other, candidate, long⟩ := exists_candidate_narrow nonempty
    rw [← taken] at long
    apply stop c rfl other candidate
    apply List.IsPrefix.trans _ long
    exact (List.prefix_append_right_inj front).mpr (List.prefix_append [c] more)

end Narrow

theorem mem_operatorSpellings {text : List Char} :
    text ∈ operatorSpellings ↔ (∃ operator : UnaryOperator, operator.spelling.toList = text) ∨
      ∃ operator : BinaryOperator, operator.spelling.toList = text := by
  simp [operatorSpellings, Vocabulary.mem_all]

/-- The table of spellings as characters, on which facts about all operators can be decided. -/
theorem operatorSpellings_eq : operatorSpellings =
    [['!'], ['<'], ['<', '='], ['=', '='], ['=', '=', '='], ['>', '='], ['>'], ['!', '='],
      ['!', '=', '='], ['&', '&'], ['|', '|'], ['^'], ['?', '?'], ['+'], ['-'], ['*'],
      ['*', '*'], ['/'], ['%']] := rfl

theorem startsOperator_iff {c : Char} :
    startsOperator c ↔ ∃ spelling ∈ operatorSpellings, spelling.head? = some c := by
  simp [startsOperator]

/-- A front of an operator that is no operator is one of the characters that have to be doubled. -/
theorem operator_or_half {front spelling : List Char} (member : spelling ∈ operatorSpellings)
    (begins : front <+: spelling) (nonempty : front ≠ []) :
    front ∈ operatorSpellings ∨ ∃ c ∈ ['=', '&', '|', '?'], front = [c] := by
  have table : ∀ spelling ∈ operatorSpellings, ∀ front ∈ spelling.inits,
      front = [] ∨ front ∈ operatorSpellings ∨ front ∈ [['='], ['&'], ['|'], ['?']] := by
    rw [operatorSpellings_eq]
    decide
  rcases table spelling member front ((List.mem_inits ..).mpr begins) with rfl | known | half
  · exact absurd rfl nonempty
  · exact .inl known
  · right
    simpa using half

theorem half_operator {c d : Char} (half : c ∈ ['=', '&', '|', '?']) :
    (∃ spelling ∈ operatorSpellings, [c, d] <+: spelling) ↔ d = c := by
  simp only [List.mem_cons, List.not_mem_nil, or_false] at half
  have doubled : ∃ spelling ∈ operatorSpellings, [c, c] <+: spelling := by
    rw [operatorSpellings_eq]
    rcases half with rfl | rfl | rfl | rfl <;> decide
  have only : ∀ spelling ∈ operatorSpellings, spelling.head? = some c → spelling[1]? = some c := by
    rw [operatorSpellings_eq]
    rcases half with rfl | rfl | rfl | rfl <;> decide
  constructor
  · rintro ⟨spelling, member, tail, rfl⟩
    simpa using only _ member rfl
  · rintro rfl
    exact doubled

theorem half_begins {c : Char} (half : c ∈ ['=', '&', '|', '?']) :
    ∃ spelling ∈ operatorSpellings, [c] <+: spelling := by
  obtain ⟨spelling, member, begins⟩ := (half_operator half).mpr rfl
  exact ⟨spelling, member, List.IsPrefix.trans (List.prefix_append [c] [c]) begins⟩

theorem operatorLexeme_unary (operator : UnaryOperator) :
    operatorLexeme operator.spelling = .ok (.unaryOperator operator) := by
  cases operator; rfl

theorem operatorLexeme_binary (operator : BinaryOperator) :
    operatorLexeme operator.spelling = .ok (.binaryOperator operator) := by
  have found : Vocabulary.ofSpelling? operator.spelling = some operator :=
    Vocabulary.ofSpelling?_spelling operator
  rw [operatorLexeme, found]

theorem operatorLexeme_half {c : Char} (half : c ∈ ['=', '&', '|', '?']) :
    operatorLexeme (String.ofList [c]) = .error (.unknownOperator (String.ofList [c])) := by
  simp only [List.mem_cons, List.not_mem_nil, or_false] at half
  rcases half with rfl | rfl | rfl | rfl <;> rfl

inductive IsOperator : List Char → Lexeme → Prop where
  | unary (operator : UnaryOperator) : IsOperator operator.spelling.toList (.unaryOperator operator)
  | binary (operator : BinaryOperator) :
      IsOperator operator.spelling.toList (.binaryOperator operator)

theorem IsOperator.spells {text : List Char} {lexeme : Lexeme} (operator : IsOperator text lexeme) :
    Spells text lexeme := by
  cases operator with
  | unary operator => exact .unaryOperator operator
  | binary operator => exact .binaryOperator operator

theorem operatorLexeme_of_mem {text : List Char} (member : text ∈ operatorSpellings) :
    ∃ lexeme, operatorLexeme (String.ofList text) = .ok lexeme ∧ IsOperator text lexeme := by
  rcases mem_operatorSpellings.mp member with ⟨operator, rfl⟩ | ⟨operator, rfl⟩
  · exact ⟨_, by rw [String.ofList_toList, operatorLexeme_unary], .unary operator⟩
  · exact ⟨_, by rw [String.ofList_toList, operatorLexeme_binary], .binary operator⟩

section Operator

variable {front rest spelling : List Char} {c : Char}

theorem scanOperator_at_end (member : spelling ∈ operatorSpellings) (begins : front <+: spelling)
    (nonempty : front ≠ []) : scanOperator front = .failed .unexpectedEnd front.length := by
  have taken : narrow operatorSpellings (front ++ []) = front :=
    narrow_append member begins (by simp)
  rw [List.append_nil] at taken
  simp only [scanOperator, taken, List.drop_length]
  exact Scan.run_at_end nonempty

theorem scanOperator_before (member : spelling ∈ operatorSpellings) (begins : front <+: spelling)
    (nonempty : front ≠ []) (stop : ∀ other ∈ operatorSpellings, ¬ front ++ [c] <+: other) :
    scanOperator (front ++ c :: rest) = ⟨operatorLexeme (String.ofList front), front.length⟩ := by
  have taken : narrow operatorSpellings (front ++ c :: rest) = front :=
    narrow_append member begins (by simpa using stop)
  simp only [scanOperator, taken, List.drop_left]
  exact Scan.run_before nonempty (List.cons_ne_nil c rest)

theorem exists_operator_front (text : List Char) (starts : startsOperator c) :
    ∃ front rest spelling, c :: text = front ++ rest ∧ front ≠ [] ∧ spelling ∈ operatorSpellings ∧
      front <+: spelling ∧
        ∀ d ∈ rest.head?, ∀ other ∈ operatorSpellings, ¬ front ++ [d] <+: other := by
  obtain ⟨first, member, head⟩ := startsOperator_iff.mp starts
  obtain ⟨tail, rfl⟩ := List.head?_eq_some_iff.mp head
  have single : [c] <+: narrow operatorSpellings (c :: text) :=
    prefix_narrow member (List.prefix_append [c] tail) (List.prefix_append [c] text)
  have nonempty : narrow operatorSpellings (c :: text) ≠ [] := by
    intro none
    rw [none] at single
    exact absurd (List.prefix_nil.mp single) (by simp)
  obtain ⟨spelling, known, begins⟩ := exists_candidate_narrow nonempty
  obtain ⟨rest, split⟩ := narrow_prefix operatorSpellings (c :: text)
  refine ⟨_, rest, spelling, split.symm, nonempty, known, begins, ?_⟩
  intro d head other candidate long
  obtain ⟨behind, rfl⟩ := List.head?_eq_some_iff.mp head
  have next : narrow operatorSpellings (c :: text) ++ [d] <+: c :: text :=
    ⟨behind, by rw [List.append_assoc]; exact split⟩
  have longer := (prefix_narrow candidate long next).length_le
  rw [List.length_append, List.length_singleton] at longer
  omega

end Operator

end TemplateLexer
