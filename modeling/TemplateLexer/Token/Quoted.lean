/-! Quoted text. A character that could be mistaken inside quotes, or that would not show on one
line, is written as a backslash and a letter. -/
namespace TemplateLexer.Quoted

/-- The letters that may follow a backslash, each with the character it stands for. -/
def escapes : List (Char × Char) :=
  [('n', '\n'), ('r', '\r'), ('t', '\t'), ('\\', '\\'), ('\'', '\''), ('"', '"'), ('0', '\x00')]

def unescape? (letter : Char) : Option Char := escapes.lookup letter

def escape? (c : Char) : Option Char := (escapes.find? fun entry => entry.2 == c).map Prod.fst

def encodeChar (c : Char) : List Char :=
  match escape? c with
  | some letter => ['\\', letter]
  | none => [c]

def encode (value : List Char) : List Char := value.flatMap encodeChar

/-- Both kinds of quote are escaped inside, whichever of them encloses the text. -/
def quote (value : List Char) : List Char := '"' :: encode value ++ ['"']

@[simp] theorem encode_nil : encode [] = [] := rfl

@[simp] theorem encode_cons (c : Char) (value : List Char) :
    encode (c :: value) = encodeChar c ++ encode value := rfl

theorem unescape?_of_escape? {c letter : Char} (h : escape? c = some letter) :
    unescape? letter = some c := by
  obtain ⟨⟨l, e⟩, hfind, rfl⟩ := Option.map_eq_some_iff.1 h
  have hc := List.find?_some hfind
  have hmem := List.mem_of_find?_eq_some hfind
  simp only [beq_iff_eq] at hc
  subst hc
  simp only [escapes, List.mem_cons, Prod.mk.injEq, List.not_mem_nil, or_false] at hmem
  rcases hmem with ⟨rfl, rfl⟩ | ⟨rfl, rfl⟩ | ⟨rfl, rfl⟩ | ⟨rfl, rfl⟩ | ⟨rfl, rfl⟩ | ⟨rfl, rfl⟩ |
    ⟨rfl, rfl⟩ <;> rfl

end TemplateLexer.Quoted
