/-! Places in a source text. Lines and columns count from 1, and columns count characters. -/
namespace TemplateLexer

structure Location where
  line : Nat
  column : Nat
  deriving DecidableEq, Repr

namespace Location

def start : Location := ⟨1, 1⟩

instance : Inhabited Location := ⟨start⟩

/-- The place behind a character. Only a line feed opens a new line; a carriage return is one column
like any other character. -/
def after (l : Location) (c : Char) : Location :=
  if c = '\n' then ⟨l.line + 1, 1⟩ else ⟨l.line, l.column + 1⟩

def afterAll (l : Location) (text : List Char) : Location := text.foldl after l

instance : Ord Location where
  compare a b := (compare a.line b.line).then (compare a.column b.column)

instance : ToString Location := ⟨fun l => s!"line {l.line}, column {l.column}"⟩

@[simp] theorem afterAll_nil (l : Location) : l.afterAll [] = l := rfl

@[simp] theorem afterAll_cons (l : Location) (c : Char) (text : List Char) :
    l.afterAll (c :: text) = (l.after c).afterAll text := rfl

@[simp] theorem afterAll_append (l : Location) (first second : List Char) :
    l.afterAll (first ++ second) = (l.afterAll first).afterAll second := by
  simp [afterAll]

end Location

end TemplateLexer
