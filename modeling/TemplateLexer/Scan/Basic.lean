import TemplateLexer.Scan.Fault

/-! What scanning the front of a text comes to: a value or a fault, and how many characters it took
either way. A failed scan gives nothing back. -/
namespace TemplateLexer

structure Scan (α : Type) where
  outcome : Except Fault α
  length : Nat

namespace Scan

variable {α β : Type}

def found (value : α) (length : Nat) : Scan α := ⟨.ok value, length⟩

def failed (fault : Fault) (length : Nat) : Scan α := ⟨.error fault, length⟩

def mapAfter (n : Nat) (f : α → β) (s : Scan α) : Scan β := ⟨s.outcome.map f, n + s.length⟩

@[simp] theorem mapAfter_found (n m : Nat) (f : α → β) (value : α) :
    (found value m).mapAfter n f = found (f value) (n + m) := rfl

@[simp] theorem mapAfter_failed (n m : Nat) (f : α → β) (fault : Fault) :
    (failed fault m : Scan α).mapAfter n f = failed fault (n + m) := rfl

theorem mapAfter_zero_id (s : Scan α) : s.mapAfter 0 id = s := by
  obtain ⟨outcome, length⟩ := s
  cases outcome <;> simp [mapAfter, Except.map]

theorem mapAfter_mapAfter {γ : Type} (n m : Nat) (f : α → β) (g : β → γ) (s : Scan α) :
    (s.mapAfter m f).mapAfter n g = s.mapAfter (n + m) (g ∘ f) := by
  obtain ⟨outcome, length⟩ := s
  cases outcome <;> simp [mapAfter, Except.map, Nat.add_assoc]

/-- Taking a run of characters. A run is never empty, and a text may not end with one: whether it
goes on is settled only by the character behind it. -/
def run (taken rest : List Char) (outcome : Except Fault α) : Scan α :=
  if taken.isEmpty then failed .unmatched 0
  else if rest.isEmpty then failed .unexpectedEnd taken.length
  else ⟨outcome, taken.length⟩

theorem length_pos_of_run_ok {taken rest : List Char} {outcome : Except Fault α} {value : α}
    (h : (run taken rest outcome).outcome = .ok value) : 0 < (run taken rest outcome).length := by
  cases taken with
  | nil => simp [run, failed] at h
  | cons c taken => cases rest <;> simp [run, failed]

end Scan

end TemplateLexer
