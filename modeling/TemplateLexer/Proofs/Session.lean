import Mathlib.Data.List.DropRight
import TemplateLexer.Proofs.Iteration
import TemplateLexer.Report.Sink

/-! One sink through a row of steps. What a tokenization gives back and what it sends are the tokens
and the error that iterating over the source hands out, whatever the sink and the steps before; and
the sink ends up with all that was sent. -/
namespace TemplateLexer

def tokensIn (results : List ScanResult) : List Token := results.filterMap Except.toOption

def errorsIn (results : List ScanResult) : List ScanError :=
  results.filterMap fun
    | .ok _ => none
    | .error e => some e

theorem Tokenization.tokensIn_items (t : Tokenization) : tokensIn t.items = t.tokens := by
  rcases t with ⟨tokens, _ | e⟩ <;> simp [tokensIn, items, Except.toOption, Function.comp_def]

theorem Tokenization.errorsIn_items (t : Tokenization) : errorsIn t.items = t.error?.toList := by
  rcases t with ⟨tokens, _ | e⟩ <;> simp [errorsIn, items]

namespace SessionStep

/-- The tokens that a step should give back. -/
def read : SessionStep → List Token
  | tokenize source => tokensIn (Lexer.ofSource source).drain.1
  | receive _ | reset => []

/-- The errors that a step should send to the sink. -/
def sent : SessionStep → List ScanError
  | tokenize source => errorsIn (Lexer.ofSource source).drain.1
  | receive error => [error]
  | reset => []

theorem read_tokenize (source : Source) : (tokenize source).read = source.tokenize.tokens := by
  rw [read, Lexer.drain_ofSource, Tokenization.tokensIn_items]

theorem sent_tokenize (source : Source) :
    (tokenize source).sent = source.tokenize.error?.toList := by
  rw [sent, Lexer.drain_ofSource, Tokenization.errorsIn_items]

theorem run_tokenize (source : Source) (sink : Sink ScanError) :
    (tokenize source).run sink =
      ((tokenize source).read, (tokenize source).sent.foldl Sink.receive sink) := by
  rw [read_tokenize, sent_tokenize, run, Source.tokenizeInto]
  cases source.tokenize.error? <;> rfl

theorem run_fst (step : SessionStep) (sink : Sink ScanError) : (step.run sink).1 = step.read := by
  cases step with
  | tokenize source => rw [run_tokenize]
  | receive error | reset => rfl

theorem run_snd {step : SessionStep} (other : step ≠ reset) (sink : Sink ScanError) :
    (step.run sink).2 = step.sent.foldl Sink.receive sink := by
  cases step with
  | tokenize source => rw [run_tokenize]
  | receive error => rfl
  | reset => exact absurd rfl other

end SessionStep

namespace Sink

theorem receive_storage (received errors : List ScanError) :
    errors.foldl receive (storage received) = storage (received ++ errors) := by
  induction errors generalizing received with
  | nil => rw [List.append_nil]; rfl
  | cons error errors ih => rw [List.foldl_cons, receive, ih, List.append_assoc]; rfl

theorem receive_counter (count : Nat) (errors : List ScanError) :
    errors.foldl receive (counter count) = counter (count + errors.length) := by
  induction errors generalizing count with
  | nil => rfl
  | cons error errors ih => rw [List.foldl_cons, receive, ih, Nat.add_right_comm]; rfl

def after (sink : Sink ScanError) (steps : List SessionStep) : Sink ScanError :=
  steps.foldl (fun sink step => (step.run sink).2) sink

def answers (sink : Sink ScanError) : List SessionStep → List (List Token)
  | [] => []
  | step :: steps => (step.run sink).1 :: (step.run sink).2.answers steps

/-- The steps behind the last reset; all of them if there is none. -/
def sinceReset (steps : List SessionStep) : List SessionStep := steps.rtakeWhile (· ≠ .reset)

variable {steps : List SessionStep}

theorem after_concat (sink : Sink ScanError) (steps : List SessionStep) (step : SessionStep) :
    sink.after (steps ++ [step]) = (step.run (sink.after steps)).2 := by
  simp [after]

theorem answers_eq (sink : Sink ScanError) (steps : List SessionStep) :
    sink.answers steps = steps.map SessionStep.read := by
  induction steps generalizing sink with
  | nil => rfl
  | cons step steps ih => rw [answers, List.map_cons, ih, SessionStep.run_fst]

theorem sinceReset_reset : sinceReset (steps ++ [.reset]) = [] := by
  simp [sinceReset]

theorem sinceReset_concat {step : SessionStep} (other : step ≠ .reset) :
    sinceReset (steps ++ [step]) = sinceReset steps ++ [step] := by
  simp [sinceReset, other]

theorem after_storage (received : List ScanError) (steps : List SessionStep) :
    (storage received).after steps = storage (received ++ steps.flatMap SessionStep.sent) := by
  induction steps using List.reverseRecOn with
  | nil => rw [List.flatMap_nil, List.append_nil]; rfl
  | append_singleton steps step ih =>
    rw [after_concat, ih, List.flatMap_append, List.flatMap_singleton, ← List.append_assoc]
    by_cases reset : step = .reset
    · subst reset
      rw [SessionStep.sent, List.append_nil]
      rfl
    · rw [SessionStep.run_snd reset, receive_storage]

/-- A counter counts what is sent behind the last reset, from where it started if there is none. -/
theorem after_counter (count : Nat) (steps : List SessionStep) :
    (counter count).after steps = counter ((if .reset ∈ steps then 0 else count) +
      ((sinceReset steps).flatMap SessionStep.sent).length) := by
  induction steps using List.reverseRecOn with
  | nil => rfl
  | append_singleton steps step ih =>
    rw [after_concat, ih]
    by_cases reset : step = .reset
    · subst reset
      have again : .reset ∈ steps ++ [.reset] := by simp
      rw [sinceReset_reset, if_pos again]
      rfl
    · have same : .reset ∈ steps ++ [step] ↔ .reset ∈ steps := by simp [Ne.symm reset]
      rw [SessionStep.run_snd reset, receive_counter, sinceReset_concat reset,
        if_congr same rfl rfl, List.flatMap_append, List.flatMap_singleton, List.length_append,
        Nat.add_assoc]

/-- Over any row of steps and from any sink, each tokenization gives back the tokens that iterating
over its source hands out, and sends the error that the iteration ends with, if it ends with one,
and nothing else. A storage then holds all that was sent, in order; a counter that starts at zero
has counted what was sent since it was last reset. -/
theorem session_follows_iteration (steps : List SessionStep) (sink : Sink ScanError) :
    (∀ earlier source, earlier ++ [.tokenize source] <+: steps →
      ∃ tokens error?, (Lexer.ofSource source).drain.1 =
          tokens.map .ok ++ (Option.toList error?).map .error ∧
        (sink.answers steps)[earlier.length]? = some tokens ∧
        sink.after (earlier ++ [.tokenize source]) =
          error?.elim (sink.after earlier) (sink.after earlier).receive ∧
        (SessionStep.tokenize source).sent = error?.toList) ∧
    (storage []).after steps = storage (steps.flatMap SessionStep.sent) ∧
    (counter 0).after steps =
      counter ((sinceReset steps).flatMap SessionStep.sent).length := by
  refine ⟨?_, after_storage [] steps, ?_⟩
  · rintro earlier source ⟨later, rfl⟩
    refine ⟨source.tokenize.tokens, source.tokenize.error?, Lexer.drain_ofSource source, ?_, ?_,
      SessionStep.sent_tokenize source⟩
    · rw [answers_eq, List.append_assoc, List.map_append]
      simp [SessionStep.read_tokenize]
    · rw [after_concat]
      rfl
  · rw [after_counter, ite_self, Nat.zero_add]

end Sink

end TemplateLexer
