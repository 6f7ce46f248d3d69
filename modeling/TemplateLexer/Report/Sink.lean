import TemplateLexer.Tokenization

/-! Where reports go: they are kept, counted or dropped. One sink can serve many tokenizations. -/
namespace TemplateLexer

inductive Sink (ε : Type) where
  /-- Keeps every report, in the order of arrival. -/
  | storage (received : List ε)
  /-- Counts the reports since it was last reset. -/
  | counter (count : Nat)
  | discard
  deriving DecidableEq, Repr

namespace Sink

variable {ε : Type}

def receive (sink : Sink ε) (report : ε) : Sink ε :=
  match sink with
  | storage received => storage (received ++ [report])
  | counter count => counter (count + 1)
  | discard => discard

def reset : Sink ε → Sink ε
  | counter _ => counter 0
  | sink => sink

def received : Sink ε → List ε
  | storage received => received
  | _ => []

end Sink

/-- The tokens of a source. The error that ended the reading, if one did, goes to the sink. -/
def Source.tokenizeInto (s : Source) (sink : Sink ScanError) :
    List Token × Sink ScanError :=
  (s.tokenize.tokens, s.tokenize.error?.elim sink sink.receive)

inductive SessionStep where
  | tokenize (source : Source)
  | receive (error : ScanError)
  | reset
  deriving DecidableEq, Repr

namespace SessionStep

def run (step : SessionStep) (sink : Sink ScanError) : List Token × Sink ScanError :=
  match step with
  | tokenize source => source.tokenizeInto sink
  | receive error => ([], sink.receive error)
  | reset => ([], sink.reset)

end SessionStep

end TemplateLexer
