import TemplateLexer.Report.Style

/-! The headline of a report. -/
namespace TemplateLexer

inductive Severity where
  | error
  | info
  | warning
  deriving DecidableEq, Ord, Repr

namespace Severity

def label : Severity → String
  | error => "[error]:"
  | info => "[info]:"
  | warning => "[warning]:"

def color : Severity → Style
  | error => .red
  | info => .green
  | warning => .yellow

end Severity

structure Message where
  severity : Severity
  text : String
  deriving DecidableEq, Repr

def Message.row (m : Message) : Row :=
  [⟨[.bold, m.severity.color], m.severity.label.toList⟩, .spaces 1, ⟨[.bold], m.text.toList⟩]

end TemplateLexer
