import TemplateLexer.Expectation
import TemplateLexer.Lexer
import TemplateLexer.Report.Diagnostic
import TemplateLexer.Report.Sink
import TemplateLexer.Proofs.Acceptance
import TemplateLexer.Proofs.Failures
import TemplateLexer.Proofs.Rendering
import TemplateLexer.Proofs.LineAgreement
import TemplateLexer.Proofs.Iteration
import TemplateLexer.Proofs.Progress
import TemplateLexer.Proofs.Respacing
import TemplateLexer.Proofs.Session
import TemplateLexer.Proofs.Diagnostics
import TemplateLexer.Proofs.LongestMatch
import TemplateLexer.Proofs.QuotedForm
import TemplateLexer.Proofs.CaretPlacement
import TemplateLexer.Proofs.LinePartition
import TemplateLexer.Proofs.Consumption
