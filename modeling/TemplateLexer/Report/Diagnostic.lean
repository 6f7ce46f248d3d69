import TemplateLexer.Report.Excerpt
import TemplateLexer.Report.Message
import TemplateLexer.Scan.Fault

/-! A scan error as it is shown to the author of the source. -/
namespace TemplateLexer.ScanError

def headline (e : ScanError) : Message := ⟨.error, e.fault.message⟩

def excerpt (e : ScanError) (source : Source) : Excerpt := ⟨source, e.location, e.fault.help?⟩

def diagnostic (e : ScanError) (source : Source) : Except CaretTooFar (List Char) :=
  (e.excerpt source).render.map fun shown => e.headline.row.render ++ '\n' :: shown

end TemplateLexer.ScanError
