import Ascription.Diagnostic
import Ascription.Diagnostic.Code
import Ascription.Json.Printer
import Ascription.Source.LineMap

/-!
# Diagnostic/Report — diagnostics for programs

A report is a JSON object with the diagnostics of one run, each label with the line it starts on.
Missing codes, messages, notes and advice are left out.
-/

namespace Ascription

namespace Report

/-- A member that is there only with a value. -/
def optional (name : String) (value : Option Json) : List (String × Json) :=
  (value.map fun v => (name, v)).toList

def position (p : Position) : Json :=
  .object [("line", .ofNat p.line), ("column", .ofNat p.column)]

def label (lines : LineMap) (l : Label) : Json :=
  .object (("role", .string l.role.text) :: optional "message" (l.message.map .string) ++
    [("start", position l.span.start), ("end", position l.span.stop),
      ("source_line", .string ((lines.lineText l.span.start.line).getD ""))])

def diagnostic (lines : LineMap) (d : Diagnostic) : Json :=
  .object (("severity", .string d.severity.text) :: optional "code" (d.code.map .string) ++
    optional "category"
      ((d.code.bind ErrorCode.find?).map fun c => .string c.category.text) ++
    [("message", .string d.message), ("labels", .array (d.labels.map (label lines)))] ++
    (if d.notes.isEmpty then [] else [("notes", .array (d.notes.map .string))]) ++
    optional "help" (d.help.map .string))

end Report

/-- **The report of a run** over a text. -/
def report (diagnostics : List Diagnostic) (source file phase : String) : Json :=
  let lines := LineMap.ofSource source
  let errors := (diagnostics.filter fun d => d.severity == .error).length
  .object [("version", .ofNat 1), ("file", .string file), ("success", .bool (errors == 0)),
    ("phase", .string phase), ("diagnostics", .array (diagnostics.map (Report.diagnostic lines))),
    ("error_count", .ofNat errors)]

end Ascription
