import FaultDrill.Json.Printer
import FaultDrill.Text.Blank
import FaultDrill.Yaml.Printer
/-!
# Document formats

Reports and histories can be written as documents: JSON with two blanks of indentation, or YAML.
-/
namespace FaultDrill.Report

/-- A format of documents. -/
inductive Format where
  | json
  | yaml
  deriving DecidableEq, Repr

namespace Format

/-- The format that a word names, in any case. -/
def ofWord (word : String) : Option Format :=
  match Text.lowerAscii word with
  | "json" => some json
  | "yaml" => some yaml
  | "yml" => some yaml
  | _ => none

/-- The name of a format, which is also the extension of its files. -/
def name : Format → String
  | json => "json"
  | yaml => "yaml"

/-- The text of a document. -/
def render (f : Format) (v : Document.Value) : String :=
  match f with
  | json => Json.pretty v
  | yaml => Yaml.print v

end Format
end FaultDrill.Report
