import FaultDrill.FileTree
import FaultDrill.Report.Format
import FaultDrill.Verdict
/-!
# Saved reports

A report is saved in the format that the extension of its file names. A file without such an
extension is written as JSON, and the extension of JSON is added to its name.
-/
namespace FaultDrill.Report

/-- The format of a file and the path that it is written to. -/
def destination (path : String) : Format × String :=
  match (Path.extension? path).bind Format.ofWord with
  | some format => (format, path)
  | none => (.json, path ++ "." ++ Format.json.name)

/-- Why a report was not saved: the path and the fault of the file. -/
abbrev SaveFault := String × FileTree.Fault

/-- What went wrong, the outermost description first. -/
def saveFaultChain (f : SaveFault) : List String := ["writing report " ++ f.1, f.2.message]

/-- Saves a report: the path written to, and the files then. -/
def save (files : FileTree) (r : CycleReport) (path : String) :
    Except SaveFault (String × FileTree) :=
  let (format, path) := destination path
  match files.write path (Text.Utf8.bytes (format.render r.document)) with
  | .ok files => .ok (path, files)
  | .error why => .error (path, why)

end FaultDrill.Report
