import Reckon.CommandLine.Run
import Reckon.Config.Writer

/-!
# The program

Reads the file that the command line names, if it names one, and does what `respond` says. When
asked to be verbose it also writes the settings to the error output.
-/

set_option autoImplicit false

namespace Reckon

/-- The bytes of a file, or why they are not to be had. -/
def readFile (path : String) : IO (Except FileFault ByteArray) := do
  try
    return .ok (← IO.FS.readBinFile path)
  catch
    | .noFileOrDirectory .. => return .error .missing
    | .permissionDenied .. => return .error .denied
    | .inappropriateType _ 21 _ => return .error .directory
    | .inappropriateType .. => return .error .notDirectory
    | fault => return .error (.other (toString fault))

/-- Writes the settings in use to the error output. -/
def logSettings (options : Options) (files : Files) : IO Unit := do
  if options.verbose then
    if let .ok c := options.settings files then
      IO.eprintln ("DEBUG config: " ++ c.toText)

end Reckon

/-- Runs the program on its arguments. -/
def main (arguments : List String) : IO UInt32 := do
  let options := (Reckon.Options.read arguments).toOption
  let content ← match options.bind Reckon.Options.config with
    | some path => Reckon.readFile path
    | none => pure (.error .missing)
  options.forM fun o => Reckon.logSettings o fun _ => content
  let report := Reckon.respond (fun _ => content) arguments
  IO.print report.output
  IO.eprint report.error
  return report.code.toUInt32
