import Disassembly.CommandLine.Run
/-!
The program. No machine-code decoder is linked to it, so that every code ends at its first byte.
-/
namespace Disassembly.CommandLine

def missingFile : String := "No such file or directory (os error 2)"

def reason : IO.Error → String
  | .noFileOrDirectory .. => missingFile
  | .permissionDenied .. => "Permission denied (os error 13)"
  | error => toString error

def readFiles (paths : List String) : IO Files := do
  let entries ← paths.mapM fun (path : String) => do
    let result : Except String (List UInt8) ←
      try
        let bytes ← IO.FS.readBinFile path
        pure (.ok bytes.toList)
      catch error => pure (.error (reason error))
    pure (path, result)
  return fun path => (entries.lookup path).getD (.error missingFile)

/-- The lines of a failure and its causes. Several causes are numbered. -/
def failureLines : List String → List String
  | [] => []
  | [failure] => ["Error: " ++ failure]
  | [failure, cause] => ["Error: " ++ failure, "", "Caused by:", "    " ++ cause]
  | failure :: causes =>
    ["Error: " ++ failure, "", "Caused by:"] ++
      causes.zipIdx.map fun entry => "    " ++ toString entry.2 ++ ": " ++ entry.1

def runMain (arguments : List String) : IO UInt32 := do
  match Args.read arguments with
  | .error complaint =>
    IO.eprintln complaint.name
    return complaint.exitCode
  | .ok args =>
    let files ← readFiles (args.file.toList ++ args.config.toList)
    match run args files (fun _ => .silent) with
    | .ok output =>
      IO.print output.stdout
      IO.eprint output.stderr
      return 0
    | .error chain =>
      (failureLines chain).forM IO.eprintln
      return 1

end Disassembly.CommandLine

def main (arguments : List String) : IO UInt32 := Disassembly.CommandLine.runMain arguments
