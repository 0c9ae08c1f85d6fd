import FirmScan.CommandLine.Run

/-!
# The command

Fetches the arguments, the environment and the manifest, and prints what the run leaves behind.
-/

namespace FirmScan.CommandLine

/-- The number of an error. Opening a file reports it negated, reading from the file does not. -/
def errorNumber (code : UInt32) : UInt32 := if code < 0x80000000 then code else 0 - code

/-- The reason why a file cannot be read. -/
def readFault : IO.Error → FileFault
  | .noFileOrDirectory .. => .notFound
  | .permissionDenied .. => .denied
  | .inappropriateType _ code _ => if errorNumber code = 20 then .notDirectory else .isDirectory
  | .invalidArgument _ code details =>
    if errorNumber code = 36 then .nameTooLong else .other details
  | .userError _ => .notText
  | e => .other (toString e)

def readText (path : String) : IO (Except FileFault String) := do
  try
    return .ok (← IO.FS.readFile path)
  catch e =>
    return .error (readFault e)

/-- The variables that a command may look at. -/
def watchedVariables : List String := ["BRIDGE_ARCH", "BRIDGE_ENABLE_WRITES", "BRIDGE_MAX_SAMPLES"]

def fetchEnvironment : IO Environment := do
  let found ← watchedVariables.mapM fun name => return (name, ← IO.getEnv name)
  return fun name => (found.lookup name).bind id

end FirmScan.CommandLine

open FirmScan CommandLine in
def main (args : List String) : IO UInt32 := do
  let env ← fetchEnvironment
  let manifest ← match parse env args with
    | .ok r => readText r.manifest
    | .error _ => pure (.ok "")
  let result := outcome env (fun _ => manifest) args
  for message in result.messages do
    IO.eprintln message
  IO.print result.output
  return result.exitCode
