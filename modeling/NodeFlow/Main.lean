import NodeFlow.Command.Run

open NodeFlow

def readFileText (path : String) : IO (Except FileError String) := do
  try
    match String.fromUTF8? (← IO.FS.readBinFile path) with
    | some text => return .ok text
    | none => return .error .notText
  catch
    | .noFileOrDirectory .. => return .error .notFound
    | .permissionDenied .. => return .error .denied
    | .inappropriateType _ code _ => return .error (if code = 20 then .notFolder else .isFolder)
    | error => return .error (.other (toString error))

def readNamedFiles : List String → IO (List (String × Except FileError String))
  | [] => return []
  | path :: rest => do
    let text ← readFileText path
    return (path, text) :: (← readNamedFiles rest)

-- No host is asked from here, so a validation without a saved catalog is structural.
def main (arguments : List String) : IO UInt32 := do
  let named := match Command.parse arguments with
    | .ok command => command.files
    | .error _ => []
  let read ← readNamedFiles (named.filter (!Command.isStandardInput ·))
  let stdin ← if named.any Command.isStandardInput then (← IO.getStdin).readToEnd else pure ""
  let env : Command.Environment := {
    file := fun path => (read.lookup path).getD (.error .notFound)
    stdin
    host := ← IO.getEnv "WORKFLOW_CHECK_HOST"
    ask := fun _ => .silence
    logFilter := .ofSetting (← IO.getEnv "WORKFLOW_CHECK_LOG") }
  let output := Command.main env arguments
  (← IO.getStderr).putStr output.stderr
  (← IO.getStdout).putStr output.stdout
  return output.code
