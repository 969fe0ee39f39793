import GraphProfile.Command.Run

set_option autoImplicit false

namespace GraphProfile

/-- Some calls tell a system's error number with its sign turned. -/
def errorNumber (code : UInt32) : UInt32 := if code < 0x80000000 then code else 0 - code

def SystemError.ofIO (e : IO.Error) : SystemError :=
  match e with
  | .noFileOrDirectory .. => .notFound
  | .alreadyExists .. => .alreadyExists
  | .permissionDenied .. => .other "Permission denied (os error 13)"
  | .inappropriateType _ code _ | .resourceVanished code _ | .invalidArgument _ code _ =>
    match errorNumber code with
    | 20 => .notADirectory
    | 21 => .isADirectory
    | 36 => .nameTooLong
    | _ => .other (toString e)
  | e => .other (toString e)

def attempt {α : Type} (act : IO α) : IO (Except SystemError α) := do
  try return .ok (← act)
  catch e => return .error (.ofIO e)

instance : FileAccess IO where
  entryType? path := do
    match ← attempt (do return (← (← IO.FS.realPath path).metadata).type) with
    | .ok .dir => return some .directory
    | .ok .file => return some .file
    | _ => return none
  names directory := attempt do
    return (← (← IO.FS.realPath directory).readDir).toList.map fun entry => entry.fileName
  read path := attempt (IO.FS.readBinFile path)
  write path text := attempt (IO.FS.writeFile path text)
  createDirectory path := attempt (IO.FS.createDir path)

end GraphProfile

def main (args : List String) : IO UInt32 := do
  let outcome ← GraphProfile.Command.run args
  (← IO.getStdout).putStr outcome.result
  (← IO.getStderr).putStr outcome.notes
  return outcome.exitCode.toUInt32
