import MipsAssembler.CommandLine.Session

/-!
# The program

The command line on the files of the system.  Everything that is decided, is decided by
`CommandLine.runWith`; here files are opened, and what a run has to show is shown.
-/

namespace MipsAssembler
namespace CommandLine

/-- The number of a system error; some calls report it with the sign turned. -/
def systemCode (code : UInt32) : Nat :=
  if code.toNat < 2147483648 then code.toNat else 4294967296 - code.toNat

/-- An error of the system by its number. -/
def systemErrorOfCode (code : Nat) (reason : String) : SystemError :=
  match code with
  | 2 => .notFound
  | 20 => .notADirectory
  | 21 => .isADirectory
  | 36 => .nameTooLong
  | code => .other code reason

/-- The error of the system as an error of the model. -/
def systemErrorOf : IO.Error → SystemError
  | .noFileOrDirectory .. => .notFound
  | .inappropriateType _ code reason => systemErrorOfCode (systemCode code) reason
  | .permissionDenied _ code reason => systemErrorOfCode (systemCode code) reason
  | .invalidArgument _ code reason => systemErrorOfCode (systemCode code) reason
  | e => .other 5 (toString e)

/-- A file is opened and then used; either can fail. -/
def usingFile {α : Type} (path : String) (mode : IO.FS.Mode) (use : IO.FS.Handle → IO α) :
    IO (Except FileError α) := do
  let opened ← try
      pure (Except.ok (← IO.FS.Handle.mk path mode))
    catch e => pure (Except.error (systemErrorOf e))
  match opened with
  | .error e => return .error (.unopened e)
  | .ok handle =>
    try return .ok (← use handle)
    catch e => return .error (.brokenOff (systemErrorOf e))

/-- The files of the system. -/
def systemAccess : FileAccess IO where
  read path := usingFile path .read fun handle => handle.readBinToEnd
  write path bytes := usingFile path .write fun handle => do
    handle.write bytes
    handle.flush

/-- What a run has to show, is shown. -/
def present (o : Outcome) : IO UInt32 := do
  let out ← IO.getStdout
  let err ← IO.getStderr
  for event in o.log do
    err.putStrLn (event.level.name ++ " " ++ event.message)
  out.putStr o.stdout
  out.flush
  err.putStr o.stderr
  match o.ending with
  | .exit code => return code.toUInt32
  | .undecodable =>
    err.putStrLn "ERROR: el archivo de entrada no es UTF-8"
    return 1
  | .unnamedOutput =>
    err.putStrLn "ERROR: el archivo de salida no tiene nombre"
    return 1
  | .nullInPath =>
    err.putStrLn "ERROR: la ruta contiene un carácter nulo"
    return 1

end CommandLine
end MipsAssembler

/-- The entry point. -/
def main (argv : List String) : IO UInt32 := do
  MipsAssembler.CommandLine.present
    (← MipsAssembler.CommandLine.runWith MipsAssembler.CommandLine.systemAccess argv)
