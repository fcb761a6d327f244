import Sm83.CommandLine

/-!
# The program

The outermost layer: it reads the arguments, the log filter in `RUST_LOG` and the one file that
the arguments name, and writes what `CommandLine.run` says.
-/

namespace Sm83

/-- The number of a system error, which arrives with either sign. -/
def systemErrorNumber (code : UInt32) : Nat :=
  if code.toNat < 0x80000000 then code.toNat else 0x100000000 - code.toNat

/-- Why the system could not read a file. -/
def ReadError.ofSystem : IO.Error → ReadError
  | .noFileOrDirectory .. => .notFound
  | .inappropriateType _ code details =>
    match systemErrorNumber code with
    | 20 => .notDirectory
    | 21 => .isDirectory
    | number => .other s!"{details} (os error {number})"
  | .invalidArgument _ code details =>
    match systemErrorNumber code with
    | 36 => .nameTooLong
    | number => .other s!"{details} (os error {number})"
  | .permissionDenied _ code details => .other s!"{details} (os error {systemErrorNumber code})"
  | e => .other (toString e)

/-- Read a file of the system. -/
def readSystemFile (path : String) : IO (Except ReadError (List UInt8)) := do
  try
    let bytes ← IO.FS.readBinFile path
    return .ok bytes.toList
  catch e => return .error (.ofSystem e)

/-- Run the program with some arguments. -/
def runProgram (arguments : List String) : IO UInt32 := do
  let filter ← IO.getEnv "RUST_LOG"
  let contents ← match CommandLine.parse arguments with
    | .ok config => readSystemFile config.path
    | .error _ => pure (.error .notFound)
  let exit := CommandLine.run (fun _ => contents) filter arguments
  for (stream, text) in exit.written do
    match stream with
    | .output => IO.print text
    | .error => IO.eprint text
  return UInt32.ofNat exit.code

end Sm83

/-- The program's entry point. -/
def main (arguments : List String) : IO UInt32 := Sm83.runProgram arguments
