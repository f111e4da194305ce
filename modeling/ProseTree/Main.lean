import ProseTree.CommandLine.Run

namespace ProseTree

/-! The program: it reads the files that the command line names, and does what the run
of the library says. -/

/-- Whether an error number is the given one; it may come with its sign changed. -/
def isNumber (number wanted : UInt32) : Bool := number == wanted || number == 0 - wanted

def ReadError.ofSystem : IO.Error → ReadError
  | .noFileOrDirectory .. => .missing
  | .inappropriateType _ number _ => if isNumber number 21 then .isDirectory else .notDirectory
  | .invalidArgument _ number _ =>
      if isNumber number 36 then .nameTooLong else .refused "Invalid argument" 22
  | .permissionDenied .. => .refused "Permission denied" 13
  | _ => .refused "Input/output error" 5

def readFile (path : String) : IO (Except ReadError (List UInt8)) := do
  try
    let bytes ← IO.FS.readBinFile path
    return .ok bytes.toList
  catch error => return .error (ReadError.ofSystem error)

end ProseTree

open ProseTree ProseTree.CommandLine in
def main (words : List String) : IO UInt32 := do
  let words := words.map String.toList
  let mut contents := []
  for path in pathsRead words do
    contents := (path, ← readFile path) :: contents
  let known := contents
  let files : Files := fun path => (known.lookup path).getD (.error .missing)
  let outcome := execute files words
  (← IO.getStdout).putStr (String.ofList outcome.written)
  match outcome.complaint with
  | some complaint => (← IO.getStderr).putStr complaint
  | none => pure ()
  return UInt32.ofNat outcome.code
