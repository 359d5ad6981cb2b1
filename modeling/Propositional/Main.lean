import Propositional.CommandLine.Command

/-!
# The program

Reads what the command line asks for, and writes the outcome.
-/

namespace Propositional

/-- The chunks of a file, or the reason why there are none. -/
def readFile (path : String) : IO (Except FileError (List Chunk)) := do
  if path.toList.contains (Char.ofNat 0) then return .error .embeddedNull
  try
    let bytes ← IO.FS.readBinFile path
    return .ok (chunksOf bytes.data.toList)
  catch e =>
    return .error (match e with
      | .noFileOrDirectory .. => .missing path
      | .permissionDenied .. => .forbidden path
      | .inappropriateType _ code _ => if code = 20 then .notADirectory path else .isADirectory path
      | e => .other (toString e))

/-- The chunks that are left in a stream. -/
partial def readRest (stream : IO.FS.Stream) (soFar : List Chunk) : IO (List Chunk) := do
  let bytes ← stream.read chunkSize.toUSize
  match bytes.data.toList with
  | [] => return soFar
  | first :: more => readRest stream (soFar ++ [⟨first, more⟩])

end Propositional

open Propositional in
def main (arguments : List String) : IO UInt32 := do
  let outcome ← match Command.plan arguments with
    | .inl outcome => pure (.ok outcome)
    | .inr options => do
      let stdin ← if options.expression.isNone && options.file.isNone then
          readRest (← IO.getStdin) []
        else pure []
      let file ← match options.file with
        | some (.value path) => readFile (Path.normalise path)
        | _ => pure (.ok [])
      pure (Command.proceed options ⟨stdin, fun _ => file⟩)
  match outcome with
  | .ok outcome => do
    (← IO.getStdout).putStr outcome.stdout
    (← IO.getStderr).putStr outcome.stderr
    return outcome.exit.toUInt32
  | .error fault => do
    (← IO.getStderr).putStr (fault.message ++ "\n")
    return 1
