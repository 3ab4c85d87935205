import Undecorate.CommandLine.Run

/-!
The command line program.
-/

open Undecorate.CommandLine

def main (args : List String) : IO UInt32 := do
  let t := run (args.map String.toList)
  (← IO.getStdout).putStr (String.ofList t.out)
  (← IO.getStderr).putStr (String.ofList t.err)
  match t.ending with
  | .exit code => pure (UInt32.ofNat code)
  | .brokenOff _ => pure 1
