import Undecorate.CommandLine.Request
import Undecorate.Outcome
import Undecorate.Log

/-!
The command: what is written for a command line, and how it ends.
-/

namespace Undecorate.CommandLine

/-- A command exits with a code, or breaks off. -/
inductive Ending where
  | exit (code : Nat)
  | brokenOff (b : Breakdown)
deriving DecidableEq

structure Transcript where
  out : Text := []
  err : Text := []
  ending : Ending

def usage : Text :=
  "usage: msvc-demangler [-h] [--passthrough] [--verbose] symbol\n".toList

def help : Text :=
  usage ++
  ("\n" ++
   "Demangler for MSVC C++ symbols.\n" ++
   "\n" ++
   "positional arguments:\n" ++
   "  symbol             Symbol to demangle.\n" ++
   "\n" ++
   "options:\n" ++
   "  -h, --help         show this help message and exit\n" ++
   "  --passthrough, -p  Print the symbol unchanged if demangling fails, instead\n" ++
   "                     of failing\n" ++
   "  --verbose, -v      Log each demangling step\n").toList

def answerOutcome : Outcome → Transcript
  | .refusal message => { err := message ++ ['\n'], ending := .exit 1 }
  | .success s =>
    match s.display with
    | .ok t => { out := t ++ ['\n'], ending := .exit 0 }
    | .error f => { ending := .brokenOff (.writing f) }

/-- The answer for one symbol, where `passthrough` prints a text that cannot be read as it is. -/
def answer (t : Text) (passthrough : Bool) : Transcript :=
  if passthrough then
    match undecorate t with
    | .ok u => { out := u ++ ['\n'], ending := .exit 0 }
    | .error b => { ending := .brokenOff b }
  else
    match decode t with
    | .ok o => answerOutcome o
    | .error b => { ending := .brokenOff b }

def respond : Request → Transcript
  | .help => { out := help, ending := .exit 0 }
  | .badUsage => { err := usage, ending := .exit 1 }
  | .symbol t passthrough verbose =>
    let a := answer t passthrough
    { a with err := (if verbose then logOf t else []) ++ a.err }

def run (args : List Text) : Transcript := respond (.ofArgs args)

end Undecorate.CommandLine
