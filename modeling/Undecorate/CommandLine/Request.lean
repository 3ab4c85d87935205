import Undecorate.CommandLine.Argument

/-!
What a command line asks for. It names one symbol; `help` is answered as soon as it is met, before
any fault further on.
-/

namespace Undecorate.CommandLine

inductive Request where
  | help
  | badUsage
  | symbol (t : Text) (passthrough verbose : Bool)
deriving DecidableEq

/-- What is known of a request while its arguments are gone through. -/
structure Draft where
  symbol : Option Text := none
  passthrough : Bool := false
  verbose : Bool := false
  /-- Some argument is not wanted. -/
  surplus : Bool := false

namespace Draft

/-- The first operand is the symbol. -/
def operand (d : Draft) (t : Text) : Draft :=
  match d.symbol with
  | none => { d with symbol := some t }
  | some _ => { d with surplus := true }

/-- A separator is not wanted behind the symbol. -/
def separator (d : Draft) : Draft := { d with surplus := d.surplus || d.symbol.isSome }

def switches (d : Draft) (given : List Switch) : Draft :=
  { d with
    passthrough := d.passthrough || given.contains .passthrough
    verbose := d.verbose || given.contains .verbose }

def finish (d : Draft) : Request :=
  match d.symbol with
  | some t => if d.surplus then .badUsage else .symbol t d.passthrough d.verbose
  | none => .badUsage

/-- Goes through the arguments. A separator right behind an operand belongs to it. -/
def follow (d : Draft) : List Argument → Request
  | [] => d.finish
  | .operand t :: .separator :: rest => (d.operand t).follow rest
  | .operand t :: rest => (d.operand t).follow rest
  | .separator :: rest => d.separator.follow rest
  | .switches given :: rest =>
    if given.contains .help then .help else (d.switches given).follow rest
  | .misused :: _ => .badUsage
  | .unknown :: rest => { d with surplus := true : Draft }.follow rest

end Draft

/-- The request that the arguments make. -/
def Request.ofArgs (args : List Text) : Request :=
  match classifyAll? args with
  | some as => Draft.follow {} as
  | none => .badUsage

end Undecorate.CommandLine
