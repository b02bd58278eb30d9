/-
Module: CycleCost.Workload.Abi
Purpose: The operating-system interface of a generated executable. Only the entry symbol and the exit
  sequence depend on it.
Main exports: Abi, Abi.entrySymbol, Abi.exitSequence
-/
import CycleCost.Assembly.Instruction

namespace CycleCost

open Assembly

/-- The operating-system interface of a generated executable. -/
inductive Abi where
  | darwin
  | linux
  deriving DecidableEq, Repr

namespace Abi

def all : List Abi := [darwin, linux]

def name : Abi → String
  | darwin => "darwin"
  | linux => "linux"

/-- The symbol at which a program is entered. -/
def entrySymbol : Abi → String
  | darwin => "_main"
  | linux => "_start"

/-- The instructions that end a program with exit code `code`: the code, the number of the exit call, and
    the call. -/
def exitSequence (abi : Abi) (code : Nat) : List Line :=
  match abi with
  | darwin =>
    [.instruction (.moveImmediate (.x 0) code), .instruction (.moveImmediate (.x 16) 1),
      .instruction (.supervisorCall 0x80)]
  | linux =>
    [.instruction (.moveImmediate (.x 0) code), .instruction (.moveImmediate (.x 8) 93),
      .instruction (.supervisorCall 0)]

end Abi

end CycleCost
