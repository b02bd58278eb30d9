/-
Module: CycleCost.Host.KernelScript
Purpose: Building a kernel with a script that is given the kernel's name and a repetition count. What it
  builds stays where it is, under a name that follows a pattern.
Main exports: KernelScript, KernelScript.binaryPath, KernelScript.build
-/
import CycleCost.Host.Toolchain

namespace CycleCost.Host

/-- A script that builds kernels. -/
structure KernelScript where
  script : String
  /-- Where the script runs. -/
  directory : String
  /-- The name of a built program, with marks for the kernel's name and the count. -/
  binaryPattern : String
  timeout : Duration

namespace KernelScript

/-- The name of a built program: the mark of the kernel's name is filled in first, so a name that holds the
    mark of the count has it filled in as well. -/
def binaryName (pattern name : String) (count : UInt64) : String :=
  Text.replace "\x7breps\x7d" (toString count) (Text.replace "\x7bname\x7d" name pattern)

/-- The path at which the script leaves a kernel. -/
def binaryPath (k : KernelScript) (name : String) (count : UInt64) : String :=
  Path.join k.directory (binaryName k.binaryPattern name count)

def isRegular : Node → Bool
  | .file _ _ | .utility _ => true
  | .directory | .device => false

def isFile (w : World) (path : String) : Bool :=
  match w.tree.find w.directory path with
  | .ok (_, node) => isRegular node
  | .error _ => false

/-- Builds a kernel for a repetition count. The script has to succeed and to leave a file. -/
def build (k : KernelScript) (name : String) (count : UInt64) : Act World String := do
  let stage := s!"{name} r{count}"
  let (exit, diagnostics) ←
    World.awaitErrors s!"build ({stage})" k.script [name, toString count] k.directory k.timeout
  if exit ≠ some 0 then throw (.buildFailed stage (diagnosticsText diagnostics))
  let path := k.binaryPath name count
  if isFile (← get) path then return path
  else throw (.buildFailed stage s!"{path} was not produced")

end KernelScript

end CycleCost.Host
