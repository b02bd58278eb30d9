/-
Module: CycleCost.Host.Toolchain
Purpose: Building a program from an assembly source with an assembler and a linker. Every build has a fresh
  directory of its own, which goes away with the program, and at once when the build fails.
Main exports: Toolchain, Toolchain.forAbi, Toolchain.build, Toolchain.discard
-/
import CycleCost.Host.Process
import CycleCost.Text
import CycleCost.Workload.Abi

namespace CycleCost.Host

/-- What a failed process left as diagnostics: trimmed, and nothing when it is no text. -/
def diagnosticsText (bytes : List UInt8) : String :=
  match String.fromUTF8? ⟨bytes.toArray⟩ with
  | some s => String.ofList (Text.trim s.toList)
  | none => ""

namespace World

/-- The directory in which temporary ones are made unless another is asked for. -/
def temporaryRoot (w : World) : String := (w.environment.lookup "TMPDIR").getD "/tmp"

/-- What the names of temporary directories start with. -/
def scratchMark : String := "cpi-calibration-"

/-- A name that a directory does not hold yet; one of the first numbers is free, for there are more of them
    than names in the directory. -/
def freshName (taken : List String) : String :=
  let names := (List.range (taken.length + 1)).map fun n => scratchMark ++ toString n
  (names.find? fun name => !taken.contains name).getD scratchMark

def makeScratch (root : String) : Act World Place := do
  let w ← get
  let parent ← Act.ofResult (fileResult (w.tree.directoryAt w.directory root))
  let place := parent ++ [freshName (w.tree.children parent)]
  set { w with tree := ← Act.ofResult (fileResult (w.tree.makeDirectory place)) }
  return place

/-- The host without a place and what is below it. -/
def without (w : World) (place : Place) : World := { w with tree := w.tree.removeAll place }

end World

/-- How sources become programs. -/
structure Toolchain where
  assembler : String
  linker : String
  /-- What the linker is told behind its input and output. -/
  linkArguments : List String
  /-- The limit of each of the two stages. -/
  timeout : Duration
  /-- Where the directories of builds are made; by default with the other temporary files. -/
  temporaryRoot : Option String

namespace Toolchain

def sourceFile : String := "benchmark.s"

/-- The assembled source in the directory of a build. -/
def objectFile : String := "benchmark.o"

def programFile : String := "benchmark"

/-- The development kit of a host that cannot say where it is. -/
def usualKit : String := "/Library/Developer/CommandLineTools/SDKs/MacOSX.sdk"

/-- A question to the host is waited for as long as it takes; a day is as good as ever. -/
def patience : Duration := .ofSeconds 86400

/-- The answer of a host about its development kit: a text that is more than blanks, from a program that
    succeeded. -/
def kitOfAnswer (exit : Option Int) (output : List UInt8) : Option String := do
  guard (exit = some 0)
  let text ← String.fromUTF8? ⟨output.toArray⟩
  let path := String.ofList (Text.trim text.toList)
  guard (path ≠ "")
  return path

def findKit : StateM World String := do
  let start : World.Start := ⟨"xcrun", ["--show-sdk-path"], ".", .slot World.keptSlot, .nowhere⟩
  let exit ← (World.await "xcrun" start patience).run
  let output ← World.takeSlot World.keptSlot
  return (kitOfAnswer exit.toOption.join output).getD usualKit

/-- What the linker is told for a kind of program: its entry, and where a development kit is needed, the
    kit. -/
def argumentsFor (abi : Abi) (kit : String) : List String :=
  match abi with
  | .darwin =>
    ["-lSystem", "-L", kit ++ "/usr/lib", "-syslibroot", kit, "-e", abi.entrySymbol, "-arch", "arm64"]
  | .linux => ["-e", abi.entrySymbol]

def needsKit : Abi → Bool
  | .darwin => true
  | .linux => false

/-- The assembler and linker of the host. -/
def forAbi (abi : Abi) (timeout : Duration) : StateM World Toolchain := do
  let kit ← if needsKit abi then findKit else pure ""
  return ⟨"as", "ld", argumentsFor abi kit, timeout, none⟩

/-- One stage of a build, run in the build's directory with its error output in a log beside the files. -/
def stage (t : Toolchain) (directory : Place) (name program : String) (arguments : List String) :
    Act World Unit := do
  let log := directory ++ [s!"{name}.log"]
  set (← Act.ofResult ((← get).save (placeText log) ""))
  let start : World.Start := ⟨program, arguments, placeText directory, .nowhere, .file log⟩
  let exit ← World.await s!"build ({name})" start t.timeout
  if exit ≠ some 0 then
    let bytes := (← get).bytesAt (placeText log)
    throw (.buildFailed name (diagnosticsText (bytes.toOption.getD [])))

def buildIn (t : Toolchain) (directory : Place) (source : String) : Act World Unit := do
  set (← Act.ofResult ((← get).save (placeText (directory ++ [sourceFile])) source))
  t.stage directory "assemble" t.assembler ["-o", objectFile, sourceFile]
  t.stage directory "link" t.linker (["-o", programFile, objectFile] ++ t.linkArguments)

def build (t : Toolchain) (source : String) : Act World String := do
  let directory ← World.makeScratch (t.temporaryRoot.getD (← get).temporaryRoot)
  match ← (t.buildIn directory source).observe with
  | .ok () => return placeText (directory ++ [programFile])
  | .error fault =>
    modify (·.without directory)
    throw fault

/-- Gives back a program together with the directory of its build. -/
def discard (program : String) : StateM World Unit :=
  modify fun w => w.without (Tree.spelledPlace w.directory program).dropLast

end Toolchain

end CycleCost.Host
