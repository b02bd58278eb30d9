/-
Module: CycleCost.Command.Execution
Purpose: Doing what a command line asks for. The result is a document, which is printed or written to a file,
  and a table for people goes to the error output beside it.
Main exports: Console, Task, perform, execute, Conclusion
-/
import CycleCost.Calibration.Suite
import CycleCost.Command.Complaint
import CycleCost.Command.Request
import CycleCost.Command.Table
import CycleCost.Document.Json.Library
import CycleCost.Host.Bench
import CycleCost.Manifest.File
import CycleCost.Report.Forms
import CycleCost.Synthetic

namespace CycleCost.Command

open Document Host

/-- The host, and what has been written so far. -/
structure Console where
  host : World
  output : String
  errors : String

/-- A task at the console. What it has done before it fails stays done. -/
abbrev Task (β : Type) := ExceptT Complaint (StateM Console) β

namespace Task

def onHost {β : Type} (step : StateM World β) : Task β := ExceptT.mk fun c =>
  let (v, host) := step c.host
  (.ok v, { c with host })

def ofResult {β : Type} (r : Result β) : Task β := ExceptT.mk (pure (r.mapError .fault))

def print (text : String) : Task Unit := modify fun c => { c with output := c.output ++ text }

def tell (text : String) : Task Unit := modify fun c => { c with errors := c.errors ++ text }

/-- The text of a file. -/
def contents (path : String) : Task String := do ofResult ((← get).host.contents path)

def save (path text : String) : Task Unit := do
  let host ← ofResult ((← get).host.save path text)
  modify fun c => { c with host }

end Task

/-- Writes a text to the file that is asked for, and prints it otherwise. -/
def deliver (out : Option String) (text : String) : Task Unit :=
  match out with
  | some path => Task.save path text
  | none => Task.print text

/-- Delivers a document. On the screen it ends its line. -/
def emit (out : Option String) (document : Datum) : Task Unit :=
  let text := Json.standard.pretty document
  deliver out (if out.isSome then text else line text)

def readDocument {β : Type} (form : Form β) (path : String) : Task β := do
  let text ← Task.contents path
  Task.ofResult (((Json.standard.read form text).map .ok).getD (.error (.badJson "not a document of this form")))

/-! ### Settings -/

def Invocation.settings (i : Invocation) : Settings Float :=
  { Settings.ofProfile i.profile with seed := i.seed, frequencyGhz := i.frequencyGhz }

/-- The settings with other run counts, where they are given. -/
def withRuns (s : Settings Float) (runs warmups : Option UInt32) : Settings Float :=
  { s with harness := { s.harness with
    runs := (runs.map UInt32.toNat).getD s.harness.runs
    warmups := (warmups.map UInt32.toNat).getD s.harness.warmups } }

def TemplateRequest.settings (asked : TemplateRequest) (base : Settings Float) : Settings Float :=
  let s := withRuns base asked.runs asked.warmups
  let s := if asked.counts.isEmpty then s else s.withCounts asked.counts
  { s with backend := asked.backend, abi := asked.abi.getD s.abi }

def KernelRequest.settings (asked : KernelRequest) (base : Settings Float) : Settings Float :=
  { withRuns base asked.runs asked.warmups with backend := asked.backend }

/-! ### Reports -/

def revisionLength : Nat := 12

/-- The revision that the environment names, shortened. -/
def revision (w : World) : Option String :=
  let named := (w.environment.lookup "GIT_SHA").or (w.environment.lookup "GITHUB_SHA")
  named.map fun s => String.ofList (s.toList.take revisionLength)

def runInfo (second : Nat) (s : Settings Float) : Task RunInfo := do
  return {
    schemaVersion
    toolVersion
    profile := s.profile.name
    seed := s.seed
    timestamp := s!"unix:{second}"
    revision := revision (← get).host }

def reportOf (second : Nat) (s : Settings Float) (o : SuiteOutcome Float) : Task (CalibrationReport Float) := do
  return {
    run := ← runInfo second s
    methodology
    formula
    frequencyGhz := s.frequencyGhz
    results := o.records
    summary := o.tally
    failures := o.failures }

def publish (out : Option String) (r : CalibrationReport Float) : Task Unit := do
  Task.tell (calibrationTable r)
  emit out (CalibrationReport.form.write r)

/-! ### Commands -/

/-- The source of a template. -/
def generate (out : Option String) (s : Settings Float) (benchmark : String) (count : UInt64)
    (abi : Option Abi) : Task Unit := do
  deliver out (← Task.ofResult (Registry.standard.generate benchmark count (abi.getD s.abi)))

def priceFixed (m : Machine World) (s : Settings Float) (path : String) :
    Task (SuiteOutcome Float) := do
  let manifest ← Task.ofResult (FixedManifest.load Toml.parse (← get).host path)
  Task.onHost (estimateFixed m s manifest)

/-- Calibrates templates, and prices fixed-size workloads behind them. -/
def calibrate (second : Nat) (out : Option String) (base : Settings Float) (asked : TemplateRequest) :
    Task Unit := do
  let s := asked.settings base
  let toolchain ← Task.onHost (Toolchain.forAbi s.abi s.buildTimeout)
  let machine := { toolchain with temporaryRoot := asked.temporaryRoot }.machine
  let templates ← Task.onHost (calibrateTemplates machine s Registry.standard asked.benchmarks)
  let outcome ← match asked.manifest with
    | some path => templates.extend <$> priceFixed machine s path
    | none => pure templates
  publish out (← reportOf second s outcome)

def kernelScript (m : KernelManifest) (s : Settings Float) : KernelScript :=
  ⟨m.script, m.workDirectory, m.binaryPattern, s.buildTimeout⟩

/-- Calibrates kernels, and folds the results into an older report where one is given. -/
def calibrateScripted (second : Nat) (out : Option String) (base : Settings Float) (asked : KernelRequest) :
    Task Unit := do
  let s := asked.settings base
  let manifest ← Task.ofResult (KernelManifest.load Toml.parse (← get).host asked.manifest)
  let kernels ← Task.ofResult (manifest.select asked.kernels)
  let toolchain ← Task.onHost (Toolchain.forAbi s.abi s.buildTimeout)
  let machine := toolchain.machineWith (kernelScript manifest s) .perf s.harness.timeout
  let outcome ← Task.onHost (calibrateKernels machine s kernels)
  match asked.mergeInto with
  | some path =>
    let earlier ← readDocument CalibrationReport.form path
    publish out (earlier.merge outcome.records outcome.failures)
  | none => publish out (← reportOf second s outcome)

/-- Prices the fixed-size workloads of a manifest. -/
def price (second : Nat) (out : Option String) (s : Settings Float) (path : String) : Task Unit := do
  let toolchain ← Task.onHost (Toolchain.forAbi s.abi s.buildTimeout)
  let outcome ← priceFixed toolchain.machine s path
  publish out (← reportOf second s outcome)

/-- Holds a simulator's predictions against a report. -/
def judge (second : Nat) (out : Option String) (s : Settings Float) (calibration simulator : String) :
    Task Unit := do
  let report ← readDocument CalibrationReport.form calibration
  let predictions ← readDocument Predictions.form simulator
  let benchmarks := Accuracy.evaluate (metricOf report.results) predictions.benchmarks s.frequencyGhz
  let judged : AccuracyReport Float :=
    ⟨← runInfo second s, s.frequencyGhz, benchmarks, Accuracy.summarize benchmarks⟩
  Task.tell (accuracyTable judged)
  emit out (AccuracyReport.form.write judged)

/-- Both backends' lines through one series. -/
structure Comparison where
  closedForm : Fit Float
  linalg : Fit Float

namespace Comparison

/-- Fits a series with both backends. -/
def ofSeries (series : Series Float) : Result Comparison := do
  return ⟨← Regression.Backend.closedForm.fitSeries series, ← Regression.Backend.linalg.fitSeries series⟩

def leastNormal : Float := Float.ofBits 0x0010000000000000

/-- How far the slopes are apart, by the size of the first. -/
def slopeDifference (c : Comparison) : Float :=
  (c.closedForm.slope - c.linalg.slope).abs / Scalar.larger c.closedForm.slope.abs leastNormal

/-- Whether the slopes are the same in their first digits. -/
def agrees (c : Comparison) : Bool := c.slopeDifference < 1e-4

def table (c : Comparison) (expectedSlope : Float) : String :=
  let name := Regression.Backend.name
  fitTable [(name .closedForm, c.closedForm), (name .linalg, c.linalg)] expectedSlope c.agrees

end Comparison

/-- A table whose members stand in the order of their names. -/
def alphabetic : Datum → Datum
  | .table members => .table (members.mergeSort fun a b => !(b.1 < a.1))
  | d => d

def checkDocument (run : RunInfo) (spec : Synthetic.Spec) (c : Comparison) : Datum :=
  .table [("agrees", .bool c.agrees), ("closed_form", alphabetic (Fit.form.write c.closedForm)),
    ("expected_intercept", .real spec.intercept), ("expected_slope", .real spec.slope),
    ("linalg", alphabetic (Fit.form.write c.linalg)), ("run", alphabetic (RunInfo.form.write run)),
    ("slope_relative_difference", .real c.slopeDifference)]

/-- Checks the backends against each other on a made-up series of a known line. -/
def selfCheck (second : Nat) (out : Option String) (s : Settings Float) : Task Unit := do
  let spec := Synthetic.Spec.standard s.seed
  let c ← Task.ofResult (Comparison.ofSeries spec.series)
  Task.tell (c.table spec.slope)
  emit out (checkDocument (← runInfo second s) spec c)
  if !c.agrees then throw .disagreement

def usage : String :=
  line ("Usage: cycle-cost [OPTIONS] " ++ "|".intercalate (grammars.map (·.name)))

/-- Does what is asked for. -/
def perform (second : Nat) (i : Invocation) : Task Unit :=
  let s := i.settings
  match i.request with
  | .templates => Task.print (templateTable Registry.standard)
  | .generate benchmark count abi => generate i.out s benchmark count abi
  | .calibrate asked => calibrate second i.out s asked
  | .calibrateKernels asked => calibrateScripted second i.out s asked
  | .estimate manifest => price second i.out s manifest
  | .compare calibration simulator => judge second i.out s calibration simulator
  | .selfCheck => selfCheck second i.out s
  | .help => Task.print usage

/-- How a command line came out. -/
inductive Verdict where
  | done
  | failed (reason : Complaint)
  | misused (reason : Misuse)

namespace Verdict

def code : Verdict → UInt8
  | done => 0
  | failed _ => 1
  | misused _ => 2

end Verdict

/-- What is left when a command has ended. -/
structure Conclusion where
  verdict : Verdict
  console : Console

namespace Conclusion

/-- The error output with what a failure adds to it at its end. -/
def errors (c : Conclusion) : String :=
  match c.verdict with
  | .done => c.console.errors
  | .failed reason => c.console.errors ++ line reason.line
  | .misused _ => c.console.errors ++ usage

end Conclusion

/-- Does what a command line asks for, at a second of the calendar's count. -/
def execute (second : Nat) (words : List String) (host : World) : Conclusion :=
  let start : Console := ⟨host, "", ""⟩
  match Invocation.read words with
  | .error reason => ⟨.misused reason, start⟩
  | .ok i =>
    match (perform second i).run start with
    | (.ok (), console) => ⟨.done, console⟩
    | (.error reason, console) => ⟨.failed reason, console⟩

end CycleCost.Command
