/-
Module: CycleCost.Counter
Purpose: The reports of the tools that read a processor's counter of retired instructions.
Main exports: CounterTool, CounterTool.command, CounterTool.parse
-/
import CycleCost.Decimal.Numeral
import CycleCost.Text

namespace CycleCost

/-- A tool that counts the instructions of one run. -/
inductive CounterTool where
  /-- A timing tool whose report names the count at the end of a line. -/
  | bsdTime
  /-- A profiler whose report has one line of fields per event. -/
  | perf
  deriving DecidableEq, Repr

namespace CounterTool

def name : CounterTool → String
  | bsdTime => "BsdTime"
  | perf => "Perf"

/-- The program to start, with its arguments, for the count of one run of a program. -/
def command (tool : CounterTool) (program : String) : String × List String :=
  match tool with
  | bsdTime => ("/usr/bin/time", ["-l", program])
  | perf => ("perf", ["stat", "-x", ",", "-e", "instructions:u", program])

def countOf (digits : List Char) : Option UInt64 :=
  (Decimal.parseUnsigned UInt64.size digits).map UInt64.ofNat

/-- A line that counts instructions: the value, a unit, and an event whose name starts with
    `instructions`. A value that is no number, such as a remark that nothing was counted, gives none. -/
def perfCount (line : List Char) : Option UInt64 :=
  match Text.split ',' line with
  | value :: _ :: event :: _ =>
    if "instructions".toList.isPrefixOf event then countOf (Text.trim value) else none
  | _ => none

/-- The count in a report: of the profiler, the first line with a count; of the timing tool, the first word
    of the first line that speaks of retired instructions. -/
def parse (tool : CounterTool) (report : String) : Option UInt64 :=
  let lines := Text.lines report.toList
  match tool with
  | perf => lines.findSome? perfCount
  | bsdTime =>
    (lines.find? (Text.contains "instructions retired".toList)).bind fun line =>
      countOf (Text.firstWord line)

end CounterTool

end CycleCost
