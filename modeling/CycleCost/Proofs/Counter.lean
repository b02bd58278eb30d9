/-
Module: CycleCost.Proofs.Counter
Purpose: Which reports of the counting tools have a count, and which count it is. A line counts because of its fields or
  of its first word. The profiler's report is searched for the first line that counts, so other lines are passed
  over; the timing tool's report for the first line that speaks of retired instructions, which counts or
  ends the search. What a tool prints for a count is therefore read as this count behind lines that the search
  passes over, whatever follows.
Main exports: CounterTool.CountsByFields, CounterTool.Speaks, CounterTool.CountsByWord, CounterTool.Considers,
  CounterTool.Prints, CounterTool.reports_are_read
-/
import CycleCost.Counter
import CycleCost.Proofs.Decimal.Numeral
import CycleCost.Proofs.Text.Lines
import CycleCost.Proofs.Text.Words

namespace CycleCost.CounterTool

open Decimal Text

/-! ### Counts -/

variable {n : UInt64} {text line : List Char}

/-- A text counts exactly when it spells a number that fits 64 bits. -/
theorem countOf_eq_some_iff : countOf text = some n ↔ Spells n.toNat text := by
  rw [countOf, Option.map_eq_some_iff]
  constructor
  · rintro ⟨m, read, rfl⟩
    obtain ⟨spelled, small⟩ := parseUnsigned_eq_some_iff.1 read
    rwa [UInt64.toNat_ofNat_of_lt' small]
  · intro spelled
    exact ⟨n.toNat, parseUnsigned_eq_some_iff.2 ⟨spelled, n.toNat_lt_size⟩, UInt64.ofNat_toNat⟩

theorem spells_repr (n : UInt64) : Spells n.toNat n.toNat.repr.toList := .plain (denotes_repr _)

theorem solid_of_spells {m : Nat} (spelled : Spells m text) : Solid text := by
  cases spelled with
  | plain digits => exact fun c member => isBlank_of_isDigit (digits.digit c member)
  | signed digits =>
    exact List.forall_mem_cons.2 ⟨by decide, fun c member => isBlank_of_isDigit (digits.digit c member)⟩

/-! ### Lines -/

/-- What an event that counts instructions is called, as far as it matters. -/
def eventName : List Char := "instructions".toList

/-- The words by which the timing tool names the count. -/
def retired : List Char := "instructions retired".toList

/-- A line with the count in its first field, with or without white space around it, and the event in its
    third. -/
def CountsByFields (n : UInt64) (line : List Char) : Prop :=
  ∃ front numeral back unit event more,
    Fields ',' line ((front ++ numeral ++ back) :: unit :: event :: more) ∧ eventName <+: event ∧
    Blank front ∧ Spells n.toNat numeral ∧ Blank back

/-- A line that speaks of retired instructions. -/
def Speaks (line : List Char) : Prop := retired <:+: line

/-- A line whose first word is the count. -/
def CountsByWord (n : UInt64) (line : List Char) : Prop :=
  ∃ front numeral rest, line = front ++ (numeral ++ rest) ∧ Blank front ∧ Spells n.toNat numeral ∧ Parted rest

/-- A field counts when a number stands in it between blanks. -/
theorem countOf_trim_eq_some_iff : countOf (trim text) = some n ↔
    ∃ front numeral back, text = front ++ numeral ++ back ∧ Blank front ∧ Spells n.toNat numeral ∧ Blank back := by
  constructor
  · intro read
    obtain ⟨front, back, blank, blank', shape⟩ := exists_trim text
    exact ⟨front, trim text, back, shape, blank, countOf_eq_some_iff.1 read, blank'⟩
  · rintro ⟨front, numeral, back, rfl, blank, spelled, blank'⟩
    rw [trim_append blank (solid_of_spells spelled) spelled.present blank']
    exact countOf_eq_some_iff.2 spelled

/-- A line counts by its first word. -/
theorem countOf_firstWord_eq_some_iff : countOf (firstWord line) = some n ↔ CountsByWord n line := by
  constructor
  · intro read
    obtain ⟨front, rest, blank, -, parted, shape⟩ := exists_firstWord line
    exact ⟨front, firstWord line, rest, shape, blank, countOf_eq_some_iff.1 read, parted⟩
  · rintro ⟨front, numeral, rest, rfl, blank, spelled, parted⟩
    rw [firstWord_append blank (solid_of_spells spelled) spelled.present parted]
    exact countOf_eq_some_iff.2 spelled

/-- A line of the profiler counts by its first field, where its third names the event. -/
theorem perfCount_eq_some_iff : perfCount line = some n ↔ CountsByFields n line := by
  constructor
  · intro read
    rw [perfCount] at read
    split at read
    next value unit event more cut =>
      split at read
      next named =>
        obtain ⟨front, numeral, back, rfl, blank, spelled, blank'⟩ := countOf_trim_eq_some_iff.1 read
        exact ⟨front, numeral, back, unit, event, more, split_eq_iff.1 cut, List.isPrefixOf_iff_prefix.1 named,
          blank, spelled, blank'⟩
      next => cases read
    next => cases read
  · rintro ⟨front, numeral, back, unit, event, more, fields, named, blank, spelled, blank'⟩
    rw [perfCount, split_eq_iff.2 fields]
    exact (if_pos (List.isPrefixOf_iff_prefix.2 named)).trans
      (countOf_trim_eq_some_iff.2 ⟨front, numeral, back, rfl, blank, spelled, blank'⟩)

theorem perfCount_eq_none_iff : perfCount line = none ↔ ¬ ∃ n, CountsByFields n line := by
  rw [Option.eq_none_iff_forall_ne_some, not_exists]
  exact forall_congr' fun n => not_congr perfCount_eq_some_iff

/-! ### Reports -/

variable {report : String}

/-- The first line that counts decides the report. -/
theorem parse_perf_eq_some_iff : perf.parse report = some n ↔
    ∃ before line after, FallsInto report.toList (before ++ line :: after) ∧
      (∀ l ∈ before, ¬ ∃ m, CountsByFields m l) ∧ CountsByFields n line := by
  rw [parse, List.findSome?_eq_some_iff]
  simp only [lines_eq_iff, perfCount_eq_some_iff, perfCount_eq_none_iff]
  exact exists₃_congr fun _ _ _ => and_congr_right' and_comm

/-- A report without a line that counts has no count. -/
theorem parse_perf_eq_none_iff : perf.parse report = none ↔
    ∃ all, FallsInto report.toList all ∧ ∀ l ∈ all, ¬ ∃ n, CountsByFields n l := by
  rw [parse, List.findSome?_eq_none_iff]
  simp only [perfCount_eq_none_iff, ← lines_eq_iff, exists_eq_left']

/-- The line that the timing tool's report is judged by. -/
theorem find_speaks_eq_some_iff {all : List (List Char)} : all.find? (contains retired) = some line ↔
    ∃ before after, all = before ++ line :: after ∧ (∀ l ∈ before, ¬ Speaks l) ∧ Speaks line := by
  rw [List.find?_eq_some_iff_append, contains_iff]
  simp only [Bool.not_eq_true', ← Bool.not_eq_true, contains_iff]
  constructor
  · rintro ⟨speaks, before, after, shape, silent⟩
    exact ⟨before, after, shape, silent, speaks⟩
  · rintro ⟨before, after, shape, silent, speaks⟩
    exact ⟨speaks, before, after, shape, silent⟩

theorem find_speaks_eq_none_iff {all : List (List Char)} : all.find? (contains retired) = none ↔
    ∀ l ∈ all, ¬ Speaks l := by
  rw [List.find?_eq_none]
  simp only [contains_iff, Speaks]

/-- The first line that speaks of retired instructions decides the report. -/
theorem parse_bsdTime_eq_some_iff : bsdTime.parse report = some n ↔
    ∃ before line after, FallsInto report.toList (before ++ line :: after) ∧ (∀ l ∈ before, ¬ Speaks l) ∧
      Speaks line ∧ CountsByWord n line := by
  rw [parse, Option.bind_eq_some_iff]
  constructor
  · rintro ⟨line, found, read⟩
    obtain ⟨before, after, shape, silent, speaks⟩ := find_speaks_eq_some_iff.1 found
    exact ⟨before, line, after, lines_eq_iff.1 shape, silent, speaks, countOf_firstWord_eq_some_iff.1 read⟩
  · rintro ⟨before, line, after, falls, silent, speaks, counts⟩
    exact ⟨line, find_speaks_eq_some_iff.2 ⟨before, after, lines_eq_iff.2 falls, silent, speaks⟩,
      countOf_firstWord_eq_some_iff.2 counts⟩

/-- There is no count where no line speaks, or the first that does cannot be read. -/
theorem parse_bsdTime_eq_none_iff : bsdTime.parse report = none ↔
    ∃ all, FallsInto report.toList all ∧ ((∀ l ∈ all, ¬ Speaks l) ∨
      ∃ before line after, all = before ++ line :: after ∧ (∀ l ∈ before, ¬ Speaks l) ∧ Speaks line ∧
        ¬ ∃ n, CountsByWord n line) := by
  have wordless (line : List Char) : countOf (firstWord line) = none ↔ ¬ ∃ n, CountsByWord n line := by
    rw [Option.eq_none_iff_forall_ne_some, not_exists]
    exact forall_congr' fun n => not_congr countOf_firstWord_eq_some_iff
  rw [parse, Option.bind_eq_none_iff]
  simp only [← lines_eq_iff, exists_eq_left', wordless]
  constructor
  · intro unread
    cases found : (lines report.toList).find? (contains retired) with
    | none => exact .inl (find_speaks_eq_none_iff.1 found)
    | some line =>
      obtain ⟨before, after, shape, silent, speaks⟩ := find_speaks_eq_some_iff.1 found
      exact .inr ⟨before, line, after, shape, silent, speaks, unread line found⟩
  · rintro (silent | ⟨before, line, after, shape, silent, speaks, wordless⟩) other found
    · cases (find_speaks_eq_none_iff.2 silent).symm.trans found
    · have first := find_speaks_eq_some_iff.2 ⟨before, after, shape, silent, speaks⟩
      obtain rfl := Option.some.inj (first.symm.trans found)
      exact wordless

/-! ### Printed counts -/

/-- A line at which the search of a report stops. -/
def Considers : CounterTool → List Char → Prop
  | perf, line => ∃ n, CountsByFields n line
  | bsdTime, line => Speaks line

/-- What a tool prints for a count, up to the words that name it: the profiler the count, a unit and the event; the
    timing tool the count in a column and the words behind it. -/
inductive Prints (n : UInt64) : CounterTool → List Char → Prop where
  | perf {unit : List Char} (field : ',' ∉ unit) (unbroken : '\n' ∉ unit) :
      Prints n .perf (n.toNat.repr.toList ++ ',' :: (unit ++ ',' :: eventName))
  | bsdTime {column gap : List Char} (blank : Blank column) (unbroken : '\n' ∉ column) (blank' : Blank gap)
      (unbroken' : '\n' ∉ gap) (apart : gap ≠ []) :
      Prints n .bsdTime (column ++ (n.toNat.repr.toList ++ (gap ++ retired)))

namespace Prints

variable {tool : CounterTool} {opening : List Char}

theorem present (prints : Prints n tool opening) : opening ≠ [] := by
  have words : retired ≠ [] := by decide
  cases prints with
  | perf => simp
  | bsdTime => simp [words]

theorem unbroken (prints : Prints n tool opening) : '\n' ∉ opening := by
  have digits : '\n' ∉ n.toNat.repr.toList := not_mem_repr (by decide) _
  have event : '\n' ∉ eventName := by decide
  have words : '\n' ∉ retired := by decide
  cases prints with
  | perf field free =>
    simp only [List.mem_append, List.mem_cons, digits, free, event, or_false, Char.reduceEq, not_false_eq_true]
  | bsdTime blank free blank' free' apart =>
    simp only [List.mem_append, digits, free, free', words, or_false, not_false_eq_true]

theorem bare (prints : Prints n tool opening) : opening.getLast? ≠ some '\r' := by
  have event : eventName.getLast? = some 's' := by decide
  have words : retired.getLast? = some 'd' := by decide
  cases prints with
  | perf => simp [List.getLast?_append, List.getLast?_cons, event]
  | bsdTime => simp [List.getLast?_append, words]

/-- The third field begins with the event's name, whatever follows on the line. -/
theorem countsByFields (prints : Prints n .perf opening) (more : List Char) : CountsByFields n (opening ++ more) := by
  cases prints with
  | @perf unit field free =>
    have event : ',' ∉ eventName := by decide
    obtain ⟨part, parts, third⟩ := split_append_of_not_mem event more
    have cut : split ',' (n.toNat.repr.toList ++ ',' :: (unit ++ ',' :: eventName) ++ more) =
        ([] ++ n.toNat.repr.toList ++ []) :: unit :: (eventName ++ part) :: parts := by
      rw [List.append_assoc, List.cons_append, split_append (not_mem_repr (by decide) _), List.append_assoc,
        List.cons_append, split_append field, third, List.nil_append, List.append_nil]
    exact ⟨[], _, [], unit, _, parts, split_eq_iff.1 cut, List.prefix_append _ _, List.forall_mem_nil _,
      spells_repr n, List.forall_mem_nil _⟩

/-- The line that a time command prints speaks of retired instructions. -/
theorem speaks (prints : Prints n .bsdTime opening) (more : List Char) : Speaks (opening ++ more) := by
  cases prints with
  | @bsdTime column gap =>
    refine ⟨column ++ n.toNat.repr.toList ++ gap, more, ?_⟩
    simp only [List.append_assoc]

theorem countsByWord (prints : Prints n .bsdTime opening) (more : List Char) : CountsByWord n (opening ++ more) := by
  cases prints with
  | @bsdTime column gap blank free blank' free' apart =>
    refine ⟨column, _, gap ++ (retired ++ more), by simp only [List.append_assoc], blank, spells_repr n, ?_⟩
    obtain ⟨c, rest, rfl⟩ := List.exists_cons_of_ne_nil apart
    rintro d ⟨⟩
    exact blank' c List.mem_cons_self

end Prints

/-- A printed count is read behind lines at which the search does not stop. -/
theorem parse_of_prints {tool : CounterTool} {front opening behind : List Char} (complete : Complete front)
    (passed : ∀ l ∈ lines front, ¬ tool.Considers l) (prints : Prints n tool opening)
    (shape : report.toList = front ++ (opening ++ behind)) : tool.parse report = some n := by
  obtain ⟨more, rest, cut⟩ := lines_append_of_not_mem prints.present prints.unbroken prints.bare behind
  have falls : FallsInto report.toList (lines front ++ (opening ++ more) :: rest) := by
    rw [← lines_eq_iff, shape, lines_append complete, cut]
  cases tool with
  | perf => exact parse_perf_eq_some_iff.2 ⟨_, _, rest, falls, passed, prints.countsByFields more⟩
  | bsdTime =>
    exact parse_bsdTime_eq_some_iff.2 ⟨_, _, rest, falls, passed, prints.speaks more, prints.countsByWord more⟩

/-- The profiler's count is that of the first line with a count in the first of
    its fields and the event in the third, and there is none if no line is so. The timing tool's count is the first
    word of the first line that speaks of retired instructions, and there is none if no line does or this word is
    no count. What either tool prints for a count, behind complete lines at which its search does not stop, is
    read as this count, whatever follows. -/
theorem reports_are_read (report : String) :
    (∀ n, perf.parse report = some n ↔
      ∃ before line after, FallsInto report.toList (before ++ line :: after) ∧
        (∀ l ∈ before, ¬ ∃ m, CountsByFields m l) ∧ CountsByFields n line) ∧
    (perf.parse report = none ↔
      ∃ all, FallsInto report.toList all ∧ ∀ l ∈ all, ¬ ∃ n, CountsByFields n l) ∧
    (∀ n, bsdTime.parse report = some n ↔
      ∃ before line after, FallsInto report.toList (before ++ line :: after) ∧ (∀ l ∈ before, ¬ Speaks l) ∧
        Speaks line ∧ CountsByWord n line) ∧
    (bsdTime.parse report = none ↔
      ∃ all, FallsInto report.toList all ∧ ((∀ l ∈ all, ¬ Speaks l) ∨
        ∃ before line after, all = before ++ line :: after ∧ (∀ l ∈ before, ¬ Speaks l) ∧ Speaks line ∧
          ¬ ∃ n, CountsByWord n line)) ∧
    ∀ (tool : CounterTool) (n : UInt64) (front opening behind : List Char) (passed : List (List Char)),
      Complete front → FallsInto front passed → (∀ l ∈ passed, ¬ tool.Considers l) → Prints n tool opening →
      report.toList = front ++ (opening ++ behind) → tool.parse report = some n := by
  refine ⟨fun _ => parse_perf_eq_some_iff, parse_perf_eq_none_iff, fun _ => parse_bsdTime_eq_some_iff,
    parse_bsdTime_eq_none_iff, ?_⟩
  intro tool n front opening behind passed complete falls silent prints shape
  rw [← lines_eq_iff.2 falls] at silent
  exact parse_of_prints complete silent prints shape

/-- A report in which an event was not counted before the one that was. -/
theorem reports_are_read_profiled :
    Prints 98765432 perf "98765432,,instructions".toList ∧
    perf.parse "<not counted>,,instructions:u,0\n98765432,,instructions:u,1200000\n" = some 98765432 := by
  have prints : Prints 98765432 perf "98765432,,instructions".toList := .perf List.not_mem_nil List.not_mem_nil
  refine ⟨prints, (reports_are_read _).2.2.2.2 perf 98765432 "<not counted>,,instructions:u,0\n".toList
    "98765432,,instructions".toList ":u,1200000\n".toList ["<not counted>,,instructions:u,0".toList]
    (.inr (by decide)) (lines_eq_iff.1 (by decide)) (List.forall_mem_singleton.2 ?_) prints (by decide)⟩
  exact perfCount_eq_none_iff.1 (by decide)

end CycleCost.CounterTool
