/-
Module: CycleCost.Proofs.Workload.Source
Purpose: The source of a program, line by line. Every line but the comment and the loads of the bound is given by the
  template and the target, and the comment and the entry symbol say which program it is.
Main exports: Source.isComment, Source.loadsBound, Source.LoadsBeforeLoop, Source.SameButForLoads,
  Program.lines_source, Program.ofSource?_of_lines, Program.sources_tell_programs
-/
import CycleCost.Proofs.Assembly.Notation
import CycleCost.Proofs.Digest
import CycleCost.Proofs.Workload.Admission
import CycleCost.Proofs.Workload.Template

namespace CycleCost

open Assembly Text

namespace Assembly

/-- A line as it stands in a source, without its break. -/
def Line.shown : Line → List Char
  | .instruction i => ' ' :: ' ' :: ' ' :: ' ' :: i.text.toList
  | .label name => name.toList ++ [':']

theorem Line.toList_text (line : Line) : line.text.toList = line.shown ++ ['\n'] := by
  cases line with
  | instruction i =>
    rw [text, String.toList_append, String.toList_append]
    rfl
  | label name =>
    rw [text, String.toList_append, shown, List.append_assoc]
    rfl

end Assembly

namespace Source

/-- A line that only speaks to the reader. -/
def isComment (line : List Char) : Bool := "//".toList.isPrefixOf line

/-- A line that loads the loop bound: a wide move that names the bound register. -/
def loadsBound (line : List Char) : Bool :=
  let shown := trimLeft line
  ("movz".toList.isPrefixOf shown || "movk".toList.isPrefixOf shown) &&
    Text.contains boundRegister.text.toList shown

/-- A line that every source of a template has: it is one line, no comment, and loads no bound. -/
structure Steady (line : List Char) : Prop where
  unbroken : isUnbroken line = true
  comment : isComment line = false
  load : loadsBound line = false

/-- Lines that every source has stay. -/
theorem filter_of_steady {lines : List (List Char)} (h : ∀ line ∈ lines, Steady line) :
    lines.filter (fun line => !isComment line && !loadsBound line) = lines :=
  List.filter_eq_self.2 fun line member => by simp [(h line member).comment, (h line member).load]

end Source

open Source

/-! ### Lines of instructions -/

namespace Assembly

theorem isUnbroken_register (r : Register) : isUnbroken r.text.toList = true := by
  cases r with
  | x number =>
    rw [toList_text_general]
    simp
  | _ => rfl

theorem isUnbroken_callText (number : Nat) : isUnbroken (Instruction.callText number).toList = true := by
  rw [Instruction.callText]
  split <;> simp [toString]

theorem isUnbroken_place (place : HalfWord) : isUnbroken place.text.toList = true := by
  cases place <;> decide +kernel

/-- An instruction is one line if the label it names is. -/
theorem isUnbroken_instruction {i : Instruction}
    (h : ∀ name, i.target? = some name → isUnbroken name.toList = true) :
    isUnbroken (Line.instruction i).shown = true := by
  change isUnbroken i.text.toList = true
  cases i with
  | branch name => simp [Instruction.text, toString, h name rfl]
  | branchIf condition name => cases condition <;> simp [Instruction.text, Condition.text, toString, h name rfl]
  | _ => simp [Instruction.text, toString, isUnbroken_register, isUnbroken_callText, isUnbroken_place]

/-- Only a wide move loads the bound. -/
theorem loadsBound_of_not_wide {i : Instruction} (h : i.isWideMove = false) :
    loadsBound (Line.instruction i).shown = false := by
  cases i with
  | movz register half place => cases h
  | movk register half place => cases h
  | _ =>
    -- The first letters are no mnemonic of a wide move, so the operands do not matter.
    simp only [Line.shown, Instruction.text, String.toList_append, List.append_assoc]
    rfl

theorem steady_instruction {i : Instruction} (narrow : i.isWideMove = false)
    (h : ∀ name, i.target? = some name → isUnbroken name.toList = true) : Steady (Line.instruction i).shown where
  unbroken := isUnbroken_instruction h
  comment := rfl
  load := loadsBound_of_not_wide narrow

section

variable {count : UInt64} {i : Instruction}

theorem isUnbroken_boundLoad (h : i ∈ boundLoad count) : isUnbroken (Line.instruction i).shown = true := by
  obtain ⟨half, place, rfl | rfl⟩ := eq_of_mem_boundLoad h <;> exact isUnbroken_instruction nofun

/-- The loads of a bound are lines that load it. -/
theorem loadsBound_boundLoad (h : i ∈ boundLoad count) : loadsBound (Line.instruction i).shown = true := by
  obtain ⟨half, place, rfl | rfl⟩ := eq_of_mem_boundLoad h
  · rw [Line.shown, toList_text_movz]
    rfl
  · rw [Line.shown, toList_text_movk]
    rfl

end

/-- A line whose labels are those of a source: an instruction that is no wide move, or a label. -/
def Line.isPlain : Line → Bool
  | .instruction i => !i.isWideMove && i.target?.all fun name => isUnbroken name.toList
  | .label name => isUnbroken name.toList && !isComment (name.toList ++ [':']) && !loadsBound (name.toList ++ [':'])

/-- A plain line is steady. -/
theorem Line.steady_of_isPlain {line : Line} (h : line.isPlain = true) : Steady line.shown := by
  cases line with
  | instruction i =>
    obtain ⟨narrow, target⟩ := Bool.and_eq_true_iff.1 h
    refine steady_instruction (Bool.not_eq_true' _ ▸ narrow) fun name named => ?_
    rwa [named] at target
  | label name =>
    obtain ⟨⟨unbroken, comment⟩, load⟩ := by simpa [isPlain] using h
    exact ⟨by simp [shown, unbroken], comment, load⟩

end Assembly

/-! ### The lines of a source -/

namespace Template

/-- The lines of a program from the loop label on. -/
def fromLabel (t : Template) (abi : Abi) : List Line :=
  .label Program.loopLabel :: (t.body ++ Program.loopControl ++ t.teardown ++ abi.exitSequence 0)

/-- Every line of a template is plain. -/
theorem isPlain_lines (t : Template) : ∀ line ∈ t.setup ++ t.body ++ t.teardown, line.isPlain = true := by
  cases t <;> decide +kernel

theorem isPlain_control (abi : Abi) :
    ∀ line ∈ .label Program.loopLabel :: (Program.loopControl ++ abi.exitSequence 0), line.isPlain = true := by
  cases abi <;> decide +kernel

/-- The set-up of a template is steady. -/
theorem steady_setup (t : Template) : ∀ line ∈ t.setup, Steady line.shown := fun line member =>
  Line.steady_of_isPlain (t.isPlain_lines line (by simp [member]))

theorem steady_fromLabel (t : Template) (abi : Abi) : ∀ line ∈ t.fromLabel abi, Steady line.shown := by
  intro line member
  apply Line.steady_of_isPlain
  have lines := t.isPlain_lines line
  have control := isPlain_control abi line
  simp only [fromLabel, List.mem_cons, List.mem_append] at lines control member
  tauto

/-- Before the loop there are instructions only. -/
theorem exists_setup (t : Template) : ∃ instructions : List Instruction, t.setup = instructions.map .instruction :=
  ⟨_, rfl⟩

end Template

namespace Program

/-- The comment in front of a source. -/
def title (p : Program) : List Char :=
  "//".toList ++ ' ' :: (p.template.name.toList ++ ' ' :: ("calibration".toList ++ ' ' :: ("workload:".toList
    ++ ' ' :: (p.count.toNat.repr.toList ++ ' ' :: "iterations".toList))))

/-- The lines that make the entry symbol known. -/
def entryLines (abi : Abi) : List (List Char) :=
  [".global ".toList ++ abi.entrySymbol.toList, ".align 4".toList, [], abi.entrySymbol.toList ++ [':']]

/-- The line that clears the counter. -/
def clearing : Line := .instruction (.moveImmediate counterRegister 0)

/-- The lines of a source without their breaks. -/
def sourceLines (p : Program) : List (List Char) :=
  p.title :: (entryLines p.abi ++ clearing.shown :: (boundLoad p.count).map (Line.shown ∘ .instruction)
    ++ (p.template.setup.map Line.shown ++ (p.template.fromLabel p.abi).map Line.shown))

variable {p : Program}

/-- The lines of a program: the counter, the bound, the set-up and the loop. -/
theorem lines_eq (h : p.count ≤ countLimit) :
    p.lines = .ok (clearing :: (boundLoad p.count).map .instruction
      ++ (p.template.setup ++ p.template.fromLabel p.abi)) := by
  rw [lines, loadCount_eq h]
  simp only [Template.fromLabel, clearing, List.cons_append, List.append_assoc]
  rfl

/-- The lines in front of the instructions. -/
theorem toList_header (p : Program) :
    p.header.toList ++ (Line.label p.abi.entrySymbol).text.toList =
      (p.title :: entryLines p.abi).flatMap (· ++ ['\n']) := by
  rw [Line.toList_text]
  simp only [header, title, entryLines, Line.shown, String.toList_append, List.flatMap_cons, List.flatMap_nil,
    List.append_assoc, List.cons_append]
  rfl

/-- A count within the limit has a source, which is its lines, each with a break. -/
theorem source_eq (h : p.count ≤ countLimit) :
    ∃ text, p.source = .ok text ∧ text.toList = p.sourceLines.flatMap (· ++ ['\n']) := by
  refine ⟨_, source_of_lines (lines_eq h), ?_⟩
  have shown (lines : List Line) :
      (String.join (lines.map Line.text)).toList = (lines.map Line.shown).flatMap (· ++ ['\n']) := by
    simp only [String.toList_join, List.flatMap_map, Line.toList_text]
  rw [String.toList_append, String.toList_append, toList_header, shown]
  simp only [sourceLines, List.map_append, List.map_cons, List.map_map, List.flatMap_cons, List.flatMap_append,
    List.append_assoc, List.cons_append]

theorem isUnbroken_title (p : Program) : isUnbroken p.title = true := by
  have name : isUnbroken p.template.name.toList = true := by cases p.template <;> decide +kernel
  simp [title, name]

theorem isComment_title (p : Program) : isComment p.title = true := by
  rw [title, isComment]
  rfl

theorem steady_entryLines (abi : Abi) : ∀ line ∈ entryLines abi, Steady line := by
  have checked : ∀ line ∈ entryLines abi,
      isUnbroken line = true ∧ isComment line = false ∧ loadsBound line = false := by
    cases abi <;> decide +kernel
  exact fun line member => ⟨(checked line member).1, (checked line member).2.1, (checked line member).2.2⟩

theorem steady_clearing : Steady clearing.shown := steady_instruction rfl nofun

/-- Behind the comment a line is steady or loads the bound. -/
theorem steady_or_load (p : Program) : ∀ line ∈ p.sourceLines.tail,
    Steady line ∨ ∃ i ∈ boundLoad p.count, line = (Line.instruction i).shown := by
  intro line member
  simp only [sourceLines, List.tail_cons, List.mem_cons, List.mem_append, List.mem_map,
    Function.comp_apply] at member
  rcases member with (entry | rfl | ⟨i, load, rfl⟩) | ⟨line, setup, rfl⟩ | ⟨line, loop, rfl⟩
  · exact .inl (steady_entryLines _ line entry)
  · exact .inl steady_clearing
  · exact .inr ⟨i, load, rfl⟩
  · exact .inl (p.template.steady_setup line setup)
  · exact .inl (p.template.steady_fromLabel p.abi line loop)

/-- The lines of a source are the lines that it was put together from. -/
theorem lines_source (h : p.count ≤ countLimit) :
    ∃ text, p.source = .ok text ∧ Text.lines text.toList = p.sourceLines := by
  obtain ⟨text, made, spelled⟩ := source_eq h
  refine ⟨text, made, ?_⟩
  rw [spelled]
  refine lines_flatMap (List.forall_mem_cons.2 ⟨isUnbroken_title p, fun line member => ?_⟩)
  obtain steady | ⟨i, load, rfl⟩ := p.steady_or_load line member
  · exact steady.unbroken
  · exact isUnbroken_boundLoad load

/-! ### From a source to its program -/

/-- The program that a source was made from, as its comment and its entry symbol say. -/
def ofSource? (source : String) : Option Program :=
  match Text.lines source.toList with
  | title :: entry :: _ =>
    match Text.split ' ' title with
    | [_, name, _, _, digits, _] => do
      let template ← Template.all.find? fun t => t.name.toList == name
      let count ← Decimal.parseUnsigned UInt64.size digits
      let abi ← Abi.all.find? fun abi => (".global " ++ abi.entrySymbol).toList == entry
      return ⟨template, .ofNat count, abi⟩
    | _ => none
  | _ => none

/-- The words of the comment. -/
theorem split_title (p : Program) :
    Text.split ' ' p.title = ["//".toList, p.template.name.toList, "calibration".toList, "workload:".toList,
      p.count.toNat.repr.toList, "iterations".toList] := by
  have name : ' ' ∉ p.template.name.toList := by cases p.template <;> decide +kernel
  have digits : ' ' ∉ p.count.toNat.repr.toList := Decimal.not_mem_repr (by decide) _
  rw [title, split_append (by decide), split_append name, split_append (by decide), split_append (by decide),
    split_append digits, split_of_not_mem (by decide)]

/-- A source says which program it was made from. -/
theorem ofSource?_of_lines {text : String} (h : Text.lines text.toList = p.sourceLines) : ofSource? text = some p := by
  -- No two templates have one name, and no two targets one entry symbol.
  have template : Template.all.find? (fun t => t.name.toList == p.template.name.toList) = some p.template := by
    cases p.template <;> decide +kernel
  have abi : Abi.all.find? (fun abi => (".global " ++ abi.entrySymbol).toList ==
      ".global ".toList ++ p.abi.entrySymbol.toList) = some p.abi := by
    cases p.abi <;> decide +kernel
  rw [ofSource?, h]
  simp only [sourceLines, entryLines, List.cons_append, split_title, template, abi,
    Decimal.parseUnsigned_repr p.count.toNat_lt, Option.bind_eq_bind, Option.bind_some, UInt64.ofNat_toNat]
  rfl

end Program

/-! ### Two sources -/

namespace Source

/-- The line of the loop label. -/
def loopLine : List Char := (Line.label Program.loopLabel).shown

/-- The lines of a source without the comment and without the loads of the bound. -/
def withoutCount (source : String) : List (List Char) :=
  (Text.lines source.toList).filter fun line => !isComment line && !loadsBound line

/-- The lines of a source from the loop label on. -/
def fromLoop (source : String) : List (List Char) := (Text.lines source.toList).dropWhile (· ≠ loopLine)

/-- The comment is the first line, and the loads of the bound stand before the loop label. -/
structure LoadsBeforeLoop (source : String) : Prop where
  comment : (Text.lines source.toList).filter isComment = (Text.lines source.toList).take 1
  label : (fromLoop source).head? = some loopLine
  behind : ∀ line ∈ fromLoop source, loadsBound line = false

/-- Two sources differ in nothing but the comment and the loads of the bound. -/
structure SameButForLoads (source other : String) : Prop where
  stripped : withoutCount source = withoutCount other
  loop : fromLoop source = fromLoop other

end Source

namespace Program

variable {p : Program} {text : String}

/-- Without the title and the loads no count is left in a source. -/
theorem withoutCount_of_lines (h : Text.lines text.toList = p.sourceLines) :
    withoutCount text = entryLines p.abi ++ clearing.shown ::
      (p.template.setup.map Line.shown ++ (p.template.fromLabel p.abi).map Line.shown) := by
  have loads : ((boundLoad p.count).map (Line.shown ∘ .instruction)).filter
      (fun line => !isComment line && !loadsBound line) = [] := by
    refine List.filter_eq_nil_iff.2 fun line member => ?_
    obtain ⟨i, load, rfl⟩ := List.mem_map.1 member
    simp [loadsBound_boundLoad load]
  have setup := filter_of_steady (List.forall_mem_map.2 p.template.steady_setup)
  have loop := filter_of_steady (List.forall_mem_map.2 (p.template.steady_fromLabel p.abi))
  rw [withoutCount, h, sourceLines, List.filter_cons_of_neg (by simp [p.isComment_title]), List.filter_append,
    List.filter_append, filter_of_steady (steady_entryLines p.abi), List.filter_append, setup, loop,
    List.filter_cons_of_pos (by simp [steady_clearing.comment, steady_clearing.load]), loads]
  simp

/-- Before the loop label no line is like it. -/
theorem ne_loopLine (p : Program) :
    ∀ line ∈ p.title :: (entryLines p.abi ++ clearing.shown ::
      (boundLoad p.count).map (Line.shown ∘ .instruction) ++ p.template.setup.map Line.shown), line ≠ loopLine := by
  -- The first letter tells a line from the loop label, but for the lines of the entry symbol.
  have apart {c : Char} {rest : List Char} (h : c ≠ 'l') : c :: rest ≠ loopLine := fun same =>
    h (List.head_eq_of_cons_eq same)
  have instruction (i : Instruction) : (Line.instruction i).shown ≠ loopLine := apart (by decide)
  have entry : ∀ line ∈ entryLines p.abi, line ≠ loopLine := by cases p.abi <;> decide +kernel
  intro line member
  simp only [List.mem_cons, List.mem_append, List.mem_map, Function.comp_apply] at member
  rcases member with rfl | (member | rfl | ⟨i, -, rfl⟩) | ⟨line, member, rfl⟩
  · exact apart (c := '/') (by decide)
  · exact entry line member
  · exact instruction _
  · exact instruction i
  · obtain ⟨instructions, setup⟩ := p.template.exists_setup
    obtain ⟨i, -, rfl⟩ := List.mem_map.1 (setup ▸ member)
    exact instruction i

theorem fromLoop_of_lines (h : Text.lines text.toList = p.sourceLines) :
    fromLoop text = (p.template.fromLabel p.abi).map Line.shown := by
  have front : p.sourceLines = (p.title :: (entryLines p.abi ++ clearing.shown ::
      (boundLoad p.count).map (Line.shown ∘ .instruction) ++ p.template.setup.map Line.shown)) ++
        (p.template.fromLabel p.abi).map Line.shown := by
    simp only [sourceLines, List.cons_append, List.append_assoc]
  rw [fromLoop, h, front, List.dropWhile_append_of_pos fun line member => by simpa using p.ne_loopLine line member]
  exact List.dropWhile_cons_of_neg (by simp [loopLine])

/-- In every source the comment comes first and the loads stand before the loop. -/
theorem loadsBeforeLoop_of_lines (h : Text.lines text.toList = p.sourceLines) : LoadsBeforeLoop text where
  comment := by
    rw [h, sourceLines, List.filter_cons_of_pos p.isComment_title]
    refine congrArg (p.title :: ·) (List.filter_eq_nil_iff.2 fun line member => ?_)
    obtain steady | ⟨i, -, rfl⟩ := p.steady_or_load line member
    · simp [steady.comment]
    · exact Bool.false_ne_true
  label := by rw [fromLoop_of_lines h]; rfl
  behind := by
    rw [fromLoop_of_lines h]
    exact List.forall_mem_map.2 fun line member => (p.template.steady_fromLabel p.abi line member).load

/-- Between two counts only the comment and the loads of the bound differ, and the loads come before the loop. A
    source tells its program, and so does a fingerprint, unless the hash function has a collision in the two
    sources. -/
theorem sources_tell_programs (p q : Program) (hp : Admitted p.count) (hq : Admitted q.count) :
    ∃ text other, p.source = .ok text ∧ q.source = .ok other ∧ LoadsBeforeLoop text ∧
      (p.template = q.template → p.abi = q.abi → SameButForLoads text other) ∧
      (text = other ↔ p = q) ∧
      ∀ hash : Digest.Hash, (p.fingerprint hash = q.fingerprint hash ↔
        p = q ∨ Digest.Collision hash (Digest.message text) (Digest.message other)) := by
  obtain ⟨text, made, lines⟩ := lines_source hp.2
  obtain ⟨other, made', lines'⟩ := lines_source hq.2
  have equal : text = other ↔ p = q := by
    constructor
    · rintro rfl
      exact Option.some.inj ((ofSource?_of_lines lines).symm.trans (ofSource?_of_lines lines'))
    · rintro rfl
      exact Except.ok.inj (made.symm.trans made')
  refine ⟨text, other, made, made', loadsBeforeLoop_of_lines lines, fun template abi => ⟨?_, ?_⟩, equal,
    fun hash => ?_⟩
  · rw [withoutCount_of_lines lines, withoutCount_of_lines lines', template, abi]
  · rw [fromLoop_of_lines lines, fromLoop_of_lines lines', template, abi]
  · have digest : p.fingerprint hash = .ok (Digest.hex hash text) := by rw [fingerprint, made]; rfl
    have digest' : q.fingerprint hash = .ok (Digest.hex hash other) := by rw [fingerprint, made']; rfl
    rw [digest, digest', Except.ok.injEq, Digest.hex_eq_iff, equal]

/-- A thousand and seventy thousand iterations, of which the second count needs two loads. -/
theorem sources_tell_thousand_from_seventyThousand :
    ∃ text other, (⟨.dependency, 1000, .linux⟩ : Program).source = .ok text ∧
      (⟨.dependency, 70000, .linux⟩ : Program).source = .ok other ∧ text ≠ other ∧ SameButForLoads text other := by
  obtain ⟨text, other, made, made', -, same, equal, -⟩ :=
    sources_tell_programs ⟨.dependency, 1000, .linux⟩ ⟨.dependency, 70000, .linux⟩ (by decide) (by decide)
  exact ⟨text, other, made, made', fun texts => absurd (equal.1 texts) (by decide), same rfl rfl⟩

end Program

end CycleCost
