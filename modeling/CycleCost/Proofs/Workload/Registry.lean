/-
Module: CycleCost.Proofs.Workload.Registry
Purpose: Which templates a list of names selects and what a registry answers afterwards. A name means at most
  one template. Going through a list keeps an invariant: what is chosen so far are the templates of the names
  read so far, in the order in which the names first call them; the first name that means nothing ends the
  list. A source is refused for its name first and for its count second, and for nothing else.
Main exports: AlikeTexts, Template.Called, Template.named_eq_ok_iff, Registry.CalledBefore, Registry.Holds,
  Registry.FirstUnknown, Registry.resolve_of_holds, Registry.Selected, Registry.Finds, Registry.Refuses,
  Registry.registry_follows_names
-/
import CycleCost.Proofs.Workload.Admission
import CycleCost.Workload.Registry
import Mathlib.Data.List.Forall2

namespace CycleCost

open Assembly

/-! ### Names -/

/-- Two characters that are the same, or one ASCII letter in its two cases. -/
def AlikeLetters (c d : Char) : Prop :=
  c = d ∨ (c.isUpper ∧ d.toNat = c.toNat + 32) ∨ (d.isUpper ∧ c.toNat = d.toNat + 32)

/-- Two texts that are alike letter by letter. -/
def AlikeTexts (a b : String) : Prop := List.Forall₂ AlikeLetters a.toList b.toList

theorem isUpper_iff_toNat {c : Char} : c.isUpper ↔ 65 ≤ c.toNat ∧ c.toNat ≤ 90 :=
  decide_eq_true_iff (p := c.val ≥ 'A'.val ∧ c.val ≤ 'Z'.val)

theorem toNat_toLower (c : Char) : c.toLower.toNat = if c.isUpper then c.toNat + 32 else c.toNat := by
  split
  next upper =>
    have range := isUpper_iff_toNat.1 upper
    have small : c.val.toNat + 32 < 2 ^ 32 := by
      change c.toNat + 32 < 2 ^ 32
      omega
    calc c.toLower.toNat
      _ = (c.val + ('a'.val - 'A'.val)).toNat := congrArg Char.toNat (dif_pos range)
      _ = c.toNat + 32 := (UInt32.toNat_add ..).trans (Nat.mod_eq_of_lt small)
  next other => exact congrArg Char.toNat (dif_neg (mt isUpper_iff_toNat.2 other))

/-- Lower case forgets the case of a letter and nothing else. -/
theorem toLower_eq_toLower_iff {c d : Char} : c.toLower = d.toLower ↔ AlikeLetters c d := by
  rw [AlikeLetters, ← Char.toNat_inj, ← Char.toNat_inj, toNat_toLower, toNat_toLower]
  simp only [isUpper_iff_toNat]
  split <;> split <;> omega

/-- Texts are equal but for case when they are alike character by character. -/
theorem equalIgnoringCase_iff {a b : String} : equalIgnoringCase a b ↔ AlikeTexts a b := by
  have letters : (fun c d : Char => c.toLower = d.toLower) = AlikeLetters :=
    funext₂ fun _ _ => propext toLower_eq_toLower_iff
  rw [equalIgnoringCase, beq_iff_eq, AlikeTexts, ← letters, ← List.forall₂_map_right_iff,
    ← List.forall₂_map_left_iff, List.forall₂_eq_eq_eq]

/-- Texts alike to one text are compared alike with every other. -/
theorem equalIgnoringCase_congr {a b : String} (alike : AlikeTexts a b) (other : String) :
    equalIgnoringCase other a = equalIgnoringCase other b := by
  have lower : a.toList.map Char.toLower = b.toList.map Char.toLower :=
    beq_iff_eq.1 (equalIgnoringCase_iff.2 alike)
  rw [equalIgnoringCase, equalIgnoringCase, lower]

namespace Template

/-- A name calls a template whose own name it is, in any case. -/
def Called (name : String) (t : Template) : Prop := AlikeTexts t.name name

/-- Some template goes by the name. -/
def Known (name : String) : Prop := ∃ t : Template, t.Called name

/-- Every template is in the list of all. -/
theorem mem_all (t : Template) : t ∈ all := by cases t <;> decide

theorem nodup_all : all.Nodup := by decide

/-- The search for a name finds the template that the name calls. No two templates have names that are alike, so it
    does not matter which comes first. -/
theorem find_of_called {t : Template} {name : String} (called : t.Called name) :
    all.find? (fun other => equalIgnoringCase other.name name) = some t := by
  have own : all.find? (fun other => equalIgnoringCase other.name t.name) = some t := by
    cases t <;> decide
  rw [← own]
  exact congrArg all.find? (funext fun other => (equalIgnoringCase_congr called other.name).symm)

/-- A name finds the template that is called so. -/
theorem named_eq_ok_iff {t : Template} {name : String} : named name = .ok t ↔ t.Called name := by
  constructor
  · intro found
    rw [named] at found
    split at found
    next other hit =>
      cases found
      have alike := List.find?_some hit
      exact equalIgnoringCase_iff.1 alike
    next => cases found
  · intro called
    rw [named, find_of_called called]

theorem named_of_unknown {name : String} (unknown : ¬ Known name) :
    named name = .error (.unknownTemplate name) := by
  have missed : all.find? (fun t => equalIgnoringCase t.name name) = none :=
    List.find?_eq_none.2 fun t _ hit => unknown ⟨t, equalIgnoringCase_iff.1 hit⟩
  rw [named, missed]

/-- A name calls at most one template. -/
theorem Called.unique {t u : Template} {name : String} (one : t.Called name) (two : u.Called name) : t = u :=
  Except.ok.inj ((named_eq_ok_iff.2 one).symm.trans (named_eq_ok_iff.2 two))

theorem called_name (t : Template) : t.Called t.name := equalIgnoringCase_iff.1 (beq_self_eq_true _)

end Template

namespace Registry

open Template

/-! ### Selections -/

/-- Some name of a list calls the template. -/
def CalledIn (names : List String) (t : Template) : Prop := ∃ name ∈ names, t.Called name

/-- Some beginning of a list calls the one template and not the other. -/
def CalledBefore (names : List String) (t u : Template) : Prop :=
  ∃ opening, opening <+: names ∧ CalledIn opening t ∧ ¬ CalledIn opening u

/-- The templates that a list of names calls, in the order in which it first calls them. No template comes
    before itself, so each stands there once. -/
structure Holds (names : List String) (templates : List Template) : Prop where
  called : ∀ t, t ∈ templates ↔ CalledIn names t
  ordered : templates.Pairwise (CalledBefore names)

/-- The first name of a list that calls no template. -/
def FirstUnknown (names : List String) (name : String) : Prop :=
  ∃ before after, names = before ++ name :: after ∧ (∀ earlier ∈ before, Known earlier) ∧ ¬ Known name

variable {names rest : List String} {name : String} {t u : Template} {chosen : List Template}

theorem calledIn_append : CalledIn (names ++ rest) t ↔ CalledIn names t ∨ CalledIn rest t := by
  simp only [CalledIn, List.mem_append, or_and_right, exists_or]

theorem calledIn_singleton : CalledIn [name] t ↔ t.Called name := by
  simp only [CalledIn, List.mem_singleton, exists_eq_left]

/-- What comes before stays before as a list grows. -/
theorem CalledBefore.append (h : CalledBefore names t u) : CalledBefore (names ++ rest) t u := by
  obtain ⟨opening, isPrefix, one, other⟩ := h
  exact ⟨opening, isPrefix.trans (List.prefix_append ..), one, other⟩

theorem not_calledBefore_self : ¬ CalledBefore names t t := fun ⟨_, _, called, not⟩ => not called

namespace Holds

theorem nil : Holds [] [] where
  called _ := iff_of_false List.not_mem_nil fun ⟨_, member, _⟩ => List.not_mem_nil member
  ordered := .nil

theorem nodup (h : Holds names chosen) : chosen.Nodup :=
  h.ordered.imp fun {t u} (before : CalledBefore names t u) (same : t = u) =>
    not_calledBefore_self (same ▸ before)

/-- A name whose template is there changes nothing. -/
theorem again (h : Holds names chosen) (called : t.Called name) (present : t ∈ chosen) :
    Holds (names ++ [name]) chosen where
  called u := by
    rw [calledIn_append, calledIn_singleton, h.called]
    refine ⟨.inl, ?_⟩
    rintro (earlier | now)
    · exact earlier
    · exact now.unique called ▸ (h.called t).1 present
  ordered := h.ordered.imp .append

/-- A name whose template is not there adds it at the end: every other one has been called before. -/
theorem add (h : Holds names chosen) (called : t.Called name) (absent : t ∉ chosen) :
    Holds (names ++ [name]) (chosen ++ [t]) where
  called u := by
    rw [List.mem_append, List.mem_singleton, calledIn_append, calledIn_singleton, h.called]
    exact or_congr_right ⟨fun same => same ▸ called, fun now => now.unique called⟩
  ordered := by
    refine List.pairwise_append.2 ⟨h.ordered.imp .append, List.pairwise_singleton .., ?_⟩
    intro u earlier v last
    obtain rfl := List.mem_singleton.1 last
    exact ⟨names, List.prefix_append .., (h.called u).1 earlier, mt (h.called v).2 absent⟩

end Holds

/-- One name keeps the invariant. -/
theorem holds_step (h : Holds names chosen) (called : t.Called name) :
    Holds (names ++ [name]) (if t ∈ chosen then chosen else chosen ++ [t]) := by
  split
  next present => exact h.again called present
  next absent => exact h.add called absent

/-- Known names are all read, and the invariant holds at their end. -/
theorem resolve_of_holds (h : Holds names chosen) (known : ∀ name ∈ rest, Known name) :
    ∃ templates, resolve rest chosen = .ok templates ∧ Holds (names ++ rest) templates := by
  -- Induction on the names that are left: those already read move into the invariant.
  induction rest generalizing names chosen with
  | nil => exact ⟨chosen, rfl, names.append_nil.symm ▸ h⟩
  | cons name rest ih =>
    obtain ⟨⟨t, called⟩, others⟩ := List.forall_mem_cons.1 known
    obtain ⟨templates, done, holds⟩ := ih (holds_step h called) others
    refine ⟨templates, ?_, ?_⟩
    · rw [resolve, named_eq_ok_iff.2 called]
      exact done
    · rwa [List.append_assoc] at holds

/-- An unknown name ends the list, whatever was chosen before it. -/
theorem resolve_of_firstUnknown (h : FirstUnknown names name) :
    resolve names chosen = .error (.unknownTemplate name) := by
  obtain ⟨before, after, rfl, known, unknown⟩ := h
  induction before generalizing chosen with
  | nil =>
    rw [List.nil_append, resolve, named_of_unknown unknown]
    rfl
  | cons first before ih =>
    obtain ⟨⟨t, called⟩, others⟩ := List.forall_mem_cons.1 known
    rw [List.cons_append, resolve, named_eq_ok_iff.2 called]
    exact ih others

/-- A list of names is known throughout, or it has a first unknown name. -/
theorem known_or_firstUnknown (names : List String) :
    (∀ name ∈ names, Known name) ∨ ∃ name, FirstUnknown names name := by
  induction names with
  | nil => exact .inl fun _ member => absurd member List.not_mem_nil
  | cons first rest ih =>
    by_cases known : Known first
    · rcases ih with all | ⟨name, before, after, rfl, earlier, unknown⟩
      · exact .inl (List.forall_mem_cons.2 ⟨known, all⟩)
      · exact .inr ⟨name, first :: before, after, rfl, List.forall_mem_cons.2 ⟨known, earlier⟩, unknown⟩
    · exact .inr ⟨first, [], rest, rfl, fun _ member => absurd member List.not_mem_nil, known⟩

/-- A registry that a list of names selects: every template for no names, and else what the names call. -/
structure Selected (names : List String) (r : Registry) : Prop where
  whole : names = [] → ∀ t, t ∈ r.templates
  named : names ≠ [] → Holds names r.templates
  nodup : r.templates.Nodup

/-- No names select every template. -/
theorem selected_standard : Selected [] standard where
  whole _ := mem_all
  named mentioned := absurd rfl mentioned
  nodup := nodup_all

/-- Known names make a registry of what they select. -/
theorem select_of_known (known : ∀ name ∈ names, Known name) :
    ∃ r, select names = .ok r ∧ Selected names r := by
  by_cases empty : names = []
  · subst empty
    exact ⟨standard, rfl, selected_standard⟩
  · obtain ⟨templates, done, holds⟩ := resolve_of_holds Holds.nil known
    refine ⟨⟨templates⟩, ?_, ⟨(absurd · empty), fun _ => holds, holds.nodup⟩⟩
    rw [select, if_neg (mt List.isEmpty_iff.1 empty), done]
    rfl

theorem select_of_firstUnknown (h : FirstUnknown names name) :
    select names = .error (.unknownTemplate name) := by
  have mentioned : names ≠ [] := by
    obtain ⟨before, after, rfl, -, -⟩ := h
    exact List.append_ne_nil_of_right_ne_nil _ (List.cons_ne_nil name after)
  rw [select, if_neg (mt List.isEmpty_iff.1 mentioned), resolve_of_firstUnknown h]
  rfl

/-- A selection succeeds exactly when every name is known. -/
theorem exists_select_iff : (∃ r, select names = .ok r) ↔ ∀ name ∈ names, Known name := by
  constructor
  · rintro ⟨r, done⟩
    rcases known_or_firstUnknown names with known | ⟨name, unknown⟩
    · exact known
    · rw [select_of_firstUnknown unknown] at done
      cases done
  · intro known
    obtain ⟨r, done, -⟩ := select_of_known known
    exact ⟨r, done⟩

/-- A selection fails exactly with its first unknown name. -/
theorem select_eq_error_iff {fault : Fault} :
    select names = .error fault ↔ ∃ name, FirstUnknown names name ∧ fault = .unknownTemplate name := by
  constructor
  · intro failed
    rcases known_or_firstUnknown names with known | ⟨name, unknown⟩
    · obtain ⟨r, done⟩ := exists_select_iff.2 known
      rw [done] at failed
      cases failed
    · exact ⟨name, unknown, Except.error.inj (failed.symm.trans (select_of_firstUnknown unknown))⟩
  · rintro ⟨name, unknown, rfl⟩
    exact select_of_firstUnknown unknown

example : select ["branch", "FMA", "nope"] = .error (.unknownTemplate "FMA") := rfl

theorem selected_of_select {r : Registry} (done : select names = .ok r) : Selected names r := by
  obtain ⟨other, same, selected⟩ := select_of_known (exists_select_iff.1 ⟨r, done⟩)
  rwa [Except.ok.inj (done.symm.trans same)]

/-! ### Answers -/

/-- A name finds a template that it calls and that the registry holds. -/
def Finds (r : Registry) (name : String) (t : Template) : Prop := t ∈ r.templates ∧ t.Called name

/-- Why a registry gives no source: its name comes first and its count second. -/
inductive Refuses (r : Registry) (name : String) (count : UInt64) : Fault → Prop where
  | unknown (missing : ∀ t, ¬ r.Finds name t) : Refuses r name count (.unknownTemplate name)
  | zero (found : ∃ t, r.Finds name t) (idle : count = 0) : Refuses r name count .zeroCount
  | tooLarge (found : ∃ t, r.Finds name t) (above : countLimit < count) :
      Refuses r name count (.countTooLarge count countLimit)

variable {r : Registry} {count : UInt64} {abi : Abi}

theorem lookup_of_finds (found : r.Finds name t) : r.lookup name = .ok t := by
  rw [lookup, named_eq_ok_iff.2 found.2]
  exact if_pos found.1

/-- A template of the registry is found by its own name. -/
theorem lookup_name (listed : t ∈ r.templates) : r.lookup t.name = .ok t :=
  lookup_of_finds ⟨listed, t.called_name⟩

theorem lookup_of_missing (missing : ∀ t, ¬ r.Finds name t) :
    r.lookup name = .error (.unknownTemplate name) := by
  by_cases known : Known name
  · obtain ⟨t, called⟩ := known
    rw [lookup, named_eq_ok_iff.2 called]
    exact if_neg fun listed => missing t ⟨listed, called⟩
  · rw [lookup, named_of_unknown known]
    rfl

/-- A lookup succeeds exactly with the template of the registry that the name finds. -/
theorem lookup_eq_ok_iff : r.lookup name = .ok t ↔ r.Finds name t := by
  refine ⟨fun found => ?_, lookup_of_finds⟩
  by_cases known : ∃ u, r.Finds name u
  · obtain ⟨u, held⟩ := known
    obtain rfl := Except.ok.inj ((lookup_of_finds held).symm.trans found)
    exact held
  · rw [lookup_of_missing (not_exists.1 known)] at found
    cases found

/-- A lookup fails exactly where the registry has no template of the name, and reports the name. -/
theorem lookup_eq_error_iff {fault : Fault} :
    r.lookup name = .error fault ↔ (∀ t, ¬ r.Finds name t) ∧ fault = .unknownTemplate name := by
  constructor
  · intro failed
    have missing : ∀ t, ¬ r.Finds name t := by
      intro t found
      rw [lookup_of_finds found] at failed
      cases failed
    exact ⟨missing, Except.error.inj (failed.symm.trans (lookup_of_missing missing))⟩
  · rintro ⟨missing, rfl⟩
    exact lookup_of_missing missing

theorem generate_of_missing (missing : ∀ t, ¬ r.Finds name t) :
    r.generate name count abi = .error (.unknownTemplate name) := by
  rw [generate, lookup_of_missing missing]
  rfl

/-- Generation for a known name binds the count and writes the source. -/
theorem generate_of_finds (found : r.Finds name t) :
    r.generate name count abi = Program.bind t count abi >>= Program.source := by
  rw [generate, lookup_of_finds found]
  rfl

/-- An admitted count has a source: neither its work nor the load of its bound can fail any more. -/
theorem generate_of_admitted (found : r.Finds name t) (admitted : Admitted count) :
    r.generate name count abi = Program.source ⟨t, count, abi⟩ := by
  rw [generate_of_finds found, Program.bind_of_admitted admitted]
  rfl

/-- A known name with a count that is not admitted is refused for the count. -/
theorem generate_of_not_admitted (found : r.Finds name t) (denied : ¬ Admitted count) :
    r.generate name count abi = .error (refusal count) := by
  rw [generate_of_finds found, Program.bind_of_not_admitted denied]
  rfl

theorem generate_of_refuses {fault : Fault} (refused : r.Refuses name count fault) :
    r.generate name count abi = .error fault := by
  cases refused with
  | unknown missing => exact generate_of_missing missing
  | zero found idle =>
    obtain ⟨t, held⟩ := found
    rw [generate_of_not_admitted held fun admitted => admitted.1 idle, refusal, if_pos idle]
  | tooLarge found above =>
    obtain ⟨t, held⟩ := found
    have positive : count ≠ 0 := by
      rintro rfl
      exact UInt64.not_lt_zero above
    rw [generate_of_not_admitted held fun admitted => UInt64.not_lt.2 admitted.2 above, refusal, if_neg positive]

/-- A name and a count are refused, or the name finds a template and the count is admitted. -/
theorem refuses_or_admitted (r : Registry) (name : String) (count : UInt64) :
    (∃ fault, r.Refuses name count fault) ∨ ((∃ t, r.Finds name t) ∧ Admitted count) := by
  by_cases found : ∃ t, r.Finds name t
  case neg => exact .inl ⟨_, .unknown (not_exists.1 found)⟩
  by_cases idle : count = 0
  case pos => exact .inl ⟨_, .zero found idle⟩
  by_cases above : countLimit < count
  case pos => exact .inl ⟨_, .tooLarge found above⟩
  exact .inr ⟨found, idle, UInt64.not_lt.1 above⟩

/-- A known name and an admitted count give a source. -/
theorem exists_generate_of_admitted (found : r.Finds name t) (admitted : Admitted count) :
    ∃ text, r.generate name count abi = .ok text := by
  rw [generate_of_admitted found admitted]
  exact Program.exists_source_of_admitted admitted

/-- Generation fails exactly with the fault for which the request is refused. -/
theorem generate_eq_error_iff {fault : Fault} :
    r.generate name count abi = .error fault ↔ r.Refuses name count fault := by
  refine ⟨fun failed => ?_, generate_of_refuses⟩
  rcases r.refuses_or_admitted name count with ⟨other, refused⟩ | ⟨⟨t, found⟩, admitted⟩
  · obtain rfl := Except.error.inj ((generate_of_refuses refused).symm.trans failed)
    exact refused
  · rw [generate_of_admitted found admitted] at failed
    obtain ⟨text, done⟩ := Program.exists_source_of_admitted (p := ⟨t, count, abi⟩) admitted
    rw [done] at failed
    cases failed

/-- A source that a registry gives is the source of the template that the name finds. -/
theorem generate_eq_ok_iff {text : String} :
    r.generate name count abi = .ok text ↔
      ∃ t, r.Finds name t ∧ Admitted count ∧ Program.source ⟨t, count, abi⟩ = .ok text := by
  constructor
  · intro done
    rcases r.refuses_or_admitted name count with ⟨fault, refused⟩ | ⟨⟨t, found⟩, admitted⟩
    · rw [generate_of_refuses refused] at done
      cases done
    · exact ⟨t, found, admitted, (generate_of_admitted found admitted).symm.trans done⟩
  · rintro ⟨t, found, admitted, done⟩
    exact (generate_of_admitted found admitted).trans done

/-- Generation succeeds exactly for a name that is found and a count that is admitted. -/
theorem exists_generate_iff :
    (∃ text, r.generate name count abi = .ok text) ↔ (∃ t, r.lookup name = .ok t) ∧ Admitted count := by
  constructor
  · rintro ⟨text, done⟩
    obtain ⟨t, found, admitted, -⟩ := generate_eq_ok_iff.1 done
    exact ⟨⟨t, lookup_of_finds found⟩, admitted⟩
  · rintro ⟨⟨t, found⟩, admitted⟩
    exact exists_generate_of_admitted (lookup_eq_ok_iff.1 found) admitted

/-- A list of names selects templates exactly where every name is some
    template's up to ASCII case; else the first one that is not is reported as it stands. The selection holds what
    the names call, once each and in the order of the first calls, or everything where there are no names. It finds
    a name exactly where the name calls a template that it holds, and it gives a source exactly where it finds the
    name and the count is admitted; what it refuses is refused for its name before its count, and for nothing else. -/
theorem registry_follows_names (names : List String) :
    ((∃ r, select names = .ok r) ↔ ∀ name ∈ names, Known name) ∧
    (∀ fault, select names = .error fault ↔
      ∃ name, FirstUnknown names name ∧ fault = .unknownTemplate name) ∧
    ∀ r, select names = .ok r → Selected names r ∧ ∀ name,
      (∀ t, r.lookup name = .ok t ↔ r.Finds name t) ∧
      (∀ fault, r.lookup name = .error fault ↔
        (∀ t, ¬ r.Finds name t) ∧ fault = .unknownTemplate name) ∧
      ∀ count abi,
        ((∃ text, r.generate name count abi = .ok text) ↔
          (∃ t, r.lookup name = .ok t) ∧ Admitted count) ∧
        (∀ text, r.generate name count abi = .ok text ↔
          ∃ t, r.Finds name t ∧ Admitted count ∧ Program.source ⟨t, count, abi⟩ = .ok text) ∧
        ∀ fault, r.generate name count abi = .error fault ↔ r.Refuses name count fault := by
  refine ⟨exists_select_iff, fun _ => select_eq_error_iff, fun r done => ⟨selected_of_select done, ?_⟩⟩
  intro name
  refine ⟨fun _ => lookup_eq_ok_iff, fun _ => lookup_eq_error_iff, ?_⟩
  intro count abi
  exact ⟨exists_generate_iff, fun _ => generate_eq_ok_iff, fun _ => generate_eq_error_iff⟩

/-- A selection with a name in capitals and a name twice. Its first name is found in any case; a template that
    it leaves out is not, whatever the count. -/
theorem registry_follows_names_twice :
    let names := ["branch", "ARITHMETIC", "branch"]
    let r : Registry := ⟨[.branch, .arithmetic]⟩
    select names = .ok r ∧ Selected names r ∧
      (∃ text, r.generate "Branch" countLimit .linux = .ok text) ∧
      r.generate "Branch" (countLimit + 1) .linux = .error (.countTooLarge (countLimit + 1) countLimit) ∧
      r.generate "dependency" 0 .linux = .error (.unknownTemplate "dependency") := by
  intro names r
  have done : select names = .ok r := rfl
  obtain ⟨-, -, answers⟩ := registry_follows_names names
  obtain ⟨selected, answers⟩ := answers r done
  refine ⟨done, selected, ?_, ?_, ?_⟩
  · obtain ⟨-, -, sources⟩ := answers "Branch"
    exact (sources countLimit .linux).1.2 ⟨⟨.branch, rfl⟩, by decide⟩
  · obtain ⟨found, -, sources⟩ := answers "Branch"
    exact ((sources (countLimit + 1) .linux).2.2 _).2
      (.tooLarge ⟨.branch, (found .branch).1 rfl⟩ (by decide))
  · obtain ⟨-, missed, sources⟩ := answers "dependency"
    exact ((sources 0 .linux).2.2 _).2 (.unknown ((missed _).1 rfl).1)

end Registry

end CycleCost
