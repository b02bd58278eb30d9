/-
Module: CycleCost.Proofs.Path
Purpose: What a path is, is said by its components: its names without those that lead nowhere, the empty ones and the
  single dots. The directory of a path has its components but the last one, and joining puts the names of a
  relative path behind them. The directory is the empty text, and joining to it adds nothing, exactly when the
  path is a bare name.
Main exports: Path.IsBare, Path.components, Path.Trims, Path.parent_of_name, Path.names_join, Path.isBare_join,
  Path.join_inj
-/
import CycleCost.Path
import CycleCost.Proofs.Text.Lines
import Mathlib.Data.List.Basic

namespace CycleCost.Path

open Text

/-- A path without a separator. -/
def IsBare (p : String) : Prop := '/' ∉ p.toList

instance (p : String) : Decidable (IsBare p) := inferInstanceAs (Decidable ('/' ∉ p.toList))

/-! ### Components -/

/-- Whether a name leads anywhere. -/
def leads (name : List Char) : Bool := !decide (name = [] ∨ name = ['.'])

theorem leads_eq_false_iff {name : List Char} : leads name = false ↔ name = [] ∨ name = ['.'] := by
  rw [leads, Bool.not_eq_false', decide_eq_true_iff]

/-- The names of a path that lead somewhere. -/
def components (text : List Char) : List (List Char) := (split '/' text).filter leads

variable {text name front : List Char}

/-- A separator parts the components of a path. -/
theorem components_append (before behind : List Char) :
    components (before ++ '/' :: behind) = components before ++ components behind := by
  rw [components, split_append_separator, List.filter_append]
  rfl

@[simp] theorem components_nil : components [] = [] := rfl

@[simp] theorem components_cons (text : List Char) : components ('/' :: text) = components text :=
  components_append [] text

theorem components_of_idle (idle : leads name = false) : components name = [] := by
  obtain rfl | rfl := leads_eq_false_iff.1 idle <;> rfl

theorem components_dot (opened : text = [] ∨ ∃ more, text = '/' :: more) :
    components ('.' :: text) = components text := by
  obtain rfl | ⟨more, rfl⟩ := opened
  · rfl
  · rw [components_cons]
    exact components_append ['.'] more

/-- What stands in front of a last name: nothing, or a text that ends in a separator. -/
def Leading (front : List Char) : Prop := front = [] ∨ ∃ before, front = before ++ ['/']

theorem components_dropLast (leading : Leading front) : components front.dropLast = components front := by
  obtain rfl | ⟨before, rfl⟩ := leading
  · rfl
  · rw [List.dropLast_concat, components_append, components_nil, List.append_nil]

theorem names_ne_nil (p : String) : names p ≠ [] :=
  fun empty => (fields_split '/' p.toList).present (List.map_eq_nil_iff.1 empty)

theorem isAbsolute_of_isBare {p : String} (bare : IsBare p) : isAbsolute p = false :=
  beq_eq_false_iff_ne.2 fun first => bare (List.mem_of_head? first)

theorem names_of_isBare {p : String} (bare : IsBare p) : names p = [p] := by
  rw [names, fields, split_of_not_mem bare, List.map_singleton, String.ofList_toList]

/-- The names of a path behind a front come behind names with the components of the front. -/
theorem names_of_leading {p rest : String} (leading : Leading front) (shape : p.toList = front ++ rest.toList) :
    ∃ before, names p = before ++ names rest ∧
      before.filter (leads ·.toList) = (components front).map String.ofList := by
  rw [names, fields, shape]
  obtain rfl | ⟨before, rfl⟩ := leading
  · exact ⟨[], rfl, rfl⟩
  · refine ⟨(split '/' before).map String.ofList, ?_, ?_⟩
    · rw [List.append_assoc, List.singleton_append, split_append_separator, List.map_append]
      rfl
    · rw [components_append, components_nil, List.append_nil, List.filter_map]
      simp [components, Function.comp_def]

/-- Every path is a name behind a front. -/
theorem exists_name (p : String) : ∃ front name, p.toList = front ++ name.toList ∧ Leading front ∧ IsBare name := by
  suffices cut : ∀ text : List Char, ∃ front name, text = front ++ name ∧ Leading front ∧ '/' ∉ name by
    obtain ⟨front, name, shape, leading, free⟩ := cut p.toList
    rw [← String.toList_ofList (l := name)] at shape free
    exact ⟨front, String.ofList name, shape, leading, free⟩
  intro text
  induction text using cutInduction '/' with
  | free part free => exact ⟨[], part, rfl, .inl rfl, free⟩
  | cut part rest _ ih =>
    obtain ⟨front, name, rfl, leading, free⟩ := ih
    refine ⟨part ++ '/' :: front, name, by simp, .inr ?_, free⟩
    obtain rfl | ⟨before, rfl⟩ := leading
    · exact ⟨part, rfl⟩
    · exact ⟨part ++ '/' :: before, by simp⟩

/-! ### Trimming -/

/-- What may be left of a path when names that lead nowhere are cut off its end. -/
inductive Trims : List Char → List Char → Prop where
  | kept {text : List Char} : Trims text text
  | lost {name : List Char} (idle : leads name = false) : Trims name []
  | shorter {rest name left : List Char} (idle : leads name = false) : Trims rest left →
      Trims (rest ++ '/' :: name) left

/-- Cutting at the end only cuts names that lead nowhere. -/
theorem trims_trimBackwards (reversed : List Char) : Trims reversed.reverse (trimBackwards reversed).reverse := by
  have idle {name : List Char} (nowhere : name = [] ∨ name = ['.']) : leads name.reverse = false := by
    obtain rfl | rfl := nowhere <;> rfl
  fun_induction trimBackwards reversed with
  | case1 reversed last nowhere out =>
    have whole : last = reversed := by
      rw [← List.takeWhile_append_dropWhile (p := (· ≠ '/')) (l := reversed), out, List.append_nil]
    rw [← whole]
    exact .lost (idle nowhere)
  | case2 reversed last nowhere c rest out _ ih =>
    have separator : c = '/' := by
      have stop := List.head?_dropWhile_not (· ≠ '/') reversed
      rw [out] at stop
      simpa using stop
    have whole : last ++ '/' :: rest = reversed := by
      rw [← separator, ← out, List.takeWhile_append_dropWhile]
    rw [← whole, List.reverse_append, List.reverse_cons, List.append_assoc]
    exact .shorter (idle nowhere) ih
  | case3 => exact .kept

namespace Trims

variable {left : List Char}

/-- Names that lead nowhere can be cut off without a change of the components. -/
theorem components_eq (trims : Trims text left) : components left = components text := by
  induction trims with
  | kept => rfl
  | lost idle => exact (components_of_idle idle).symm
  | shorter idle _ ih => rw [ih, components_append, components_of_idle idle, List.append_nil]

theorem begins (trims : Trims text left) : left <+: text := by
  induction trims with
  | kept => exact List.prefix_rfl
  | lost => exact List.nil_prefix
  | shorter _ _ ih => exact ih.trans (List.prefix_append _ _)

/-- Nothing is left only of a path that starts at the root or with a dot, as far as more follows. -/
theorem anchored (trims : Trims text left) (nothing : left = []) (more : List Char) :
    anchor (text ++ '/' :: more) ≠ [] := by
  induction trims generalizing more with
  | kept => subst nothing; exact List.cons_ne_nil _ _
  | lost idle => obtain rfl | rfl := leads_eq_false_iff.1 idle <;> exact List.cons_ne_nil _ _
  | shorter _ _ ih => rw [List.append_assoc]; exact ih nothing _

end Trims

/-! ### Directories -/

/-- What is left of the text in front of a last name. -/
def trimmed (front : List Char) : List Char := (trimBackwards front.dropLast.reverse).reverse

theorem trims_trimmed (front : List Char) : Trims front.dropLast (trimmed front) := by
  have trims := trims_trimBackwards front.dropLast.reverse
  rwa [List.reverse_reverse] at trims

theorem components_trimmed (leading : Leading front) : components (trimmed front) = components front :=
  (trims_trimmed front).components_eq.trans (components_dropLast leading)

theorem trimmed_begins (front : List Char) : trimmed front <+: front :=
  (trims_trimmed front).begins.trans (List.dropLast_prefix front)

/-- What is in front of the last name is trimmed, and the anchor stays. -/
theorem parent_eq {p : String} (leading : Leading front) (free : '/' ∉ name) (named : leads name = true)
    (shape : p.toList = anchor p.toList ++ (front ++ name)) :
    parent p = some (String.ofList (anchor p.toList ++ trimmed front)) := by
  have named : ¬ (name.reverse = [] ∨ name.reverse = ['.']) := by
    rintro (empty | dot)
    · rw [List.reverse_eq_nil_iff.1 empty] at named; cases named
    · rw [← List.reverse_reverse name, dot] at named; cases named
  have taken : (front ++ name).reverse.takeWhile (· ≠ '/') = name.reverse ∧
      (front ++ name).reverse.dropWhile (· ≠ '/') = front.reverse := by
    have kept : ∀ c ∈ name.reverse, decide (c ≠ '/') = true := fun c member =>
      decide_eq_true fun separator => free (separator ▸ List.mem_reverse.1 member)
    rw [List.reverse_append, List.takeWhile_append_of_pos kept, List.dropWhile_append_of_pos kept]
    obtain rfl | ⟨before, rfl⟩ := leading <;> simp
  have behind : front.reverse.drop 1 = front.dropLast.reverse := by simp
  have rest : p.toList.drop (anchor p.toList).length = front ++ name :=
    (congrArg (List.drop _) shape).trans List.drop_left
  have whole : trimBackwards (front ++ name).reverse = (front ++ name).reverse := by
    rw [trimBackwards, taken.1]
    exact if_neg named
  have present : (front ++ name).reverse.isEmpty = false := by
    rw [List.isEmpty_eq_false_iff]
    exact fun empty => named (.inl (by simpa using (List.append_eq_nil_iff.1 (List.reverse_eq_nil_iff.1 empty)).2))
  rw [parent, rest, whole]
  simp only [present, taken.2, behind]
  rfl

theorem Leading.tail {c : Char} {rest : List Char} (leading : Leading (c :: rest)) : Leading rest := by
  obtain empty | ⟨_ | ⟨d, before⟩, shape⟩ := leading
  · cases empty
  · cases shape; exact .inl rfl
  · cases shape; exact .inr ⟨before, rfl⟩

/-- How a path begins whose last name leads somewhere: with nothing that counts as its anchor, at the root, or with a
    dot that something follows. -/
theorem anchor_cases (leading : Leading front) (free : '/' ∉ name) (named : leads name = true) :
    (anchor (front ++ name) = [] ∧ (front ++ name).head? ≠ some '/') ∨
    (∃ rest, front = '/' :: rest ∧ Leading rest) ∨ ∃ rest, front = '.' :: '/' :: rest ∧ Leading ('/' :: rest) := by
  cases front with
  | nil =>
    refine .inl ⟨?_, fun first => free (List.mem_of_head? first)⟩
    rw [List.nil_append]
    unfold anchor
    split
    · exact absurd List.mem_cons_self free
    · cases named
    · exact absurd (List.mem_cons_of_mem _ List.mem_cons_self) free
    · rfl
  | cons c rest =>
    by_cases root : c = '/'
    · exact .inr (.inl ⟨rest, by rw [root], leading.tail⟩)
    by_cases dot : ∃ more, c = '.' ∧ rest = '/' :: more
    · obtain ⟨more, rfl, rfl⟩ := dot
      exact .inr (.inr ⟨more, rfl, leading.tail⟩)
    refine .inl ⟨?_, fun first => root (Option.some.inj first)⟩
    have present : rest ≠ [] := by
      rintro rfl
      obtain empty | ⟨before, shape⟩ := leading
      · cases empty
      · exact root (List.mem_singleton.1 (shape ▸ List.mem_append_right before List.mem_cons_self)).symm
    obtain ⟨d, more, rfl⟩ := List.exists_cons_of_ne_nil present
    rw [List.cons_append, List.cons_append]
    unfold anchor
    split
    next begins => exact absurd (List.cons.inj begins).1 root
    next begins => cases (List.cons.inj begins).2
    next begins =>
      obtain ⟨rfl, follows⟩ := List.cons.inj begins
      obtain ⟨rfl, -⟩ := List.cons.inj follows
      exact absurd ⟨more, rfl, rfl⟩ dot
    next => rfl

/-- The directory of a path that ends in a name has the components in front of the name. It starts where the path
    starts, and it is the empty text only when nothing is in front of the name. -/
theorem parent_of_name {p : String} (leading : Leading front) (free : '/' ∉ name) (named : leads name = true)
    (shape : p.toList = front ++ name) :
    ∃ base, parent p = some base ∧ components base.toList = components front ∧ isAbsolute base = isAbsolute p ∧
      (base = "" ↔ front = []) := by
  obtain ⟨anchorless, relative⟩ | ⟨rest, rfl, leading'⟩ | ⟨rest, rfl, leading'⟩ := anchor_cases leading free named
  -- Without an anchor the directory is what trimming leaves, and something is left where something leads.
  · have start : anchor p.toList = [] := by rw [shape, anchorless]
    refine ⟨_, parent_eq leading free named (by rw [start, shape]; rfl), ?_, ?_, ?_⟩
    · rw [start, List.nil_append, String.toList_ofList, components_trimmed leading]
    · obtain ⟨more, whole⟩ := trimmed_begins front
      have same : (trimmed front).head? ≠ some '/' := by
        intro first
        rw [← whole, List.append_assoc, List.head?_append, first] at relative
        exact relative rfl
      rw [isAbsolute, isAbsolute, start, shape, String.toList_ofList, List.nil_append, beq_eq_false_iff_ne.2 same,
        beq_eq_false_iff_ne.2 relative]
    · rw [start, List.nil_append, String.ofList_eq_empty_iff]
      constructor
      · intro nothing
        obtain rfl | ⟨before, rfl⟩ := leading
        · rfl
        · have trims := trims_trimmed (before ++ ['/'])
          rw [List.dropLast_concat] at trims
          rw [List.append_assoc] at anchorless
          exact absurd anchorless (trims.anchored nothing name)
      · rintro rfl
        exact List.prefix_nil.1 (trimmed_begins [])
  -- The root stays in front of what is left behind it.
  · have start : anchor p.toList = ['/'] := by rw [shape]; rfl
    refine ⟨_, parent_eq leading' free named (by rw [start, shape]; rfl), ?_, ?_, ?_⟩
    · rw [start, List.singleton_append, String.toList_ofList, components_cons, components_cons,
        components_trimmed leading']
    · rw [isAbsolute, isAbsolute, start, shape, String.toList_ofList]; rfl
    · simp [start]
  -- So does the dot, which is no component.
  · have start : anchor p.toList = ['.'] := by rw [shape]; rfl
    refine ⟨_, parent_eq leading' free named (by rw [start, shape]; rfl), ?_, ?_, ?_⟩
    · have opened : trimmed ('/' :: rest) = [] ∨ ∃ more, trimmed ('/' :: rest) = '/' :: more :=
        (List.prefix_cons_iff.1 (trimmed_begins ('/' :: rest))).imp_right fun ⟨more, same, _⟩ => ⟨more, same⟩
      rw [start, List.singleton_append, String.toList_ofList, components_dot opened, components_trimmed leading',
        components_dot (.inr ⟨rest, rfl⟩)]
    · rw [isAbsolute, isAbsolute, start, shape, String.toList_ofList]; rfl
    · simp [start]

/-! ### Joining -/

/-- Every relative path stands behind the base, which ends in a separator then if it is not empty. -/
theorem exists_front (base : String) :
    ∃ front, (∀ e, isAbsolute e = false → (join base e).toList = front ++ e.toList) ∧ Leading front ∧
      components front = components base.toList ∧ front.head? = base.toList.head? := by
  obtain empty | ⟨before, c, shape⟩ := List.eq_nil_or_concat' base.toList
  · refine ⟨[], fun e relative => ?_, .inl rfl, by rw [empty], by rw [empty]⟩
    simp [join, relative, empty]
  by_cases closed : c = '/'
  · subst closed
    refine ⟨base.toList, fun e relative => ?_, .inr ⟨before, shape⟩, rfl, rfl⟩
    simp [join, relative, shape]
  · refine ⟨base.toList ++ ['/'], fun e relative => ?_, .inr ⟨_, rfl⟩, ?_, ?_⟩
    · simp [join, relative, shape]
    · rw [components_append, components_nil, List.append_nil]
    · rw [shape]; simp

/-- A relative path joined to a base is absolute when the base is. -/
theorem isAbsolute_join (base : String) {e : String} (relative : isAbsolute e = false) :
    isAbsolute (join base e) = isAbsolute base := by
  obtain ⟨front, shape, -, -, first⟩ := exists_front base
  rw [isAbsolute, isAbsolute, shape e relative, ← first]
  cases front with
  | nil => exact relative
  | cons c rest => rfl

/-- A joined path is a bare name only if there is nothing in front of it. -/
theorem isBare_join (base : String) {e : String} (relative : isAbsolute e = false) :
    IsBare (join base e) ↔ base = "" ∧ IsBare e := by
  obtain ⟨front, shape, leading, -, first⟩ := exists_front base
  have empty : base = "" ↔ front = [] := by
    rw [← String.toList_eq_nil_iff, ← List.head?_eq_none_iff, ← first, List.head?_eq_none_iff]
  rw [IsBare, IsBare, shape e relative, empty]
  obtain rfl | ⟨before, rfl⟩ := leading <;> simp

theorem join_ne_empty (base : String) {e : String} (relative : isAbsolute e = false) (present : e ≠ "") :
    join base e ≠ "" := by
  obtain ⟨front, shape, -⟩ := exists_front base
  intro empty
  have whole := shape e relative
  rw [empty] at whole
  exact present (String.toList_eq_nil_iff.1 (List.append_eq_nil_iff.1 whole.symm).2)

/-- Joining puts the names of a relative path behind names with the components of the directory. -/
theorem names_join (base : String) {e : String} (relative : isAbsolute e = false) :
    ∃ before, names (join base e) = before ++ names e ∧
      before.filter (leads ·.toList) = (components base.toList).map String.ofList := by
  obtain ⟨front, shape, leading, same, -⟩ := exists_front base
  rw [← same]
  exact names_of_leading leading (shape e relative)

/-- A joined path ends as it was written. -/
theorem suffix_join (base e : String) : e.toList <:+ (join base e).toList := by
  cases relative : isAbsolute e with
  | true => exact ⟨[], congrArg String.toList (if_pos relative).symm⟩
  | false =>
    obtain ⟨front, shape, -⟩ := exists_front base
    exact ⟨front, (shape e relative).symm⟩

/-- Joining tells paths apart that are alike in whether they start at the root. -/
theorem join_inj (base : String) {e e' : String} (alike : isAbsolute e = isAbsolute e') :
    join base e = join base e' ↔ e = e' := by
  cases relative : isAbsolute e with
  | true => rw [join, join, if_pos relative, if_pos (alike ▸ relative)]
  | false =>
    obtain ⟨front, shape, -⟩ := exists_front base
    rw [← String.toList_inj, shape e relative, shape e' (alike ▸ relative), List.append_right_inj, String.toList_inj]

end CycleCost.Path
