/-
Module: CycleCost.Proofs.Host.Tree
Purpose: Where paths lead on a host. Names that lead nowhere may be left out in front of others, so what counts of a
  path are its components. A relative path that is joined to the directory of a file's path leads where it leads
  from the directory in which the file stands. Ordinary names below one path lead to different places.
Main exports: Tree.Stands, Tree.walk_append, Tree.walk_filter, Tree.locate_join, Tree.Ordinary, Tree.eq_of_locate_join
-/
import CycleCost.Host.Tree
import CycleCost.Proofs.Path

namespace CycleCost.Host.Tree

open CycleCost.Path Text

variable {t : Tree} {p q : Place}

theorem checkDirectory_eq_ok_iff : t.checkDirectory p = .ok () ↔ t.node? p = some .directory := by
  rw [checkDirectory]
  split <;> simp_all

/-! ### Walks -/

theorem walk_cons (name : String) (rest : List String) :
    t.walk p (name :: rest) = (t.checkDirectory p).bind fun _ => t.walk (follow p name) rest := rfl

/-- A walk over names in two parts is one walk after the other. -/
theorem walk_append (front behind : List String) :
    t.walk p (front ++ behind) = (t.walk p front).bind fun q => t.walk q behind := by
  induction front generalizing p with
  | nil => rfl
  | cons name rest ih =>
    rw [List.cons_append, walk_cons, walk_cons]
    cases t.checkDirectory p with
    | error trouble => rfl
    | ok => exact ih

/-- A walk of at least one name begins with a look at where it starts. -/
theorem checkDirectory_walk {names : List String} (present : names ≠ []) :
    ((t.checkDirectory p).bind fun _ => t.walk p names) = t.walk p names := by
  obtain ⟨name, rest, rfl⟩ := List.exists_cons_of_ne_nil present
  rw [walk_cons]
  cases t.checkDirectory p <;> rfl

theorem follow_of_idle {name : String} (idle : leads name.toList = false) : follow p name = p :=
  if_pos ((leads_eq_false_iff.1 idle).imp String.toList_eq_nil_iff.1 fun dot => String.toList_inj.1 dot)

/-- Two dots lead to the directory above, any other name to what it names. -/
theorem follow_of_leads {name : String} (on : leads name.toList = true) :
    follow p name = if name = ".." then p.dropLast else p ++ [name] := by
  refine if_neg fun idle => ?_
  rw [leads_eq_false_iff.2 (idle.imp (fun empty => by rw [empty]; rfl) fun dot => by rw [dot]; rfl)] at on
  cases on

/-- Names that lead nowhere may be left out in front of others. -/
theorem walk_filter (front : List String) {behind : List String} (present : behind ≠ []) :
    t.walk p (front.filter (leads ·.toList) ++ behind) = t.walk p (front ++ behind) := by
  induction front generalizing p with
  | nil => rfl
  | cons name rest ih =>
    cases kept : leads name.toList with
    | true =>
      rw [List.filter_cons, if_pos kept, List.cons_append, List.cons_append, walk_cons, walk_cons]
      exact congrArg _ (funext fun _ => ih)
    | false =>
      -- The name only looks at the directory, and so does the name behind it.
      rw [List.filter_cons, if_neg (by simp [kept]), List.cons_append, walk_cons, follow_of_idle kept, ih,
        checkDirectory_walk (List.append_ne_nil_of_right_ne_nil _ present)]

/-! ### Standing places -/

/-- A place that stands in the tree: it is a directory, and so is everything above it. -/
def Stands (t : Tree) (p : Place) : Prop := ∀ q, q <+: p → t.node? q = some .directory

/-- A place above which there are directories only. -/
def Reached (t : Tree) (p : Place) : Prop := ∀ q, q <+: p → q ≠ p → t.node? q = some .directory

theorem Stands.reached (stands : t.Stands p) : t.Reached p := fun q above _ => stands q above

/-- A place that was reached and is a directory stands. -/
theorem Reached.stands (reached : t.Reached p) (directory : t.node? p = some .directory) : t.Stands p := by
  intro q above
  by_cases here : q = p
  · rw [here]; exact directory
  · exact reached q above here

theorem Stands.start (stands : t.Stands p) (path : String) : t.Stands (start p path) := by
  unfold Tree.start
  split
  · intro q above
    rw [List.prefix_nil.1 above]
    rfl
  · exact stands

/-- From a directory that stands every name leads to a place that is reached. -/
theorem Stands.follow (stands : t.Stands p) (name : String) : t.Reached (follow p name) := by
  unfold Tree.follow
  split
  · exact stands.reached
  · split
    · exact fun q above _ => stands q (above.trans (List.dropLast_prefix p))
    · intro q above other
      exact stands q ((List.prefix_concat_iff.1 above).resolve_left other)

/-- A walk passes through directories only. -/
theorem reached_of_walk {names : List String} (reached : t.Reached p) (walked : t.walk p names = .ok q) :
    t.Reached q := by
  induction names generalizing p with
  | nil => cases walked; exact reached
  | cons name rest ih =>
    rw [walk_cons] at walked
    cases check : t.checkDirectory p with
    | error trouble => rw [check] at walked; cases walked
    | ok =>
      rw [check] at walked
      exact ih ((reached.stands (checkDirectory_eq_ok_iff.1 check)).follow name) walked

/-! ### Paths -/

variable {d place : Place} {path : String}

/-- A path that is not empty is located by a walk over its names. -/
theorem locate_of_ne (present : path ≠ "") : t.locate d path = t.walk (start d path) (names path) :=
  if_neg (by simpa using present)

/-- The place of a file is in the directory to which the names in front of the last one lead, and the last name
    is that of the file. -/
theorem exists_name_of_locate (stands : t.Stands d) (located : t.locate d path = .ok place)
    (file : t.node? place ≠ some .directory) :
    ∃ front name before directory, path.toList = front ++ name.toList ∧ Leading front ∧ IsBare name ∧
      leads name.toList = true ∧ before.filter (leads ·.toList) = (components front).map String.ofList ∧
      t.walk (start d path) before = .ok directory ∧ place = directory ++ [name] := by
  have present : path ≠ "" := by
    rintro rfl
    cases located
  obtain ⟨front, name, shape, leading, bare⟩ := exists_name path
  obtain ⟨before, cut, same⟩ := names_of_leading leading shape
  rw [locate_of_ne present, cut, names_of_isBare bare, walk_append] at located
  cases walked : t.walk (start d path) before with
  | error trouble => rw [walked] at located; cases located
  | ok directory =>
    rw [walked] at located
    -- The walk to the directory is over, and one look and one name remain.
    have last : t.walk directory [name] = .ok place := located
    rw [walk_cons] at last
    cases check : t.checkDirectory directory with
    | error trouble => rw [check] at last; cases last
    | ok =>
      rw [check] at last
      have reached : place = follow directory name := (Except.ok.inj last).symm
      have inside := (reached_of_walk (stands.start path).reached walked).stands (checkDirectory_eq_ok_iff.1 check)
      cases named : leads name.toList with
      | false =>
        rw [follow_of_idle named] at reached
        exact absurd (inside place (reached ▸ List.prefix_rfl)) file
      | true =>
        rw [follow_of_leads named] at reached
        -- Two dots lead to a directory again, so the last name of a file is an ordinary one.
        split at reached
        · exact absurd (inside place (reached ▸ List.dropLast_prefix directory)) file
        · exact ⟨front, name, before, directory, shape, leading, bare, named, same, walked, reached⟩

/-- What a relative path means beside a file: joined to the directory of the file's path, it leads where it leads from
    the directory in which the file stands. The directory of the path is the empty text for a bare name only. -/
theorem locate_join (stands : t.Stands d) (located : t.locate d path = .ok place)
    (file : t.node? place ≠ some .directory) :
    ∃ base directory name, parent path = some base ∧ (base = "" ↔ IsBare path) ∧ place = directory ++ [name] ∧
      ∀ e, isAbsolute e = false → e ≠ "" → t.locate d (join base e) = t.locate directory e := by
  obtain ⟨front, name, before, directory, shape, leading, bare, named, same, walked, rfl⟩ :=
    exists_name_of_locate stands located file
  obtain ⟨base, known, parts, absolute, empty⟩ := parent_of_name leading bare named shape
  refine ⟨base, directory, _, known, ?_, rfl, ?_⟩
  · rw [empty, IsBare, shape]
    obtain rfl | ⟨more, rfl⟩ := leading
    · exact iff_of_true rfl bare
    · simp
  · intro e relative present
    obtain ⟨before', joined, same'⟩ := names_join base relative
    have named : names e ≠ [] := names_ne_nil e
    have origin : start d (join base e) = start d path := by
      rw [start, start, isAbsolute_join base relative, absolute]
    have beside : start directory e = directory := by rw [start, relative]; rfl
    calc t.locate d (join base e)
      _ = t.walk (start d path) (before' ++ names e) := by
        rw [locate_of_ne (join_ne_empty base relative present), origin, joined]
      _ = t.walk (start d path) (before ++ names e) := by
        rw [← walk_filter _ named, same', parts, ← same, walk_filter _ named]
      _ = t.walk directory (names e) := by
        rw [walk_append, walked]
        rfl
      _ = t.locate directory e := by rw [locate_of_ne present, beside]

/-! ### Names below a directory -/

/-- A name of something in a directory: it has no separator, and it leads on and not back. -/
structure Ordinary (e : String) : Prop where
  bare : IsBare e
  leadsOn : leads e.toList = true
  onwards : e ≠ ".."

/-- A name that holds more than dots leads on. -/
theorem Ordinary.of_mem {e : String} {c : Char} (bare : IsBare e) (member : c ∈ e.toList) (other : c ≠ '.') :
    Ordinary e := by
  refine ⟨bare, ?_, ?_⟩
  · cases on : leads e.toList with
    | true => rfl
    | false =>
      obtain nothing | dot := leads_eq_false_iff.1 on
      · exact absurd nothing (List.ne_nil_of_mem member)
      · rw [dot] at member
        exact absurd (List.mem_singleton.1 member) other
  · rintro rfl
    exact other (List.eq_of_mem_replicate (n := 2) member)

/-- The directory to which a path leads; the empty path stays where it starts. -/
def entered (t : Tree) (d : Place) (base : String) : Except Trouble Place :=
  (t.walk (start d base) ((components base.toList).map String.ofList)).bind fun q =>
    (t.checkDirectory q).map fun _ => q

/-- An ordinary name that is joined to a path names a place in the directory to which the path leads. -/
theorem locate_join_of_ordinary (base : String) {e : String} (ordinary : Ordinary e) :
    t.locate d (join base e) = (t.entered d base).map (· ++ [e]) := by
  have relative := isAbsolute_of_isBare ordinary.bare
  have present : e ≠ "" := by
    rintro rfl
    cases ordinary.leadsOn
  obtain ⟨before, cut, same⟩ := names_join base relative
  have origin : start d (join base e) = start d base := by rw [start, start, isAbsolute_join base relative]
  rw [locate_of_ne (join_ne_empty base relative present), origin, cut, names_of_isBare ordinary.bare,
    ← walk_filter before (List.cons_ne_nil _ _), same, walk_append, entered]
  cases t.walk (start d base) ((components base.toList).map String.ofList) with
  | error trouble => rfl
  | ok q =>
    change t.walk q [e] = ((t.checkDirectory q).map fun _ => q).map (· ++ [e])
    rw [walk_cons, follow_of_leads ordinary.leadsOn, if_neg ordinary.onwards]
    cases t.checkDirectory q <;> rfl

/-- Ordinary names below one path are told apart by the places to which they lead. -/
theorem eq_of_locate_join {base e e' : String} (ordinary : Ordinary e) (ordinary' : Ordinary e')
    (located : t.locate d (join base e) = .ok place) (located' : t.locate d (join base e') = .ok place) : e = e' := by
  rw [locate_join_of_ordinary base ordinary] at located
  rw [locate_join_of_ordinary base ordinary'] at located'
  cases inside : t.entered d base with
  | error trouble => rw [inside] at located; cases located
  | ok q =>
    rw [inside] at located located'
    have same : q ++ [e] = q ++ [e'] := (Except.ok.inj located).trans (Except.ok.inj located').symm
    exact List.singleton_inj.1 (List.append_cancel_left same)

end CycleCost.Host.Tree
