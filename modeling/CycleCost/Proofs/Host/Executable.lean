/-
Module: CycleCost.Proofs.Host.Executable
Purpose: What the runner starts for the executables of a manifest. A relative executable is taken below the
  directory of the manifest's path, and what it denotes there is what it denotes beside the manifest. It is
  started as a path unless the manifest's path and the executable are both bare names: then it stays a bare name,
  and the runner looks for it in the search path and not beside the manifest.
Main exports: World.Runs, World.Searches, FixedWorkload.Placed, FixedManifest.executables_run_beside_manifest,
  FixedManifest.bare_executable_is_missed
-/
import CycleCost.Host.Bench
import CycleCost.Manifest.File
import CycleCost.Proofs.Calibration.Estimate
import CycleCost.Proofs.Host.Tree
import Mathlib.Data.List.Forall2

namespace CycleCost

open Document Host

namespace Host.World

variable {w : World} {program path text : String} {directory : Place}

/-- The runner starts what stands at a path, seen from a directory. -/
def Runs (w : World) (program : String) (directory : Place) (path : String) : Prop :=
  ∀ limit, w.prepare (quietly program) limit = (Shell.runnableAt w.tree directory false path).map fun runnable =>
    (w.firstShell (quietly program) w.directory limit, program, runnable)

/-- The runner looks for a program in the directories of the search path. -/
def Searches (w : World) (program : String) : Prop :=
  ∀ limit, w.prepare (quietly program) limit =
    let places := Text.fields ':' ((w.environment.lookup "PATH").getD "")
    (Shell.search w.tree w.directory false program places .missing).map fun found =>
      (w.firstShell (quietly program) w.directory limit, found)

theorem file_of_contents (readable : w.contents path = .ok text) :
    ∃ place, w.tree.locate w.directory path = .ok place ∧ w.tree.node? place ≠ some .directory := by
  cases located : w.tree.locate w.directory path with
  | error trouble =>
    have unread : w.bytesAt path = .error (.inputOutput trouble.message) := by
      rw [bytesAt, Tree.find, located]
      rfl
    rw [contents, unread] at readable
    cases readable
  | ok place =>
    refine ⟨place, rfl, fun directory => ?_⟩
    have unread : w.bytesAt path = .error (.inputOutput Trouble.isDirectory.message) := by
      rw [bytesAt, Tree.find, located]
      simp only [Except.bind, bind, directory, pure, Except.pure, Tree.read, fileResult]
    rw [contents, unread] at readable
    cases readable

/-- A program without arguments is prepared by resolving its name. -/
theorem prepare_quietly (stands : w.tree.Stands w.directory) (program : String) (limit : Duration) :
    w.prepare (quietly program) limit =
      (Shell.resolve (w.firstShell (quietly program) w.directory limit) false program).map fun found =>
        (w.firstShell (quietly program) w.directory limit, found) := by
  have checked := Tree.checkDirectory_eq_ok_iff.2 (stands _ List.prefix_rfl)
  have located : w.tree.locate w.directory "." = .ok w.directory := by
    rw [Tree.locate_of_ne (by decide)]
    change w.tree.walk w.directory ["."] = _
    rw [Tree.walk_cons, checked]
    rfl
  have here : w.tree.directoryAt w.directory "." = .ok w.directory := by
    rw [Tree.directoryAt, located]
    change (w.tree.checkDirectory w.directory).bind _ = _
    rw [checked]
    rfl
  rw [prepare, quietly, here]
  cases Shell.resolve (w.firstShell (quietly program) w.directory limit) false program <;> rfl

theorem runnableAt_of_locate {t : Tree} {d d' : Place} {path path' : String}
    (same : t.locate d path = t.locate d' path') (asScript : Bool) :
    Shell.runnableAt t d asScript path = Shell.runnableAt t d' asScript path' := by
  rw [Shell.runnableAt, Shell.runnableAt, Tree.find, Tree.find, same]

/-- A program with a separator in its name runs the file that its path leads to. -/
theorem runs_of_locate (stands : w.tree.Stands w.directory) (separated : ¬ Path.IsBare program)
    (same : w.tree.locate w.directory program = w.tree.locate directory path) : w.Runs program directory path := by
  intro limit
  have present : ¬ program.isEmpty := by
    rw [String.isEmpty_iff]
    rintro rfl
    exact separated List.not_mem_nil
  have path : program.toList.contains '/' := List.contains_iff_mem.2 (not_not.1 separated)
  rw [prepare_quietly stands, Shell.resolve, if_neg present, if_pos path, ← runnableAt_of_locate same]
  change Except.map _ (Except.map _ (Shell.runnableAt w.tree w.directory false program)) = _
  cases Shell.runnableAt w.tree w.directory false program <;> rfl

/-- A name without a separator is looked for in the search path. -/
theorem searches_of_isBare (stands : w.tree.Stands w.directory) (bare : Path.IsBare program) (present : program ≠ "") :
    w.Searches program := by
  intro limit
  have unseparated : ¬ program.toList.contains '/' := fun separated => bare (List.contains_iff_mem.1 separated)
  rw [prepare_quietly stands, Shell.resolve, if_neg (by simpa using present), if_neg unseparated]
  rfl

end Host.World

variable {α : Type}

/-- What becomes of a relative executable of a manifest at a path, in a directory of the host. -/
structure Beside (w : World) (path : String) (directory : Place) (given placed : String) : Prop where
  denotes : w.tree.locate w.directory placed = w.tree.locate directory given
  bare : Path.IsBare placed ↔ Path.IsBare path ∧ Path.IsBare given
  runs : ¬ Path.IsBare placed → w.Runs placed directory given
  searches : Path.IsBare placed → placed = given ∧ w.Searches placed

/-- What becomes of a workload of this manifest. -/
structure FixedWorkload.Placed (w : World) (path : String) (directory : Place) (given placed : FixedWorkload α) :
    Prop where
  others : placed = { given with executable := placed.executable }
  absolute : Path.isAbsolute given.executable → placed.executable = given.executable
  relative : Path.isAbsolute given.executable = false → given.executable ≠ "" →
    Beside w path directory given.executable placed.executable

namespace FixedManifest

variable {w : World} {path text : String}

/-- A manifest in a directory places its executables below that directory. -/
theorem resolve_of_parent {m : FixedManifest α} {base : String} (known : Path.parent path = some base) :
    (m.resolve path).workloads = m.workloads.map (placeBelow base) := by
  rw [resolve, known]

theorem placeBelow_of_relative (base : String) {given : FixedWorkload α}
    (relative : Path.isAbsolute given.executable = false) :
    placeBelow base given = { given with executable := Path.join base given.executable } :=
  if_neg (by rw [relative]; exact Bool.false_ne_true)

/-- The file of a manifest stands in a directory, and the workloads are placed there. -/
theorem placed_resolve (stands : w.tree.Stands w.directory) (readable : w.contents path = .ok text) :
    ∃ directory name, w.tree.locate w.directory path = .ok (directory ++ [name]) ∧ ∀ m : FixedManifest α,
      List.Forall₂ (FixedWorkload.Placed w path directory) m.workloads (m.resolve path).workloads := by
  obtain ⟨place, located, file⟩ := World.file_of_contents readable
  obtain ⟨base, directory, name, known, empty, rfl, denotes⟩ := Tree.locate_join stands located file
  refine ⟨directory, name, located, fun m => ?_⟩
  rw [resolve_of_parent known]
  refine List.forall₂_map_right_iff.2 (List.forall₂_same.2 fun given _ => ?_)
  cases absolute : Path.isAbsolute given.executable with
  | true =>
    rw [placeBelow, if_pos absolute]
    exact ⟨rfl, fun _ => rfl, fun relative => by cases absolute.symm.trans relative⟩
  | false =>
    rw [placeBelow_of_relative base absolute]
    refine ⟨rfl, fun other => (by cases absolute.symm.trans other), fun _ present => ?_⟩
    have bare := Path.isBare_join base absolute
    have same := denotes given.executable absolute present
    refine ⟨same, by rw [bare, empty], fun separated => World.runs_of_locate stands separated same, fun found => ?_⟩
    have unmoved : Path.join base given.executable = given.executable := by
      rw [(bare.1 found).1, Path.join, if_neg (by rw [absolute]; exact Bool.false_ne_true)]
      rfl
    rw [unmoved] at found ⊢
    exact ⟨rfl, World.searches_of_isBare stands found present⟩

/-- A manifest that can be read and is accepted is loaded with its executables in place. -/
theorem load_eq_ok {toml : Parser} {given : FixedManifest Float} (readable : w.contents path = .ok text)
    (accepted : ofText toml text = .ok given) : load toml w path = .ok (given.resolve path) := by
  rw [load, readable]
  change (ofText toml text).bind _ = _
  rw [accepted]
  rfl

/-- A manifest whose text is accepted is loaded, and each of its workloads keeps everything but a relative
    executable. Such an executable denotes, from where programs are started, what it denotes from the directory
    in which the manifest stands, and this is what the runner starts, unless both the path of the manifest and the
    executable are bare names. Then the executable stays this bare name, and the runner looks for it in the
    search path. -/
theorem executables_run_beside_manifest (toml : Parser) (stands : w.tree.Stands w.directory)
    (readable : w.contents path = .ok text) :
    ∃ directory name, w.tree.locate w.directory path = .ok (directory ++ [name]) ∧
      ∀ given, ofText toml text = .ok given → ∃ m, load toml w path = .ok m ∧
        List.Forall₂ (FixedWorkload.Placed w path directory) given.workloads m.workloads := by
  obtain ⟨directory, name, located, placed⟩ := placed_resolve stands readable
  exact ⟨directory, name, located, fun given accepted => ⟨_, load_eq_ok readable accepted, placed given⟩⟩

/-- A manifest of one workload, whose executable is a bare name. -/
def gemmText : String :=
  "[[workload]]\nname = \"gemm\"\ninstructions_per_iteration = 340\nexecutable = \"gemm\"\nexpected_cpi = 2\n"

/-- A host with this manifest and a program of the name beside it. -/
def workshop : World where
  tree := ⟨[(["home"], .directory), (["home", "m.toml"], .file (Script.utf8 gemmText) false),
    (["home", "gemm"], .file (Script.utf8 "#!/bin/sh\nexit 0\n") true)]⟩
  clock := ⟨0⟩
  launches := 0
  slots := []
  environment := [("PATH", "/usr/bin:/bin")]
  directory := ["home"]

theorem workshop_stands : workshop.tree.Stands workshop.directory := by
  intro q above
  obtain rfl | ⟨rest, rfl, inside⟩ := List.prefix_cons_iff.1 above
  · rfl
  · rw [List.prefix_nil.1 inside]
    rfl

theorem exists_gemm : ∃ m : FixedManifest Float, ofText Toml.parse gemmText = .ok m ∧
    ∃ given, m.workloads = [given] ∧ given.executable = "gemm" := by
  obtain ⟨m, accepted, read⟩ : ∃ m, ofText Toml.parse gemmText = .ok m ∧
      (m.workloads.map (·.executable) == ["gemm"]) = true := exists_accepted (by decide +kernel)
  exact ⟨m, accepted, List.map_eq_singleton_iff.1 (beq_iff_eq.1 read)⟩

/-- With a dot in front of it, the path of the manifest has a directory, and the program there is started. -/
theorem executables_run_beside_manifest_dotted : workshop.contents "./m.toml" = .ok gemmText ∧
    ∃ m, load Toml.parse workshop "./m.toml" = .ok m ∧ m.workloads.map (·.executable) = ["./gemm"] ∧
      workshop.Runs "./gemm" ["home"] "gemm" := by
  have readable : workshop.contents "./m.toml" = .ok gemmText := rfl
  obtain ⟨given, accepted, gemm, single, name⟩ := exists_gemm
  obtain ⟨directory, last, located, each⟩ :=
    executables_run_beside_manifest Toml.parse workshop_stands readable
  obtain ⟨m, loaded, placed⟩ := each given accepted
  have here : directory = ["home"] := by
    have place : directory ++ [last] = ["home"] ++ ["m.toml"] := (Except.ok.inj located).symm
    exact (List.append_inj' place rfl).1
  have known : Path.parent "./m.toml" = some "." := by decide +kernel
  have moved : m.workloads = [{ gemm with executable := "./gemm" }] := by
    cases loaded.symm.trans (load_eq_ok readable accepted)
    rw [resolve_of_parent known, single, List.map_singleton, placeBelow_of_relative _ (by rw [name]; rfl), name]
    rfl
  refine ⟨readable, m, loaded, by rw [moved]; rfl, ?_⟩
  rw [single, moved, here] at placed
  obtain ⟨placed, -⟩ := List.forall₂_cons.1 placed
  have runs := (placed.relative (by rw [name]; rfl) (by rw [name]; decide)).runs
    (show ¬ Path.IsBare "./gemm" by decide)
  rwa [name] at runs

/-- The program stands beside the manifest and can be run there, and it is not found. -/
theorem bare_executable_is_missed : workshop.contents "m.toml" = .ok gemmText ∧
    ∃ m, load Toml.parse workshop "m.toml" = .ok m ∧ m.workloads.map (·.executable) = ["gemm"] ∧
      Shell.runnableAt workshop.tree workshop.directory false "gemm" = .ok (.script "#!/bin/sh\nexit 0\n" []) ∧
      ∀ limit, workshop.prepare (quietly "gemm") limit = .error .missing := by
  obtain ⟨given, accepted, gemm, single, name⟩ := exists_gemm
  have known : Path.parent "m.toml" = some "" := by decide +kernel
  refine ⟨rfl, _, load_eq_ok rfl accepted, ?_, rfl, fun limit => ?_⟩
  · rw [resolve_of_parent known, single, List.map_singleton, placeBelow_of_relative _ (by rw [name]; rfl), name]
    rfl
  · rw [World.searches_of_isBare workshop_stands (by decide) (by decide) limit]
    rfl

end FixedManifest

end CycleCost
