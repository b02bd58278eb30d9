/-
Module: CycleCost.Proofs.Host.KernelScript
Purpose: Which kernel and which count a built program belongs to, under the usual pattern. The path of a program tells
  the count, whatever the kernels are called. Of kernels that are all named by absolute paths, or all not, it tells
  the name with the count in place of its marks; a plain name holds no mark, so it is told as it is. Plain names
  without a separator are told by the places of the programs as well.
Main exports: KernelScript.Plain, KernelScript.counted, KernelScript.count_of_binaryPath,
  KernelScript.binaryPath_eq_iff, KernelScript.eq_of_locate_binaryPath, KernelScript.binaryPath_of_build,
  KernelScript.programs_tell_kernels, KernelScript.nodup_programs
-/
import CycleCost.Host.KernelScript
import CycleCost.Manifest.Kernel
import CycleCost.Proofs.Calibration.Agreement
import CycleCost.Proofs.Decimal.Numeral
import CycleCost.Proofs.Host.Tree
import CycleCost.Proofs.Regression.Series
import CycleCost.Proofs.Text.Replace

namespace CycleCost.Host.KernelScript

open Decimal CycleCost.Path Text

/-! ### Names of programs -/

/-- The name of a kernel with the count in place of its marks. -/
def counted (count : UInt64) (name : String) : String := replace "\x7breps\x7d" (toString count) name

/-- A name that is taken below the directory and in which no mark begins. -/
structure Plain (name : String) : Prop where
  relative : isAbsolute name = false
  unmarked : '\x7b' ∉ name.toList

variable {name name' : String} {count count' : UInt64}

theorem counted_of_plain (plain : Plain name) (count : UInt64) : counted count name = name := by
  have absent : ¬ "\x7breps\x7d".toList <:+: name.toList := fun inside =>
    plain.unmarked (inside.subset List.mem_cons_self)
  rw [← String.toList_inj, counted, toList_replace, replaceFrom_of_not_infix (by decide) absent]

/-- The usual name of a program is that of its kernel, counted, and the count behind a separator. What the first
    mark was replaced by is searched for the second one, and no mark reaches from it into the separator. -/
theorem toList_binaryName (name : String) (count : UInt64) :
    (binaryName KernelManifest.defaultPattern name count).toList =
      (counted count name).toList ++ ("_native_".toList ++ 'r' :: count.toNat.repr.toList) := by
  have named : replaceFrom "\x7bname\x7d".toList name.toList 0 KernelManifest.defaultPattern.toList =
      name.toList ++ '_' :: "native_r\x7breps\x7d".toList :=
    replaceFrom_append (by decide) "_native_r\x7breps\x7d".toList
  have behind (digits : List Char) : replaceFrom "\x7breps\x7d".toList digits 0 "native_r\x7breps\x7d".toList =
      "native_r".toList ++ digits := congrArg ("native_r".toList ++ ·) (List.append_nil digits)
  rw [binaryName, toList_replace, toList_replace, named, replaceFrom_append_cons (by decide) (by decide), behind,
    counted, toList_replace]
  rfl

/-- A name keeps its start, or the count is put there, which begins with a digit. -/
theorem isAbsolute_binaryName (name : String) (count : UInt64) :
    isAbsolute (binaryName KernelManifest.defaultPattern name count) = isAbsolute name := by
  rw [isAbsolute, isAbsolute, toList_binaryName, counted, toList_replace]
  cases name.toList with
  | nil => rfl
  | cons c rest =>
    by_cases starts : "\x7breps\x7d".toList <+: c :: rest
    · obtain ⟨more, shape⟩ := starts
      obtain ⟨d, digits, spelled⟩ := List.exists_cons_of_ne_nil (repr_toList_ne_nil count.toNat)
      have other : d ≠ '/' := fun separator =>
        not_mem_repr (by decide) count.toNat (separator ▸ spelled ▸ List.mem_cons_self)
      have replaced : (toString count).toList = d :: digits := spelled
      rw [← shape, replaceFrom_append (by decide), replaced]
      exact (beq_eq_false_iff_ne.2 fun same => other (Option.some.inj same)).trans rfl
    · rw [replaceFrom_cons starts]
      rfl

/-! ### Paths of programs -/

section

variable {k : KernelScript} (usual : k.binaryPattern = KernelManifest.defaultPattern)
include usual

/-- Under the usual pattern a binary lies in the kernel's directory under its name and count. -/
theorem binaryPath_of_usual (name : String) (count : UInt64) :
    k.binaryPath name count = join k.directory (binaryName KernelManifest.defaultPattern name count) := by
  rw [binaryPath, usual]

/-- The path of a program tells the count, whichever kernels there are. -/
theorem count_of_binaryPath (same : k.binaryPath name count = k.binaryPath name' count') : count = count' := by
  obtain ⟨front, shape⟩ := suffix_join k.directory (binaryName KernelManifest.defaultPattern name count)
  obtain ⟨front', shape'⟩ := suffix_join k.directory (binaryName KernelManifest.defaultPattern name' count')
  rw [binaryPath_of_usual usual, binaryPath_of_usual usual] at same
  rw [same, ← shape', toList_binaryName, toList_binaryName] at shape
  simp only [← List.append_assoc] at shape
  exact UInt64.toNat_inj.1 ((append_repr_inj (by decide)).1 shape).2

/-- Two programs have one path if they are for one count and their kernels' names come to the same with it in place of
    its marks. Of a kernel that is named by an absolute path and one that is not this need not hold. -/
theorem binaryPath_eq_iff (alike : isAbsolute name = isAbsolute name') :
    k.binaryPath name count = k.binaryPath name' count' ↔
      counted count name = counted count' name' ∧ count = count' := by
  have starts : isAbsolute (binaryName KernelManifest.defaultPattern name count) =
      isAbsolute (binaryName KernelManifest.defaultPattern name' count') := by
    rw [isAbsolute_binaryName, isAbsolute_binaryName, alike]
  rw [binaryPath_of_usual usual, binaryPath_of_usual usual, join_inj _ starts, ← String.toList_inj,
    toList_binaryName, toList_binaryName, ← List.append_assoc, ← List.append_assoc, append_repr_inj (by decide),
    List.append_left_inj, String.toList_inj, UInt64.toNat_inj]

/-- Plain names and counts are told apart by their binaries. -/
theorem binaryPath_inj (plain : Plain name) (plain' : Plain name') :
    k.binaryPath name count = k.binaryPath name' count' ↔ name = name' ∧ count = count' := by
  rw [binaryPath_eq_iff usual (plain.relative.trans plain'.relative.symm), counted_of_plain plain,
    counted_of_plain plain']

end

/-- A script that runs in a directory. -/
def maker (directory : String) : KernelScript :=
  ⟨"/work/make.sh", directory, KernelManifest.defaultPattern, .ofSeconds 60⟩

-- Names that are not plain: a mark is filled in, and an absolute name is also one relative to the root.
example : (maker "/work").binaryPath "gemm\x7breps\x7d" 5 = (maker "/work").binaryPath "gemm5" 5 := by decide +kernel
example : (maker "/").binaryPath "/gemm" 5 = (maker "/").binaryPath "gemm" 5 := by decide +kernel

/-! ### Places of programs -/

/-- For a plain name without a separator the name of a program is ordinary; it never consists of dots. -/
theorem ordinary_binaryName (plain : Plain name) (bare : IsBare name) (count : UInt64) :
    Tree.Ordinary (binaryName KernelManifest.defaultPattern name count) := by
  have text := toList_binaryName name count
  rw [counted_of_plain plain] at text
  have joint : 'r' ∈ (binaryName KernelManifest.defaultPattern name count).toList := by
    rw [text]
    exact List.mem_append_right _ (List.mem_append_right _ List.mem_cons_self)
  refine .of_mem ?_ joint (by decide)
  rw [IsBare, text]
  simp only [List.mem_append, List.mem_cons, not_or]
  exact ⟨bare, by decide, by decide, not_mem_repr (by decide) _⟩

/-- The place to which the path of a program leads tells a plain name without a separator, and the count. With
    separators two names may lead to one place through different directories. -/
theorem eq_of_locate_binaryPath {k : KernelScript} (usual : k.binaryPattern = KernelManifest.defaultPattern) {t : Tree}
    {d place : Place} (plain : Plain name) (plain' : Plain name') (bare : IsBare name) (bare' : IsBare name')
    (located : t.locate d (k.binaryPath name count) = .ok place)
    (located' : t.locate d (k.binaryPath name' count') = .ok place) : name = name' ∧ count = count' := by
  rw [binaryPath_of_usual usual] at located located'
  have same := Tree.eq_of_locate_join (ordinary_binaryName plain bare count) (ordinary_binaryName plain' bare' count')
    located located'
  refine (binaryPath_inj usual plain plain').1 ?_
  rw [binaryPath_of_usual usual, binaryPath_of_usual usual, same]

/-! ### Builds -/

/-- A kernel that was built is a file at the path of its program. -/
theorem binaryPath_of_build {k : KernelScript} {w : World} {program : String}
    (built : ((k.build name count).run w).1 = .ok program) :
    program = k.binaryPath name count ∧ isFile ((k.build name count).run w).2 program = true := by
  rw [build, Act.run_bind] at built ⊢
  dsimp only at built ⊢
  generalize ExceptT.run (World.awaitErrors _ k.script _ k.directory k.timeout) w = asked at built ⊢
  obtain ⟨_ | ⟨exit, diagnostics⟩, after⟩ := asked
  · cases built
  dsimp only at built ⊢
  by_cases failed : exit ≠ some 0
  · rw [if_pos failed] at built
    cases built
  -- The script succeeded, and what is left is a look at the host.
  have here : (get : Act World World).run after = (.ok after, after) := rfl
  rw [if_neg failed, Act.run_bind, here] at built ⊢
  dsimp only at built ⊢
  by_cases left : isFile after (k.binaryPath name count) = true
  · rw [if_pos left] at built ⊢
    exact ⟨(Except.ok.inj built).symm, Except.ok.inj built ▸ left⟩
  · rw [if_neg left] at built
    cases built

/-! ### Kernels apart -/

/-- From whatever directory, plain names and their counts are told by the paths of their
    programs. So on whatever hosts two kernels are built, what is given out for one is not given out for the other,
    and neither is what is given out for another count. -/
theorem programs_tell_kernels {k : KernelScript} (usual : k.binaryPattern = KernelManifest.defaultPattern)
    (plain : Plain name) (plain' : Plain name') (count count' : UInt64) :
    (k.binaryPath name count = k.binaryPath name' count' ↔ name = name' ∧ count = count') ∧
      ∀ w w' program, ((k.build name count).run w).1 = .ok program →
        ((k.build name' count').run w').1 = .ok program → name = name' ∧ count = count' := by
  refine ⟨binaryPath_inj usual plain plain', fun w w' program built built' => ?_⟩
  have one := (binaryPath_of_build built).1
  have other := (binaryPath_of_build built').1
  exact (binaryPath_inj usual plain plain').1 (one.symm.trans other)

/-- A kernel whose name holds the separator and ends in a digit, like a program of the other. -/
theorem programs_tell_kernels_numbered :
    (maker "/work").binaryPattern = KernelManifest.defaultPattern ∧ Plain "gemm_native_r5" ∧ Plain "gemm" ∧
      (maker "/work").binaryPath "gemm_native_r5" 0 ≠ (maker "/work").binaryPath "gemm" 50 := by
  have numbered : Plain "gemm_native_r5" := ⟨by decide, by decide⟩
  have short : Plain "gemm" := ⟨by decide, by decide⟩
  refine ⟨rfl, numbered, short, fun same => ?_⟩
  have names := ((programs_tell_kernels rfl numbered short 0 50).1.1 same).1
  exact absurd names (by decide)

/-- The programs of kernels with different names are all different, each kernel's for its own counts. -/
theorem nodup_programs {k : KernelScript} (usual : k.binaryPattern = KernelManifest.defaultPattern)
    {kernels : List KernelSpec} (names : (kernels.map (·.name)).Nodup) (plain : ∀ spec ∈ kernels, Plain spec.name) :
    (kernels.flatMap fun spec => spec.counts.map (k.binaryPath spec.name)).Nodup := by
  refine List.nodup_flatMap.2 ⟨fun spec _ => ?_, ?_⟩
  · have counts : spec.counts.Nodup := (pairwise_ascendingCounts _).imp UInt64.ne_of_lt
    exact counts.map fun _ _ same => count_of_binaryPath usual same
  · refine (List.pairwise_map.1 names).imp_of_mem fun {one other} mem mem' different program inOne inOther => ?_
    obtain ⟨count, -, rfl⟩ := List.mem_map.1 inOne
    obtain ⟨count', -, same⟩ := List.mem_map.1 inOther
    exact different ((binaryPath_inj usual (plain other mem') (plain one mem)).1 same).1.symm

end CycleCost.Host.KernelScript
