/-
Module: CycleCost.Manifest.File
Purpose: Manifests in files of the host. The relative paths of a manifest are taken below the directory of its
  file, once its text has been read.
Main exports: FixedManifest.load, KernelManifest.load
-/
import CycleCost.Host.Process
import CycleCost.Manifest.Fixed
import CycleCost.Manifest.Kernel

namespace CycleCost

open Document Host

/-- The manifest of fixed-size workloads in a file. -/
def FixedManifest.load (toml : Parser) (w : World) (path : String) : Result (FixedManifest Float) := do
  let m ← ofText toml (← w.contents path)
  return m.resolve path

/-- The manifest of kernels in a file. -/
def KernelManifest.load (toml : Parser) (w : World) (path : String) : Result KernelManifest := do
  let m ← ofText toml (← w.contents path)
  return m.resolve (placeText w.directory) path

end CycleCost
