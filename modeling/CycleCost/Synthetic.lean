/-
Module: CycleCost.Synthetic
Purpose: Made-up observations of a known line, by which the regression is checked without any machine. The
  jitter of a point depends only on the seed and the point's own work, so other points do not change it.
Main exports: Synthetic.pointSeed, Synthetic.Draw, Synthetic.observation, Synthetic.series, Synthetic.Spec
-/
import CycleCost.Random
import CycleCost.Regression.Series

namespace CycleCost.Synthetic

/-- The seed of the point with the given work. -/
def pointSeed (seed work : UInt64) : UInt64 := seed ^^^ (work * 0x9E3779B97F4A7C15)

/-- The half-width of the jitter: the size of the given noise, or nothing when that is not finite. -/
def halfWidth (noise : Float) : Float := if noise.isFinite then noise.abs else 0.0

/-- What a generator that is seeded with a word gives first, between minus and plus a width. -/
abbrev Draw := (width : Float) → (seed : UInt64) → Float

/-- The observation of one point. -/
def observation (draw : Draw) (slope intercept width : Float) (seed work : UInt64) : Observation Float where
  workUnits := work
  timeMs := slope * Float.ofNat work.toNat + intercept
    + (if 0.0 < width then draw width (pointSeed seed work) else 0.0)
  deviationMs := width / Float.sqrt 3.0
  runsUsed := 1

/-- The series of a line with jitter. -/
def series (draw : Draw) (slope intercept noise : Float) (works : List UInt64) (seed : UInt64) : Series Float :=
  Series.ofList (works.map (observation draw slope intercept (halfWidth noise) seed))

/-- What a series is made of. -/
structure Spec where
  /-- Milliseconds per unit of work. -/
  slope : Float
  intercept : Float
  noise : Float
  works : List UInt64
  seed : UInt64

namespace Spec

/-- Six sizes of an instruction of 0.3 ns behind a launch of 20 ms. -/
def standard (seed : UInt64) : Spec where
  slope := 3e-7
  intercept := 20.0
  noise := 0.5
  works := ([0, 1, 2, 3, 4, 5] : List UInt64).map fun doublings => (20000000 : UInt64) <<< doublings
  seed := seed

def series (s : Spec) : Series Float :=
  Synthetic.series Random.symmetric s.slope s.intercept s.noise s.works s.seed

end Spec

end CycleCost.Synthetic
