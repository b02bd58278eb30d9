/-
Module: CycleCost.Regression.Rotation
Purpose: Ordinary least squares through the singular values of the two-column design matrix. One plane
  rotation makes two columns orthogonal; their lengths are then the singular values, and the solution is
  read off column by column. A direction whose singular value is below the cutoff carries no information
  and is left out, which gives the shortest solution.
Main exports: Regression.Columns, Regression.Columns.orthogonalize, Regression.leastSquares, Regression.linalg
-/
import CycleCost.Regression.Line

namespace CycleCost.Regression

variable {α : Type} [Scalar α]

/-- The inner product, added up from zero. -/
def inner (u v : List α) : α := (u.zip v).foldl (fun s (a, b) => s + a * b) Scalar.zero

/-- Two columns together with the directions of the plane that the matrix sends to them. -/
structure Columns (α : Type) where
  first : List α
  second : List α
  firstDirection : α × α
  secondDirection : α × α

/-- The turn of a plane by an angle with the given cosine and sine. -/
structure Turn (α : Type) where
  cosine : α
  sine : α

/-- The turn that makes columns of squared lengths `aa` and `bb` and inner product `ab` orthogonal: of the
    two possible ones the smaller, whose tangent solves `t * t + 2 * z * t = 1`. -/
def turn (aa bb ab : α) : Turn α :=
  if Scalar.eq ab Scalar.zero then ⟨Scalar.one, Scalar.zero⟩
  else
    let z := (bb - aa) / (Scalar.ofNat 2 * ab)
    let size := Scalar.one / (Scalar.magnitude z + Scalar.root (Scalar.one + z * z))
    let tangent := if Scalar.lt z Scalar.zero then Scalar.zero - size else size
    let cosine := Scalar.one / Scalar.root (Scalar.one + tangent * tangent)
    ⟨cosine, cosine * tangent⟩

namespace Columns

/-- The columns of the design matrix: the abscissas, and ones for the intercept. -/
def design (x : List α) : Columns α :=
  ⟨x, x.map fun _ => Scalar.one, (Scalar.one, Scalar.zero), (Scalar.zero, Scalar.one)⟩

/-- Both columns and both directions after a turn. -/
def apply (t : Turn α) (m : Columns α) : Columns α :=
  let forward (a b : α) : α := t.cosine * a - t.sine * b
  let across (a b : α) : α := t.sine * a + t.cosine * b
  { first := m.first.zipWith forward m.second
    second := m.first.zipWith across m.second
    firstDirection := (forward m.firstDirection.1 m.secondDirection.1,
      forward m.firstDirection.2 m.secondDirection.2)
    secondDirection := (across m.firstDirection.1 m.secondDirection.1,
      across m.firstDirection.2 m.secondDirection.2) }

/-- The columns after the turn that makes them orthogonal. -/
def orthogonalize (m : Columns α) : Columns α :=
  m.apply (turn (inner m.first m.first) (inner m.second m.second) (inner m.first m.second))

end Columns

/-- The bound below which a singular value counts as zero: 10^-12. -/
def cutoff : α := Scalar.one / Scalar.ofNat 1000000000000

/-- The coefficient of a column in the solution; a column shorter than the cutoff has none. -/
def coefficient (column y : List α) : α :=
  let squaredLength := inner column column
  if Scalar.lt (Scalar.root squaredLength) cutoff then Scalar.zero
  else inner column y / squaredLength

/-- The least-squares solution for slope and intercept. A first turn is exact up to rounding, and the second
    one removes what rounding has left. -/
def leastSquares (x y : List α) : α × α :=
  let m := (Columns.design x).orthogonalize.orthogonalize
  let k := coefficient m.first y
  let l := coefficient m.second y
  (k * m.firstDirection.1 + l * m.secondDirection.1,
    k * m.firstDirection.2 + l * m.secondDirection.2)

/-- The least-squares line through the singular values. -/
def linalg (x y : List α) : Result (Fit α) := do
  validate x y
  let (slope, intercept) := leastSquares x y
  let residual := x.zipWith (fun a b => b - (a * slope + intercept)) y
  let center := Scalar.mean y
  let centred := y.map (· - center)
  return {
    slope
    intercept
    rSquared := determination y (inner residual residual) (inner centred centred)
    points := x.length }

end CycleCost.Regression
