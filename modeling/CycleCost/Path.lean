/-
Module: CycleCost.Path
Purpose: Paths as texts. Joining does not normalise: the text of a path is kept as it was written.
Main exports: Path.isAbsolute, Path.names, Path.join, Path.parent
-/
import CycleCost.Text

namespace CycleCost.Path

/-- A path that starts at the root. -/
def isAbsolute (p : String) : Bool := p.toList.head? == some '/'

/-- The names between the separators of a path. -/
def names (p : String) : List String := Text.fields '/' p

/-- `p` below `base`. An absolute `p` stands alone; an empty `base` adds nothing, and an empty `p` leaves the
    separator behind. -/
def join (base p : String) : String :=
  if isAbsolute p then p
  else match base.toList.getLast? with
    | none => p
    | some '/' => base ++ p
    | some _ => base ++ "/" ++ p

/-- A path read backwards without the separators and single dots at its end. -/
def trimBackwards (reversed : List Char) : List Char :=
  let last := reversed.takeWhile (· ≠ '/')
  if last = [] ∨ last = ['.'] then
    match h : reversed.dropWhile (· ≠ '/') with
    | [] => []
    | _ :: rest =>
      have : rest.length < reversed.length := by
        have shorter := (List.dropWhile_sublist (l := reversed) (· ≠ '/')).length_le
        rw [h] at shorter
        exact shorter
      trimBackwards rest
  else reversed
termination_by reversed.length

/-- The part of a path that comes before its components: the root, or a single dot at the start. -/
def anchor (p : List Char) : List Char :=
  match p with
  | '/' :: _ => ['/']
  | ['.'] => ['.']
  | '.' :: '/' :: _ => ['.']
  | _ => []

/-- The directory of a path: the text without its last component. The root and the empty path have none. -/
def parent (p : String) : Option String :=
  let start := anchor p.toList
  let body := trimBackwards (p.toList.drop start.length).reverse
  if body.isEmpty then
    if start = ['.'] then some "" else none
  else
    let behind := (body.dropWhile (· ≠ '/')).drop 1
    some (String.ofList (start ++ (trimBackwards behind).reverse))

end CycleCost.Path
