/-
Module: CycleCost.Proofs.Synthetic
Purpose: The points of a made-up series do not know of each other. A point is known by its work, so a series holds
  the points of its amounts of work in ascending order, whatever else it was made from and in whatever order. The
  generator of a point is seeded by its work and the seed of the series through a product with an odd number and
  an exclusive or, which both can be undone, so no two generators are seeded alike.
Main exports: Series.observations_points, Synthetic.halfWidth_congr, Synthetic.points_stand_alone,
  bijective_mul_iff, Synthetic.point_seeds_differ
-/
import CycleCost.Proofs.Arithmetic.Sign
import CycleCost.Proofs.Regression.Ordering
import CycleCost.Synthetic

namespace CycleCost

/-! ### Amounts of work in order -/

/-- Amounts of work in ascending order, repeated ones as often as they were given. -/
def sortedWorks (works : List UInt64) : List UInt64 := works.mergeSort (· ≤ ·)

variable {works other : List UInt64}

theorem perm_sortedWorks (works : List UInt64) : (sortedWorks works).Perm works := List.mergeSort_perm _ _

theorem pairwise_sortedWorks (works : List UInt64) : (sortedWorks works).Pairwise (· ≤ ·) :=
  List.pairwise_mergeSort' _ _

/-- Any ascending arrangement of the amounts is the sorted one. -/
theorem sortedWorks_eq (ascending : other.Pairwise (· ≤ ·)) (perm : other.Perm works) :
    sortedWorks works = other :=
  ((perm_sortedWorks works).trans perm.symm).eq_of_pairwise' (pairwise_sortedWorks works) ascending

theorem sortedWorks_congr (perm : other.Perm works) : sortedWorks other = sortedWorks works :=
  (sortedWorks_eq (pairwise_sortedWorks other) ((perm_sortedWorks other).trans perm)).symm

/-- More amounts come between the old ones. -/
theorem sortedWorks_sublist (part : works.Subperm other) : (sortedWorks works).Sublist (sortedWorks other) := by
  have inside : (sortedWorks works).Subperm (sortedWorks other) :=
    ((perm_sortedWorks works).subperm.trans part).trans (perm_sortedWorks other).symm.subperm
  exact List.sublist_of_subperm_of_pairwise inside (pairwise_sortedWorks works) (pairwise_sortedWorks other)

/-- Sorting commutes with leaving amounts out. -/
theorem sortedWorks_filter (kept : UInt64 → Bool) (works : List UInt64) :
    sortedWorks (works.filter kept) = (sortedWorks works).filter kept :=
  sortedWorks_eq ((pairwise_sortedWorks works).filter kept) ((perm_sortedWorks works).filter kept)

/-! ### Points that are known by their work -/

namespace Series

variable {α : Type} {point : UInt64 → Observation α} (own : ∀ work, (point work).workUnits = work)

include own

/-- Equal amounts of work have equal points, so it cannot be told which came first. -/
theorem observations_points (works : List UInt64) :
    (ofList (works.map point)).observations = (sortedWorks works).map point := by
  have same : (ofList (works.map point)).observations.Perm ((sortedWorks works).map point) :=
    (perm_ofList _).trans ((perm_sortedWorks works).map point).symm
  have ascending : Ascending ((sortedWorks works).map point) := by
    refine List.pairwise_map.2 ((pairwise_sortedWorks works).imp ?_)
    intro work work' le
    rwa [own, own]
  refine same.eq_of_pairwise ?_ (ofList _).ascending ascending
  intro o o' first second below above
  obtain ⟨work, -, rfl⟩ := List.mem_map.1 (same.mem_iff.1 first)
  obtain ⟨work', -, rfl⟩ := List.mem_map.1 second
  rw [own, own] at below above
  rw [UInt64.le_antisymm below above]

/-- The series of points does not depend on the order of the amounts. -/
theorem points_eq_of_perm (perm : other.Perm works) : ofList (other.map point) = ofList (works.map point) := by
  apply ext
  rw [observations_points own, observations_points own, sortedWorks_congr perm]

/-- Fewer amounts give a part of the series. -/
theorem points_sublist (part : works.Subperm other) :
    (ofList (works.map point)).observations.Sublist (ofList (other.map point)).observations := by
  rw [observations_points own, observations_points own]
  exact (sortedWorks_sublist part).map point

theorem observations_filter_points (kept : UInt64 → Bool) (works : List UInt64) :
    (ofList ((works.filter kept).map point)).observations =
      (ofList (works.map point)).observations.filter (kept ·.workUnits) := by
  have known : (fun o => kept o.workUnits) ∘ point = kept := funext fun work => congrArg kept (own work)
  rw [observations_points own, observations_points own, sortedWorks_filter, List.filter_map, known]

end Series

namespace Synthetic

/-! ### Points -/

/-- The half-width only depends on the size of the noise. -/
theorem halfWidth_congr {noise noise' : Float} (size : noise'.abs = noise.abs) :
    halfWidth noise' = halfWidth noise := by
  have finite : noise'.isFinite = noise.isFinite := by
    rw [← isFinite_abs noise', size, isFinite_abs]
  rw [halfWidth, halfWidth, finite, size]

/-- Whatever generator is drawn from, a made-up series is the stable sort of one point for each amount of work, and
    the point is made from the line, the size of the noise, the seed and this amount alone. So the order in which
    the amounts are given does not matter, more amounts leave the points of the others as they are, the points of a
    part are that part of the points, and noise of one size gives one series, whatever its sign. -/
theorem points_stand_alone (draw : Draw) (slope intercept noise : Float) (seed : UInt64) (works : List UInt64) :
    StablySorted (series draw slope intercept noise works seed).observations
      (works.map (observation draw slope intercept (halfWidth noise.abs) seed)) ∧
    (series draw slope intercept noise works seed).observations =
      (works.map (observation draw slope intercept (halfWidth noise.abs) seed)).mergeSort byWork ∧
    (∀ other : List UInt64, other.Perm works →
      series draw slope intercept noise other seed = series draw slope intercept noise works seed) ∧
    (∀ more : List UInt64, works.Subperm more →
      (series draw slope intercept noise works seed).observations.Sublist
        (series draw slope intercept noise more seed).observations) ∧
    (∀ kept : UInt64 → Bool, (series draw slope intercept noise (works.filter kept) seed).observations =
      (series draw slope intercept noise works seed).observations.filter (kept ·.workUnits)) ∧
    (∀ noise', noise'.abs = noise.abs →
      series draw slope intercept noise' works seed = series draw slope intercept noise works seed) ∧
    series draw slope intercept (-noise) works seed = series draw slope intercept noise works seed := by
  have own (work : UInt64) : (observation draw slope intercept (halfWidth noise.abs) seed work).workUnits = work := rfl
  have width : halfWidth noise.abs = halfWidth noise := halfWidth_congr (abs_abs_eq noise)
  have points (list : List UInt64) : series draw slope intercept noise list seed =
      .ofList (list.map (observation draw slope intercept (halfWidth noise.abs) seed)) := by
    rw [series, ← width]
  have opposite {noise' : Float} (size : noise'.abs = noise.abs) :
      series draw slope intercept noise' works seed = series draw slope intercept noise works seed := by
    rw [series, series, halfWidth_congr size]
  have sorted : StablySorted (series draw slope intercept noise works seed).observations
      (works.map (observation draw slope intercept (halfWidth noise.abs) seed)) := by
    rw [points]
    exact Series.stablySorted_foldl_push Series.empty.stablySorted_self _
  refine ⟨sorted, sorted.unique (stablySorted_mergeSort _), ?order, ?more, ?part, fun _ => opposite,
    opposite (abs_neg_eq noise)⟩
  case order =>
    intro other perm
    rw [points, points, Series.points_eq_of_perm own perm]
  case more =>
    intro more part
    rw [points, points]
    exact Series.points_sublist own part
  case part =>
    intro kept
    rw [points, points, Series.observations_filter_points own]

/-- Points of a line that takes five microseconds for a unit of work. -/
def fiveMicroseconds (noise : Float) (works : List UInt64) : Series Float :=
  series Random.symmetric 0.005 5 noise works 1

/-- Two amounts of work, one of them twice: they may come in another order, and the noise with another sign, and a
    third amount leaves their points as they are. -/
theorem points_stand_alone_twice :
    [1000, 4000, 4000].Perm [4000, 1000, (4000 : UInt64)] ∧ (-0.5 : Float).abs = (0.5 : Float).abs ∧
    fiveMicroseconds 0.5 [1000, 4000, 4000] = fiveMicroseconds 0.5 [4000, 1000, 4000] ∧
    fiveMicroseconds (-0.5) [4000, 1000, 4000] = fiveMicroseconds 0.5 [4000, 1000, 4000] ∧
    (fiveMicroseconds 0.5 [4000, 1000, 4000]).observations.Sublist
      (fiveMicroseconds 0.5 [2000, 4000, 1000, 4000]).observations := by
  have perm : [1000, 4000, 4000].Perm [4000, 1000, (4000 : UInt64)] := by decide
  have size : (-0.5 : Float).abs = (0.5 : Float).abs := by decide +kernel
  obtain ⟨-, -, order, more, -, opposite, -⟩ :=
    points_stand_alone Random.symmetric 0.005 5 0.5 1 [4000, 1000, 4000]
  exact ⟨perm, size, order _ perm, opposite _ size, more _ (List.sublist_cons_self _ _).subperm⟩

end Synthetic

/-! ### Seeds -/

instance finite_word : Finite UInt64 := Finite.of_injective UInt64.toFin fun _ _ => UInt64.toFin_inj.1

/-- Multiplying by a word can be undone just when the word is odd: an even one sends half of the range to zero. -/
theorem bijective_mul_iff {m : UInt64} : Function.Bijective (fun x : UInt64 => x * m) ↔ Odd m.toNat := by
  rw [← Finite.injective_iff_bijective]
  constructor
  · intro injective
    by_contra even
    rw [Nat.not_odd_iff_even] at even
    obtain ⟨half, same⟩ := even.two_dvd
    have lost : (9223372036854775808 : UInt64) * m = 0 * m := by
      apply UInt64.toNat_inj.1
      rw [UInt64.toNat_mul, UInt64.toNat_mul, same]
      simp
      omega
    exact absurd (injective lost) (by decide)
  · intro odd x y same
    have coprime : Nat.gcd (2 ^ 64) m.toNat = 1 := (Nat.coprime_two_left.2 odd).pow_left 64
    have congruent : x.toNat * m.toNat ≡ y.toNat * m.toNat [MOD 2 ^ 64] := by
      have values := congrArg UInt64.toNat same
      rwa [UInt64.toNat_mul, UInt64.toNat_mul] at values
    apply UInt64.toNat_inj.1
    exact (congruent.cancel_right_of_coprime coprime).eq_of_lt_of_lt x.toNat_lt y.toNat_lt

theorem bijective_xor_left (a : UInt64) : Function.Bijective (a ^^^ ·) := by
  apply Function.Involutive.bijective
  intro x
  change a ^^^ (a ^^^ x) = x
  rw [← UInt64.xor_assoc, UInt64.xor_self, UInt64.zero_xor]

namespace Synthetic

/-- Different amounts of work have different seeds, and every seed occurs. -/
theorem bijective_pointSeed (seed : UInt64) : Function.Bijective (pointSeed seed) :=
  (bijective_xor_left seed).comp (bijective_mul_iff.2 (by decide))

/-- Different seeds of a run give different seeds of a point, and every seed occurs. -/
theorem bijective_pointSeed_seed (work : UInt64) : Function.Bijective fun seed => pointSeed seed work := by
  have turned : (fun seed => pointSeed seed work) = ((work * 0x9E3779B97F4A7C15) ^^^ ·) :=
    funext fun seed => UInt64.xor_comm ..
  rw [turned]
  exact bijective_xor_left _

/-- Under one seed of the series every word is the generator seed of just one amount of work,
    and for one amount of work it is so under just one seed of the series. The points of a series have as many
    different generator seeds as it has different amounts of work. -/
theorem point_seeds_differ :
    (∀ seed, Function.Bijective (pointSeed seed)) ∧
    (∀ work, Function.Bijective fun seed => pointSeed seed work) ∧
    (∀ seed work work', pointSeed seed work = pointSeed seed work' ↔ work = work') ∧
    (∀ seed seed' work, pointSeed seed work = pointSeed seed' work ↔ seed = seed') ∧
    ∀ seed works, ((works : List UInt64).map (pointSeed seed)).toFinset.card = works.toFinset.card := by
  refine ⟨bijective_pointSeed, bijective_pointSeed_seed, ?_, ?_, ?_⟩
  · intro seed work work'
    exact (bijective_pointSeed seed).injective.eq_iff
  · intro seed seed' work
    exact (bijective_pointSeed_seed work).injective.eq_iff
  · intro seed works
    have image : (works.map (pointSeed seed)).toFinset = works.toFinset.image (pointSeed seed) := by
      ext word
      simp only [List.mem_toFinset, List.mem_map, Finset.mem_image]
    rw [image, Finset.card_image_of_injective _ (bijective_pointSeed seed).injective]

end Synthetic

end CycleCost
