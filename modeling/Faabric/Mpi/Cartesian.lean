import Mathlib

/-! The periodic grid in which an MPI world is arranged, and the neighbours of a rank in it. Division truncates. -/

namespace Faabric

structure CartesianWorld where
  size : Int
  cartProcsPerDim : Int × Int

namespace CartesianWorld

/-- The coordinates and periods of a rank; `rest` are the dimensions after the second. -/
def getCartesianRank (w : CartesianWorld) (rank : Int) (dims : Int × Int) (rest : List Int) :
    Except String (List Int × List Int) × CartesianWorld :=
  if w.size - 1 < rank then (.error s!"Rank {rank} bigger than world size {w.size}", w)
  else if dims.1 * dims.2 ≠ w.size then
    (.error s!"Product of ranks across dimensions not equal to world size, {dims.1} x {dims.2} != {w.size}", w)
  else
    let coords :=
      match rest.zipIdx.find? (·.1 ≠ 1) with
      | some (dim, i) => .error s!"Non-zero number of processes in dimension greater than 2. {i + 2} -> {dim}"
      | none => .ok (rank.tdiv dims.2 :: rank.tmod dims.2 :: rest.map fun _ => 0, 1 :: 1 :: rest.map fun _ => 1)
    (coords, { w with cartProcsPerDim := dims })

def getRankFromCoords (w : CartesianWorld) (coords : Int × Int) : Except String Int :=
  let (rows, columns) := w.cartProcsPerDim
  if rows * columns ≠ w.size then
    .error s!"Processors per dimension don't match world size: {rows} x {columns} != {w.size}"
  else .ok (coords.2 + coords.1 * columns)

def shiftCartesianCoords (w : CartesianWorld) (rank direction disp : Int) : Except String (Int × Int) := do
  let (rows, columns) := w.cartProcsPerDim
  let coords := (rank.tdiv columns, rank.tmod columns)
  let dispCoordsFwd :=
    if direction = 0 then ((coords.1 + disp).tmod rows, coords.2)
    else if direction = 1 then (coords.1, (coords.2 + disp).tmod columns)
    else coords
  let destination ← w.getRankFromCoords dispCoordsFwd
  let dispCoordsBwd :=
    if direction = 0 then ((coords.1 - disp + rows).tmod rows, coords.2)
    else if direction = 1 then (coords.1, (coords.2 - disp + columns).tmod columns)
    else coords
  let source ← w.getRankFromCoords dispCoordsBwd
  return (source, destination)

def HasRank (w : CartesianWorld) (rank : Int) : Prop := 0 ≤ rank ∧ rank < w.size

def dim (w : CartesianWorld) (direction : Int) : Int :=
  if direction = 0 then w.cartProcsPerDim.1 else w.cartProcsPerDim.2

structure ShiftsBack (w : CartesianWorld) (rank direction disp source destination : Int) : Prop where
  shifts : w.shiftCartesianCoords rank direction disp = .ok (source, destination)
  ranks : w.HasRank source ∧ w.HasRank destination
  forth : (w.shiftCartesianCoords source direction disp).map Prod.snd = .ok rank
  back : (w.shiftCartesianCoords destination direction disp).map Prod.fst = .ok rank

section Grid

variable {p q n x y direction d : Int}

theorem tmod_of_nonneg (h : 0 ≤ x ∨ p = 1) : x.tmod p = x % p := by
  rcases h with h | rfl
  · exact Int.tmod_eq_emod_of_nonneg h
  · rw [Int.tmod_one, Int.emod_one]

/-- The remainder of a negative sum is negative for one of the first two coordinates. -/
theorem exists_tmod_neg (hp : 2 ≤ p) (hx : x < 0) : ∃ i, (i = 0 ∨ i = 1) ∧ (i + x).tmod p < 0 := by
  have hneg {z : Int} (hz : z < 0) (hnot : ¬p ∣ z) : z.tmod p < 0 := by
    have hlt := Int.emod_lt_of_pos z (show 0 < p by omega)
    rw [Int.tmod_eq_emod, if_neg (by omega)]
    omega
  by_cases hdvd : p ∣ x
  · have hle := Int.le_of_dvd (show 0 < -x by omega) (Int.dvd_neg.mpr hdvd)
    refine ⟨1, Or.inr rfl, hneg (by omega) fun hone => ?_⟩
    have := Int.le_of_dvd one_pos ((Int.dvd_iff_dvd_of_dvd_add hone).mpr hdvd)
    omega
  · exact ⟨0, Or.inl rfl, by simpa using hneg hx hdvd⟩

theorem divide {r k : Int} (hr : 0 ≤ r ∧ r < n) (hk : 0 ≤ k) :
    (r + k * n).tdiv n = k ∧ (r + k * n).tmod n = r := by
  have hn : 0 < n := hr.1.trans_lt hr.2
  have hpos : 0 ≤ r + k * n := Int.add_nonneg hr.1 (Int.mul_nonneg hk hn.le)
  rw [Int.tdiv_eq_ediv_of_nonneg hpos, Int.tmod_eq_emod_of_nonneg hpos, Int.add_mul_ediv_right _ _ hn.ne',
    Int.add_mul_emod_self_right, Int.ediv_eq_zero_of_lt hr.1 hr.2, Int.emod_eq_of_lt hr.1 hr.2]
  exact ⟨Int.zero_add k, rfl⟩

def grid (p q : Int) : CartesianWorld := ⟨p * q, (p, q)⟩

/-- A direction, the places there are in it, and the coordinate of a place in it and in the other direction. -/
inductive Place (p q : Int) : Int → Int → Int → Int → Prop
  | row {x y : Int} (hx : 0 ≤ x ∧ x < p) (hy : 0 ≤ y ∧ y < q) : Place p q 0 p x y
  | column {x y : Int} (hx : 0 ≤ x ∧ x < q) (hy : 0 ≤ y ∧ y < p) : Place p q 1 q x y

def rankAt (q direction x y : Int) : Int := if direction = 0 then y + x * q else x + y * q

theorem Place.shift (h : Place p q direction n x y) (d : Int) :
    (grid p q).shiftCartesianCoords (rankAt q direction x y) direction d =
      .ok (rankAt q direction ((x - d + n).tmod n) y, rankAt q direction ((x + d).tmod n) y) := by
  cases h with
  | row hx hy =>
    simp [shiftCartesianCoords, getRankFromCoords, grid, rankAt, divide hy hx.1, bind, Except.bind, pure, Except.pure]
  | column hx hy =>
    simp [shiftCartesianCoords, getRankFromCoords, grid, rankAt, divide hx hy.1, bind, Except.bind, pure, Except.pure]

theorem Place.shift_of_nonneg (h : Place p q direction n x y) (hsums : 0 ≤ x - d + n ∧ 0 ≤ x + d ∨ n = 1) :
    (grid p q).shiftCartesianCoords (rankAt q direction x y) direction d =
      .ok (rankAt q direction ((x - d) % n) y, rankAt q direction ((x + d) % n) y) := by
  rw [h.shift, tmod_of_nonneg (hsums.imp_left And.left), tmod_of_nonneg (hsums.imp_left And.right),
    Int.add_emod_right]

theorem Place.hasRank (h : Place p q direction n x y) : (grid p q).HasRank (rankAt q direction x y) := by
  cases h with
  | row hx hy => constructor <;> simp only [rankAt, grid, if_true] <;> nlinarith
  | column hx hy => constructor <;> simp only [rankAt, grid, one_ne_zero, if_false] <;> nlinarith

theorem Place.along (h : Place p q direction n x y) : 0 ≤ x ∧ x < n := by
  cases h with
  | row hx _ => exact hx
  | column hx _ => exact hx

theorem Place.move (h : Place p q direction n x y) {z : Int} (hz : 0 ≤ z ∧ z < n) : Place p q direction n z y := by
  cases h with
  | row _ hy => exact .row hz hy
  | column _ hy => exact .column hz hy

theorem rankAt_neg (hq : 0 < q) (hx : x < 0) : rankAt q direction x 0 < 0 := by
  unfold rankAt
  split_ifs <;> nlinarith

variable (hzero : Place p q direction n 0 0)

include hzero

theorem Place.of_rank {rank : Int} (h : (grid p q).HasRank rank) :
    ∃ x y, Place p q direction n x y ∧ rankAt q direction x y = rank := by
  have hq : 0 < q := by cases hzero <;> omega
  have hmod := And.intro (Int.emod_nonneg rank hq.ne') (Int.emod_lt_of_pos rank hq)
  have hdiv := And.intro (Int.ediv_nonneg h.1 hq.le) (Int.ediv_lt_of_lt_mul hq h.2)
  have hsum := Int.emod_add_ediv_mul rank q
  cases hzero with
  | row => exact ⟨rank / q, rank % q, .row hdiv hmod, hsum⟩
  | column => exact ⟨rank % q, rank / q, .column hmod hdiv, hsum⟩

/-- With a negative sum one of the first two ranks has a neighbour that is none. -/
theorem exists_unplaced (hx : x < 0) (hone : n ≠ 1) :
    ∃ i, Place p q direction n i 0 ∧ ¬(grid p q).HasRank (rankAt q direction ((i + x).tmod n) 0) := by
  have hq : 0 < q := by cases hzero <;> omega
  have hn := hzero.along
  obtain ⟨i, hi, hneg⟩ := exists_tmod_neg (show 2 ≤ n by omega) hx
  exact ⟨i, hzero.move (by omega), fun h => (rankAt_neg hq hneg).not_ge h.1⟩

theorem shiftsBack_iff : (∀ rank, (grid p q).HasRank rank → ∃ source destination,
    (grid p q).ShiftsBack rank direction d source destination) ↔ 0 ≤ d ∧ d ≤ n ∨ n = 1 := by
  constructor
  · intro h
    by_contra hnot
    obtain ⟨hout, hone⟩ := not_or.mp hnot
    have hsum : d < 0 ∨ n - d < 0 := by omega
    rcases hsum with hneg | hneg
    · obtain ⟨i, hplace, hno⟩ := exists_unplaced hzero hneg hone
      obtain ⟨source, destination, hback⟩ := h _ hplace.hasRank
      obtain ⟨-, rfl⟩ := Prod.mk.inj (Except.ok.inj ((hplace.shift d).symm.trans hback.shifts))
      exact hno hback.ranks.2
    · obtain ⟨i, hplace, hno⟩ := exists_unplaced hzero hneg hone
      obtain ⟨source, destination, hback⟩ := h _ hplace.hasRank
      obtain ⟨rfl, -⟩ := Prod.mk.inj (Except.ok.inj ((hplace.shift d).symm.trans hback.shifts))
      rw [← add_sub_assoc, ← sub_add_eq_add_sub] at hno
      exact hno hback.ranks.1
  · intro h rank hrank
    obtain ⟨x, y, hplace, rfl⟩ := Place.of_rank hzero hrank
    obtain ⟨hx, hlt⟩ := hplace.along
    have hn : 0 < n := hx.trans_lt hlt
    have hmod (z : Int) := And.intro (Int.emod_nonneg z hn.ne') (Int.emod_lt_of_pos z hn)
    have hsource := hmod (x - d)
    have hdest := hmod (x + d)
    refine ⟨_, _, hplace.shift_of_nonneg (by omega), ⟨(hplace.move hsource).hasRank, (hplace.move hdest).hasRank⟩, ?_, ?_⟩
    · rw [(hplace.move hsource).shift_of_nonneg (by omega)]
      simp only [Except.map, Int.emod_add_emod, sub_add_cancel, Int.emod_eq_of_lt hx hlt]
    · rw [(hplace.move hdest).shift_of_nonneg (by omega)]
      simp only [Except.map, Int.emod_sub_emod, add_sub_cancel_right, Int.emod_eq_of_lt hx hlt]

theorem shiftsBack_periodic_iff : (∀ rank, (grid p q).HasRank rank → ∃ source destination,
    (grid p q).ShiftsBack rank direction d source destination ∧
    (grid p q).shiftCartesianCoords rank direction (d + n) = .ok (source, destination)) ↔ d = 0 ∨ n = 1 := by
  have hn := hzero.along
  constructor
  · intro h
    have hrange := (shiftsBack_iff hzero).mp fun rank hrank => (h rank hrank).imp fun _ => Exists.imp fun _ => And.left
    by_contra hnot
    obtain ⟨i, hplace, hno⟩ := exists_unplaced hzero (show -d < 0 by omega) (not_or.mp hnot).2
    obtain ⟨source, destination, hback, hloop⟩ := h _ hplace.hasRank
    obtain ⟨rfl, -⟩ := Prod.mk.inj (Except.ok.inj ((hplace.shift _).symm.trans hloop))
    rw [sub_add_eq_sub_sub, sub_add_cancel] at hback
    exact hno hback.ranks.1
  · intro h rank hrank
    obtain ⟨source, destination, hback⟩ := (shiftsBack_iff hzero (d := d)).mpr (by omega) rank hrank
    refine ⟨source, destination, hback, ?_⟩
    obtain ⟨x, y, hplace, rfl⟩ := Place.of_rank hzero hrank
    obtain ⟨hx, hlt⟩ := hplace.along
    rw [← hback.shifts, hplace.shift_of_nonneg (by omega), hplace.shift_of_nonneg (by omega), ← sub_sub, ← add_assoc,
      Int.sub_emod_right, Int.add_emod_right]

end Grid

end CartesianWorld

open CartesianWorld

/-- Coordinates are inverted. A shift is undone for every rank exactly if it goes forward by one loop at most, or if
there is only one place in its direction; and a loop more makes no difference exactly if there is no shift at all. -/
theorem cartesian_shifts_iff {w w' : CartesianWorld} {rank₀ : Int} {dims : Int × Int} {rest : List Int}
    {placed : List Int × List Int} (hdims : 0 < dims.1 ∧ 0 < dims.2)
    (h : w.getCartesianRank rank₀ dims rest = (.ok placed, w')) :
    (∀ rank, w'.HasRank rank → ∃ coords others, (w'.getCartesianRank rank dims rest).1.map Prod.fst =
      .ok (coords.1 :: coords.2 :: others) ∧ w'.getRankFromCoords coords = .ok rank) ∧
    ∀ direction disp, direction = 0 ∨ direction = 1 →
      ((∀ rank, w'.HasRank rank → ∃ source destination, w'.ShiftsBack rank direction disp source destination) ↔
        0 ≤ disp ∧ disp ≤ w'.dim direction ∨ w'.dim direction = 1) ∧
      ((∀ rank, w'.HasRank rank → ∃ source destination, w'.ShiftsBack rank direction disp source destination ∧
          w'.shiftCartesianCoords rank direction (disp + w'.dim direction) = .ok (source, destination)) ↔
        disp = 0 ∨ w'.dim direction = 1) := by
  obtain ⟨p, q⟩ := dims
  obtain ⟨hp, hq⟩ := hdims
  unfold getCartesianRank at h
  split_ifs at h with hbig hsize
  · cases (Prod.mk.inj h).1
  · cases (Prod.mk.inj h).1
  rcases hrest : rest.zipIdx.find? (·.1 ≠ 1) with _ | ⟨dim, i⟩ <;> rw [hrest] at h
  swap
  · cases (Prod.mk.inj h).1
  obtain rfl : grid p q = w' := by rw [← (Prod.mk.inj h).2, grid, ← not_not.mp hsize]
  have hrow : Place p q 0 p 0 0 := .row ⟨le_rfl, hp⟩ ⟨le_rfl, hq⟩
  constructor
  · intro rank hrank
    obtain ⟨x, y, hplace, rfl⟩ := Place.of_rank hrow hrank
    rcases hplace with ⟨hx, hy⟩
    have hin : ¬(grid p q).size - 1 < rankAt q 0 x y := by have := hrank.2; omega
    refine ⟨(x, y), rest.map fun _ => 0, ?_, by simp [getRankFromCoords, grid, rankAt]⟩
    simp only [getCartesianRank, if_neg hin]
    rw [hrest]
    simp [grid, rankAt, divide hy hx.1, Except.map]
  · rintro direction disp (rfl | rfl)
    · exact ⟨shiftsBack_iff hrow, shiftsBack_periodic_iff hrow⟩
    · have hcolumn : Place p q 1 q 0 0 := .column ⟨le_rfl, hq⟩ ⟨le_rfl, hp⟩
      exact ⟨shiftsBack_iff hcolumn, shiftsBack_periodic_iff hcolumn⟩

theorem cartesian_shifts_iff_grid :
    ((⟨6, (0, 0)⟩ : CartesianWorld).getCartesianRank 0 (2, 3) []).2 = ⟨6, (2, 3)⟩ ∧
      ∀ rank, HasRank ⟨6, (2, 3)⟩ rank → ∃ source destination, ShiftsBack ⟨6, (2, 3)⟩ rank 1 2 source destination :=
  ⟨rfl, ((@cartesian_shifts_iff ⟨6, (0, 0)⟩ ⟨6, (2, 3)⟩ 0 (2, 3) [] _ (by decide) rfl).2 1 2 (Or.inr rfl)).1.mpr
    (by decide)⟩

/-- On the same grid, rank 0 moves back by one to a rank that there is not, and is reached from one when it moves
forward by four. -/
theorem cartesian_shift_leaves_grid :
    shiftCartesianCoords ⟨6, (2, 3)⟩ 0 1 (-1) = .ok (1, -1) ∧ shiftCartesianCoords ⟨6, (2, 3)⟩ 0 1 1 = .ok (2, 1) ∧
      shiftCartesianCoords ⟨6, (2, 3)⟩ 0 1 (1 + 3) = .ok (-1, 1) :=
  ⟨rfl, rfl, rfl⟩

end Faabric
