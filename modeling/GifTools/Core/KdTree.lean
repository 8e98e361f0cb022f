import Mathlib.Algebra.Order.Group.Basic
import Mathlib.Algebra.Order.Ring.Nat
import Mathlib.Tactic.Common

/-!
# Searching a k-d tree

An inner node of the tree splits its points along a coordinate. The search for the point nearest to
a query goes to the side of the query first, and to the other side only if the split is nearer than
the best point so far. If the points are on the sides the splits say, it finds what comparing with
all points finds.

A tree may also be kept in an array, the children of node `n` at `n * 2` and `n * 2 + 1`.
-/

/-- A tree of points in `P` with coordinates in `C`, split at values in `R`. -/
inductive KdTree (C P R : Type*) where
  | empty
  | leaf (point : P)
  | node (coordinate : C) (split : R) (left right : KdTree C P R)

namespace KdTree

variable {C P R : Type*}

def points : KdTree C P R → List P
  | .empty => []
  | .leaf point => [point]
  | .node _ _ left right => left.points ++ right.points

/-- The points of the left side are below the split or on it, those of the right side above or on
it. -/
def Separated [LE R] (coord : C → P → R) : KdTree C P R → Prop
  | .empty => True
  | .leaf _ => True
  | .node c split left right =>
    (∀ p ∈ left.points, coord c p ≤ split) ∧ (∀ p ∈ right.points, split ≤ coord c p) ∧
      left.Separated coord ∧ right.Separated coord

/-! ### The nearest of some points -/

section

variable [LinearOrder R] (dist : P → R)

/-- What is found for these points: one of them or what was there before, and none of them is
nearer. -/
structure Found (points : List P) (best found : P × R) : Prop where
  le : found.2 ≤ best.2
  nearest : ∀ p ∈ points, found.2 ≤ dist p
  mem : found = best ∨ ∃ p ∈ points, found = (p, dist p)

variable {dist} {best found found' : P × R} {xs ys : List P}

/-- The points of one side after those of the other. -/
lemma Found.append (hx : Found dist xs best found) (hy : Found dist ys found found') :
    Found dist (xs ++ ys) best found' where
  le := hy.le.trans hx.le
  nearest p hp := by
    rcases List.mem_append.mp hp with hp | hp
    · exact hy.le.trans (hx.nearest p hp)
    · exact hy.nearest p hp
  mem := by
    rcases hy.mem with rfl | ⟨p, hp, rfl⟩
    · rcases hx.mem with h | ⟨p, hp, h⟩
      · exact .inl h
      · exact .inr ⟨p, List.mem_append_left _ hp, h⟩
    · exact .inr ⟨p, List.mem_append_right _ hp, rfl⟩

lemma Found.comm (h : Found dist (xs ++ ys) best found) : Found dist (ys ++ xs) best found where
  le := h.le
  nearest p hp := h.nearest p (List.mem_append.mpr (List.mem_append.mp hp).symm)
  mem := h.mem.imp_right fun ⟨p, hp, heq⟩ =>
    ⟨p, List.mem_append.mpr (List.mem_append.mp hp).symm, heq⟩

/-- Points that are all too far away may be left out. -/
lemma Found.skip (h : ∀ p ∈ ys, best.2 ≤ dist p) : Found dist ys best best where
  le := le_rfl
  nearest := h
  mem := .inl rfl

end

/-! ### The search -/

section

variable [LinearOrder R] [AddCommGroup R] (dist : P → R) (query : C → R)

/-- The best point so far, with its distance, is replaced by a nearer one. -/
def closest : KdTree C P R → P × R → P × R
  | .empty, best => best
  | .leaf point, best => if dist point < best.2 then (point, dist point) else best
  | .node c split left right, best =>
    if query c < split then
      let best := closest left best
      if split - query c < best.2 then closest right best else best
    else
      let best := closest right best
      if query c - split < best.2 then closest left best else best

variable {dist query}

/-- The search is exact if the distance is at least the difference of each coordinate. -/
theorem found_closest [IsOrderedAddMonoid R] {coord : C → P → R}
    (hdist : ∀ c p, coord c p - query c ≤ dist p ∧ query c - coord c p ≤ dist p)
    {t : KdTree C P R} (h : t.Separated coord) (best : P × R) :
    Found dist t.points best (closest dist query t best) := by
  induction t generalizing best with
  | empty => exact Found.skip fun p hp => absurd hp List.not_mem_nil
  | leaf point =>
    rw [closest]
    by_cases hlt : dist point < best.2
    · rw [if_pos hlt]
      exact ⟨hlt.le, by simp [points], .inr ⟨point, by simp [points], rfl⟩⟩
    · rw [if_neg hlt]
      exact Found.skip (by simpa [points] using not_lt.mp hlt)
  | node c split left right ihl ihr =>
    obtain ⟨hleft, hright, hl, hr⟩ := h
    rw [closest, points]
    by_cases hside : query c < split
    · simp only [if_pos hside]
      have hfirst := ihl hl best
      by_cases hfar : split - query c < (closest dist query left best).2
      · rw [if_pos hfar]
        exact hfirst.append (ihr hr _)
      · rw [if_neg hfar]
        apply hfirst.append (Found.skip _)
        intro p hp
        calc (closest dist query left best).2 ≤ split - query c := not_lt.mp hfar
          _ ≤ coord c p - query c := sub_le_sub_right (hright p hp) _
          _ ≤ dist p := (hdist c p).1
    · simp only [if_neg hside]
      have hfirst := ihr hr best
      by_cases hfar : query c - split < (closest dist query right best).2
      · rw [if_pos hfar]
        exact (hfirst.append (ihl hl _)).comm
      · rw [if_neg hfar]
        apply (hfirst.append (Found.skip _)).comm
        intro p hp
        calc (closest dist query right best).2 ≤ query c - split := not_lt.mp hfar
          _ ≤ query c - coord c p := sub_le_sub_left (hleft p hp) _
          _ ≤ dist p := (hdist c p).2

end

/-! ### Trees in arrays -/

/-- The tree below a node, down to `height` levels, where the points are. -/
def ofHeap (coordinate : Nat → C) (split : Nat → R) (point : Nat → Option P) :
    Nat → Nat → KdTree C P R
  | 0, n => (point n).elim .empty .leaf
  | height + 1, n =>
    .node (coordinate n) (split n) (ofHeap coordinate split point height (n * 2))
      (ofHeap coordinate split point height (n * 2 + 1))

/-- The points below a node are those of the lowest row. -/
lemma mem_points_ofHeap {coordinate : Nat → C} {split : Nat → R} {point : Nat → Option P}
    {height n : Nat} {p : P} : p ∈ (ofHeap coordinate split point height n).points ↔
      ∃ j, n * 2 ^ height ≤ j ∧ j < (n + 1) * 2 ^ height ∧ point j = some p := by
  induction height generalizing n with
  | zero =>
    simp only [ofHeap, pow_zero, Nat.mul_one]
    constructor
    · intro h
      refine ⟨n, le_rfl, Nat.lt_succ_self n, ?_⟩
      cases hn : point n with
      | none =>
        rw [hn] at h
        cases h
      | some q =>
        rw [hn] at h
        rw [List.mem_singleton.mp h]
    · rintro ⟨j, hle, hlt, hj⟩
      obtain rfl : j = n := by omega
      rw [hj]
      exact List.mem_singleton.mpr rfl
  | succ height ih =>
    simp only [ofHeap, points, List.mem_append, ih, pow_succ', ← Nat.mul_assoc]
    constructor
    · rintro (⟨j, hle, hlt, hj⟩ | ⟨j, hle, hlt, hj⟩)
      · refine ⟨j, hle, hlt.trans_le ?_, hj⟩
        apply Nat.mul_le_mul_right
        omega
      · refine ⟨j, le_trans ?_ hle, hlt.trans_eq ?_, hj⟩
        · apply Nat.mul_le_mul_right
          omega
        · rw [Nat.add_mul n 1 2]
    · rintro ⟨j, hle, hlt, hj⟩
      rcases Nat.lt_or_ge j ((n * 2 + 1) * 2 ^ height) with hside | hside
      · exact .inl ⟨j, hle, hside, hj⟩
      · refine .inr ⟨j, hside, hlt.trans_eq ?_, hj⟩
        rw [Nat.add_mul n 1 2]

/-- Node `j` is one of the tree below node `n`, or `n` itself. -/
def IsBelow (n j : Nat) : Prop := ∃ d, n * 2 ^ d ≤ j ∧ j < (n + 1) * 2 ^ d

variable {n j : Nat}

lemma isBelow_self (n : Nat) : IsBelow n n := ⟨0, by simp⟩

lemma IsBelow.le (h : IsBelow n j) : n ≤ j := by
  obtain ⟨d, hle, -⟩ := h
  exact (Nat.le_mul_of_pos_right n (Nat.two_pow_pos d)).trans hle

lemma IsBelow.of_left (h : IsBelow (n * 2) j) : IsBelow n j := by
  obtain ⟨d, hle, hlt⟩ := h
  refine ⟨d + 1, ?_, ?_⟩
  · rw [pow_succ', ← Nat.mul_assoc]
    exact hle
  · apply hlt.trans_le
    rw [pow_succ', ← Nat.mul_assoc]
    apply Nat.mul_le_mul_right
    omega

lemma IsBelow.of_right (h : IsBelow (n * 2 + 1) j) : IsBelow n j := by
  obtain ⟨d, hle, hlt⟩ := h
  refine ⟨d + 1, ?_, ?_⟩
  · apply le_trans _ hle
    rw [pow_succ', ← Nat.mul_assoc]
    apply Nat.mul_le_mul_right
    omega
  · rw [pow_succ', ← Nat.mul_assoc, Nat.add_mul]
    exact hlt

lemma IsBelow.cases (h : IsBelow n j) : j = n ∨ IsBelow (n * 2) j ∨ IsBelow (n * 2 + 1) j := by
  obtain ⟨d, hle, hlt⟩ := h
  cases d with
  | zero =>
    left
    omega
  | succ d =>
    rw [pow_succ', ← Nat.mul_assoc] at hle hlt
    right
    by_cases hside : j < (n * 2 + 1) * 2 ^ d
    · exact .inl ⟨d, hle, hside⟩
    · rw [Nat.add_mul, Nat.one_mul] at hlt
      exact .inr ⟨d, not_lt.mp hside, hlt⟩

/-- The two sides of a node have no node in common. -/
lemma IsBelow.not_right (hn : 0 < n) (h : IsBelow (n * 2) j) : ¬ IsBelow (n * 2 + 1) j := by
  rintro ⟨d', hle', hlt'⟩
  obtain ⟨d, hle, hlt⟩ := h
  rcases Nat.lt_or_ge d' d with hd | hd
  · have hpow : 2 * 2 ^ d' ≤ 2 ^ d := by
      rw [← pow_succ']
      exact Nat.pow_le_pow_right (by decide) hd
    have hlow : n * 2 * (2 * 2 ^ d') ≤ j := (Nat.mul_le_mul_left _ hpow).trans hle
    have hnodes : (n * 2 + 1 + 1) * 2 ^ d' ≤ n * 2 * (2 * 2 ^ d') := by
      rw [← Nat.mul_assoc]
      apply Nat.mul_le_mul_right
      omega
    omega
  · have hpow : (n * 2 + 1) * 2 ^ d ≤ (n * 2 + 1) * 2 ^ d' :=
      Nat.mul_le_mul_left _ (Nat.pow_le_pow_right (by decide) hd)
    omega

end KdTree
