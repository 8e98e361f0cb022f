import Mathlib.Logic.Equiv.Basic
import Mathlib.Algebra.Order.Ring.Nat
import Mathlib.Algebra.Group.End
import Mathlib.Data.List.Nodup
import Mathlib.Tactic.Common

/-!
# Selecting in place

A segment of an array is rearranged until the entry at one place splits it: the entries in front are
not larger, those behind not smaller. The steps are those of quickselect, partitioning around a
pivot in one pass and going on with one side. Arrays are functions and entries have keys.
-/

namespace Select

variable {A K : Type*}

/-! ### Rearranging a segment -/

/-- `b` is `a` with the entries from `left` to `right - 1` permuted. -/
def Rearranges (left right : Nat) (a b : Nat → A) : Prop :=
  ∃ e : Equiv.Perm Nat, (∀ i, i < left ∨ right ≤ i → e i = i) ∧ b = a ∘ e

variable {left right left' right' : Nat} {a b c : Nat → A}

lemma Rearranges.refl (left right : Nat) (a : Nat → A) : Rearranges left right a a :=
  ⟨1, fun _ _ => rfl, rfl⟩

lemma Rearranges.trans (hab : Rearranges left right a b) (hbc : Rearranges left right b c) :
    Rearranges left right a c := by
  obtain ⟨e, he, rfl⟩ := hab
  obtain ⟨f, hf, rfl⟩ := hbc
  refine ⟨e * f, ?_, rfl⟩
  intro i hi
  rw [Equiv.Perm.mul_apply, hf i hi, he i hi]

lemma Rearranges.mono (h : Rearranges left right a b) (hleft : left' ≤ left)
    (hright : right ≤ right') : Rearranges left' right' a b := by
  obtain ⟨e, he, rfl⟩ := h
  refine ⟨e, ?_, rfl⟩
  intro i hi
  apply he
  omega

lemma Rearranges.outside (h : Rearranges left right a b) {i : Nat} (hi : i < left ∨ right ≤ i) :
    b i = a i := by
  obtain ⟨e, he, rfl⟩ := h
  rw [Function.comp_apply, he i hi]

lemma Rearranges.inside (h : Rearranges left right a b) {i : Nat} (hi : left ≤ i)
    (hi' : i < right) : ∃ j, left ≤ j ∧ j < right ∧ b i = a j := by
  obtain ⟨e, he, rfl⟩ := h
  have hin : ¬ (e i < left ∨ right ≤ e i) := by
    intro hout
    have hfix := e.injective (he _ hout)
    omega
  exact ⟨e i, by omega, by omega, rfl⟩

/-- What holds of all entries of the segment still does. -/
lemma Rearranges.forall {Q : A → Prop} (h : Rearranges left right a b)
    (hQ : ∀ i, left ≤ i → i < right → Q (a i)) : ∀ i, left ≤ i → i < right → Q (b i) := by
  intro i hi hi'
  obtain ⟨j, hj, hj', heq⟩ := h.inside hi hi'
  rw [heq]
  exact hQ j hj hj'

/-- The entries of the segment are the same, counted with repetitions. -/
lemma Rearranges.perm (h : Rearranges left right a b) :
    ((List.range' left (right - left)).map b).Perm ((List.range' left (right - left)).map a) := by
  obtain ⟨e, he, rfl⟩ := h
  have hinside : ∀ i, left ≤ i ∧ i < right ↔ left ≤ e i ∧ e i < right := by
    intro i
    constructor
    · rintro ⟨hi, hi'⟩
      by_contra hout
      have hfix := e.injective (he (e i) (by omega))
      omega
    · rintro ⟨hi, hi'⟩
      by_contra hout
      have hfix := he i (by omega)
      omega
  have hsegment : ((List.range' left (right - left)).map e).Perm
      (List.range' left (right - left)) := by
    have hnodup : (List.range' left (right - left)).Nodup := List.nodup_range'
    rw [List.perm_ext_iff_of_nodup (hnodup.map e.injective) hnodup]
    intro i
    simp only [List.mem_map, List.mem_range'_1]
    constructor
    · rintro ⟨j, hj, rfl⟩
      have := (hinside j).mp (by omega)
      omega
    · intro hi
      refine ⟨e.symm i, ?_, e.apply_symm_apply i⟩
      have := (hinside (e.symm i)).mpr (by rw [e.apply_symm_apply]; omega)
      omega
  rw [← List.map_map]
  exact hsegment.map a

lemma rearranges_swap {i j : Nat} (hi : left ≤ i) (hi' : i < right) (hj : left ≤ j)
    (hj' : j < right) (a : Nat → A) : Rearranges left right a (a ∘ Equiv.swap i j) := by
  refine ⟨Equiv.swap i j, ?_, rfl⟩
  intro k hk
  apply Equiv.swap_apply_of_ne_of_ne
  · omega
  · omega

/-! ### Partitioning -/

variable [LinearOrder K] (key : A → K)

/-- The entry at `center` splits the segment. -/
structure SplitAt (left right center : Nat) (a : Nat → A) : Prop where
  below : ∀ i, left ≤ i → i < center → key (a i) ≤ key (a center)
  above : ∀ i, center < i → i < right → key (a center) ≤ key (a i)

/-- The loop has come to `ii`: what is not larger than the pivot is in front of `store`, the rest
behind, and the pivot waits at the end of the segment. -/
structure Partitioning (pivot : K) (left right : Nat) (a : Nat → A) (ii store : Nat)
    (b : Nat → A) : Prop where
  rearranges : Rearranges left right a b
  le_store : left ≤ store
  store_le : store ≤ ii
  below : ∀ i, left ≤ i → i < store → key (b i) ≤ pivot
  above : ∀ i, store ≤ i → i < ii → pivot ≤ key (b i)
  last : key (b (right - 1)) = pivot

variable {key} {pivot : K} {ii store : Nat}

lemma Partitioning.keep (h : Partitioning key pivot left right a ii store b)
    (hle : pivot ≤ key (b ii)) : Partitioning key pivot left right a (ii + 1) store b where
  rearranges := h.rearranges
  le_store := h.le_store
  store_le := Nat.le_succ_of_le h.store_le
  below := h.below
  above i hi hi' := by
    rcases Nat.lt_succ_iff_lt_or_eq.mp hi' with hlt | rfl
    · exact h.above i hi hlt
    · exact hle
  last := h.last

lemma Partitioning.swap (h : Partitioning key pivot left right a ii store b)
    (hii : ii + 1 < right) (hle : key (b ii) ≤ pivot) :
    Partitioning key pivot left right a (ii + 1) (store + 1) (b ∘ Equiv.swap ii store) := by
  have hstore := h.le_store
  have hle' := h.store_le
  refine ⟨?_, by omega, by omega, ?_, ?_, ?_⟩
  · apply h.rearranges.trans
    apply rearranges_swap <;> omega
  · intro i hi hi'
    rcases Nat.lt_succ_iff_lt_or_eq.mp hi' with hlt | rfl
    · rw [Function.comp_apply, Equiv.swap_apply_of_ne_of_ne (by omega) (by omega)]
      exact h.below i hi hlt
    · rw [Function.comp_apply, Equiv.swap_apply_right]
      exact hle
  · intro i hi hi'
    rcases Nat.lt_succ_iff_lt_or_eq.mp hi' with hlt | rfl
    · rw [Function.comp_apply, Equiv.swap_apply_of_ne_of_ne (by omega) (by omega)]
      exact h.above i (by omega) hlt
    · -- what was at `store` was not in front of it
      rw [Function.comp_apply, Equiv.swap_apply_left]
      exact h.above store le_rfl (by omega)
  · rw [Function.comp_apply, Equiv.swap_apply_of_ne_of_ne (by omega) (by omega)]
    exact h.last

/-- The pivot goes to its place. -/
lemma Partitioning.splitAt (h : Partitioning key pivot left right a (right - 1) store b)
    (hlt : left < right) : Rearranges left right a (b ∘ Equiv.swap store (right - 1)) ∧
      SplitAt key left right store (b ∘ Equiv.swap store (right - 1)) := by
  have hstore := h.le_store
  have hle := h.store_le
  have hpivot : key ((b ∘ Equiv.swap store (right - 1)) store) = pivot := by
    rw [Function.comp_apply, Equiv.swap_apply_left]
    exact h.last
  refine ⟨?_, ?_, ?_⟩
  · apply h.rearranges.trans
    apply rearranges_swap <;> omega
  · intro i hi hi'
    rw [hpivot, Function.comp_apply, Equiv.swap_apply_of_ne_of_ne (by omega) (by omega)]
    exact h.below i hi hi'
  · intro i hi hi'
    rw [hpivot]
    by_cases hlast : i = right - 1
    · rw [hlast, Function.comp_apply, Equiv.swap_apply_right]
      exact h.above store le_rfl (by omega)
    · rw [Function.comp_apply, Equiv.swap_apply_of_ne_of_ne (by omega) hlast]
      exact h.above i (by omega) (by omega)

/-! ### Going on with one side -/

variable {p center : Nat}

lemma SplitAt.of_left (h : SplitAt key left right p b) (hbc : Rearranges left p b c)
    (hc : SplitAt key left p center c) (hle : left ≤ center) (hlt : center < p) :
    SplitAt key left right center c where
  below := hc.below
  above i hi hi' := by
    by_cases hip : i < p
    · exact hc.above i hi hip
    · have hcenter : key (c center) ≤ key (b p) := by
        obtain ⟨j, hj, hj', heq⟩ := hbc.inside hle hlt
        rw [heq]
        exact h.below j hj hj'
      have hi'' : key (b p) ≤ key (c i) := by
        rw [hbc.outside (.inr (by omega))]
        rcases Nat.eq_or_lt_of_le (not_lt.mp hip) with rfl | hgt
        · exact le_rfl
        · exact h.above i hgt hi'
      exact hcenter.trans hi''

lemma SplitAt.of_right (h : SplitAt key left right p b) (hbc : Rearranges (p + 1) right b c)
    (hc : SplitAt key (p + 1) right center c) (hlt : p < center) (hlt' : center < right) :
    SplitAt key left right center c where
  below i hi hi' := by
    by_cases hip : p < i
    · exact hc.below i hip hi'
    · have hcenter : key (b p) ≤ key (c center) := by
        obtain ⟨j, hj, hj', heq⟩ := hbc.inside hlt hlt'
        rw [heq]
        exact h.above j hj hj'
      have hi'' : key (c i) ≤ key (b p) := by
        rw [hbc.outside (.inl (by omega))]
        rcases Nat.eq_or_lt_of_le (not_lt.mp hip) with rfl | hgt
        · exact le_rfl
        · exact h.below i hi hgt
      exact hi''.trans hcenter
  above := hc.above

end Select
