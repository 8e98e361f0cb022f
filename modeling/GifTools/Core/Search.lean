import Mathlib.Algebra.Order.Group.Abs
import Mathlib.Data.List.Chain
import GifTools.Core.Runs

/-!
# Searching a sorted list

`lowerBound` halves a range of positions to find the first element that is not below a key; the
comparison may fail. `IsNearest` is what such a search is often for: an element of a list whose
value is as near to a point as any other. Where the values grow in small steps, one of them is near
every point between the first and the last.
-/

namespace Search

open Runs

/-! ### Lower bound -/

section

variable {A E : Type}

/-- The first of the positions `first, …, first + count` whose element is not `below`, found by
halving. -/
def lowerBound (below : A → Except E Bool) (xs : List A) (first count : Nat)
    (h : first + count ≤ xs.length) : Except E Nat :=
  if hcount : count = 0 then .ok first
  else do
    let half := count / 2
    if ← below (xs.get ⟨first + half, by omega⟩) then
      lowerBound below xs (first + half + 1) (count - half - 1) (by omega)
    else lowerBound below xs first half (by omega)
termination_by count

/-- If the first `n` elements are below and no other is, the search ends at position `n`. -/
lemma lowerBound_eq {below : A → Except E Bool} {xs : List A} {n : Nat}
    (hbelow : ∀ (i : Nat) (hi : i < xs.length), below xs[i] = .ok (decide (i < n)))
    {first count : Nat} (h : first + count ≤ xs.length) (hfirst : first ≤ n)
    (hn : n ≤ first + count) : lowerBound below xs first count h = .ok n := by
  induction count using Nat.strong_induction_on generalizing first with
  | h count ih =>
    rw [lowerBound]
    split
    · rw [show first = n by omega]
    · simp only [List.get_eq_getElem, hbelow]
      change (if decide (first + count / 2 < n) = true then _ else _) = _
      split
      · rename_i hlt
        rw [decide_eq_true_eq] at hlt
        exact ih _ (by omega) _ (by omega) (by omega)
      · rename_i hlt
        rw [decide_eq_true_eq] at hlt
        exact ih _ (by omega) _ hfirst (by omega)

/-- In a sorted list the values below a key come first. -/
lemma exists_lowerBound {K : Type*} [LinearOrder K] {f : A → K} {xs : List A}
    (hsorted : xs.Pairwise fun a b => f a ≤ f b) (s : K) :
    ∃ n ≤ xs.length, ∀ (i : Nat) (hi : i < xs.length), f xs[i] < s ↔ i < n := by
  induction xs with
  | nil => exact ⟨0, le_rfl, fun i hi => absurd hi (Nat.not_lt_zero i)⟩
  | cons x xs ih =>
    obtain ⟨hx, hxs⟩ := List.pairwise_cons.mp hsorted
    by_cases hlt : f x < s
    · obtain ⟨n, hn, hbelow⟩ := ih hxs
      refine ⟨n + 1, Nat.succ_le_succ hn, fun i hi => ?_⟩
      cases i with
      | zero => simp [hlt]
      | succ i => simpa using hbelow i (Nat.lt_of_succ_lt_succ hi)
    · refine ⟨0, Nat.zero_le _, fun i hi => ?_⟩
      cases i with
      | zero => simpa using hlt
      | succ i =>
        have := hx _ (List.getElem_mem (Nat.lt_of_succ_lt_succ hi))
        simpa using (not_lt.mp hlt).trans this

end

/-! ### Nearest elements -/

section

variable {A K : Type*} [AddCommGroup K] [LinearOrder K] [IsOrderedAddMonoid K]

/-- An element whose value is as near to `s` as that of any other element. -/
def IsNearest (f : A → K) (s : K) (xs : List A) (a : A) : Prop :=
  a ∈ xs ∧ ∀ b ∈ xs, |f a - s| ≤ |f b - s|

variable {f : A → K} {s : K} {xs : List A} {a : A}

/-- The least value at or behind `s` is nearest exactly if no value before `s` is nearer. -/
lemma isNearest_of_least (ha : a ∈ xs) (hs : s ≤ f a) (hleast : ∀ b ∈ xs, s ≤ f b → f a ≤ f b) :
    IsNearest f s xs a ↔ ∀ b ∈ xs, f b < s → f a - s ≤ s - f b := by
  have habs : |f a - s| = f a - s := abs_of_nonneg (sub_nonneg.mpr hs)
  constructor
  · intro h b hb hlt
    have hnear := h.2 b hb
    rwa [habs, abs_sub_comm, abs_of_nonneg (sub_nonneg.mpr hlt.le)] at hnear
  · intro h
    refine ⟨ha, fun b hb => ?_⟩
    rw [habs]
    rcases lt_or_ge (f b) s with hlt | hge
    · rw [abs_sub_comm, abs_of_nonneg (sub_nonneg.mpr hlt.le)]
      exact h b hb hlt
    · rw [abs_of_nonneg (sub_nonneg.mpr hge)]
      exact sub_le_sub_right (hleast b hb hge) s

/-- If all values are before `s`, the greatest is nearest. -/
lemma isNearest_of_greatest (ha : a ∈ xs) (hs : ∀ b ∈ xs, f b < s)
    (hgreatest : ∀ b ∈ xs, f b ≤ f a) : IsNearest f s xs a := by
  refine ⟨ha, fun b hb => ?_⟩
  rw [abs_sub_comm, abs_sub_comm (f b), abs_of_nonneg (sub_nonneg.mpr (hs a ha).le),
    abs_of_nonneg (sub_nonneg.mpr (hs b hb).le)]
  exact sub_le_sub_left (hgreatest b hb) s

/-- Values that grow by at most `d` at a time come nearer than `d` to every point between the first
and the last. -/
lemma exists_near_of_isChain {d a : K} {rest : List K} (hd : 0 < d)
    (hchain : (a :: rest).IsChain fun x y => x ≤ y ∧ y - x ≤ d) (hfirst : a ≤ s)
    (hlast : s ≤ (a :: rest).getLast (by simp)) : ∃ b ∈ a :: rest, |b - s| < d := by
  induction rest generalizing a with
  | nil =>
    obtain rfl : a = s := le_antisymm hfirst hlast
    exact ⟨a, by simp, by simpa using hd⟩
  | cons a' rest ih =>
    obtain ⟨⟨-, hgap⟩, hchain'⟩ := List.isChain_cons_cons.mp hchain
    rcases le_or_gt a' s with hle | hlt
    · obtain ⟨b, hb, hnear⟩ := ih hchain' hle (by simpa using hlast)
      exact ⟨b, List.mem_cons_of_mem _ hb, hnear⟩
    · refine ⟨a, by simp, ?_⟩
      rw [abs_sub_comm, abs_of_nonneg (sub_nonneg.mpr hfirst)]
      exact (sub_lt_sub_right hlt a).trans_le hgap

end

end Search
