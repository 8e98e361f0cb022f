import Mathlib.Algebra.Group.Basic
import Mathlib.Data.List.GetD
import Mathlib.Data.List.Induction

/-!
# Rows of differences

Each item of a row is written as its difference from a prediction, which is made from the item `n`
places to the left of it, from the one above it and from the one to the left of that. Whatever the
prediction is, the row can be got back from the differences.
-/

namespace Predict

variable {A : Type*} [AddGroup A]

/-- Nothing lies to the left of the first `n` items. -/
def before (n : Nat) (row : List A) (i : Nat) : A := if i < n then 0 else row.getD (i - n) 0

section

variable (p : A → A → A → A) (n : Nat) (above : List A)

/-- What is expected at `i`, if the row is known as far as that. -/
def predict (row : List A) (i : Nat) : A :=
  p (before n row i) (above.getD i 0) (before n above i)

def differences (row : List A) : List A :=
  (List.range row.length).map fun i => row.getD i 0 - predict p n above row i

/-- The items are put back behind those that are done. -/
def restore : List A → List A → List A
  | done, [] => done
  | done, d :: ds => restore (done ++ [d + predict p n above done done.length]) ds

end

variable {p : A → A → A → A} {n i : Nat} {above done row ds : List A}

@[simp] lemma length_differences : (differences p n above row).length = row.length := by
  rw [differences, List.length_map, List.length_range]

lemma restore_append (done xs ys : List A) :
    restore p n above done (xs ++ ys) = restore p n above (restore p n above done xs) ys := by
  induction xs generalizing done with
  | nil => rfl
  | cons x xs ih => exact ih _

/-- The prediction looks at nothing that comes later. -/
lemma predict_take (hn : 0 < n) (i : Nat) (row : List A) :
    predict p n above (row.take i) i = predict p n above row i := by
  have hbefore : before n (row.take i) i = before n row i := by
    rw [before, before]
    split_ifs with hi
    · rfl
    · rw [List.getD_eq_getElem?_getD, List.getD_eq_getElem?_getD,
        List.getElem?_take_of_lt (by omega)]
  rw [predict, predict, hbefore]

lemma differences_concat (hn : 0 < n) (row : List A) (a : A) :
    differences p n above (row ++ [a]) =
      differences p n above row ++ [a - predict p n above row row.length] := by
  have htake : ∀ i ≤ row.length,
      predict p n above (row ++ [a]) i = predict p n above row i := by
    intro i hi
    rw [← predict_take hn, List.take_append_of_le_length hi, predict_take hn]
  rw [differences, List.length_append, List.length_singleton, List.range_succ, List.map_append,
    List.map_singleton, htake _ (Nat.le_refl _), List.getD_append_right _ _ _ _ (Nat.le_refl _),
    Nat.sub_self, List.getD_cons_zero]
  congr 1
  refine List.map_congr_left fun i hi => ?_
  have hi := List.mem_range.mp hi
  rw [htake i (Nat.le_of_lt hi), List.getD_append _ _ _ _ hi]

lemma restore_concat (done ds : List A) (d : A) :
    restore p n above done (ds ++ [d]) = restore p n above done ds ++
      [d + predict p n above (restore p n above done ds) (restore p n above done ds).length] :=
  restore_append done ds [d]

/-- A row comes back from its differences. -/
theorem restore_differences (hn : 0 < n) (row : List A) :
    restore p n above [] (differences p n above row) = row := by
  induction row using List.reverseRecOn with
  | nil => rfl
  | append_singleton row a ih =>
    rw [differences_concat hn, restore_concat, ih, sub_add_cancel]

end Predict
