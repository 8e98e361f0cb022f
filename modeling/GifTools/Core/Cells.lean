import Mathlib.Tactic.Common

/-!
# Arrays of numbers

An array of a fixed length, as programs in C have them: what is read outside of it is zero here, and
what is written there is lost.
-/

namespace Cells

variable {n i j x : Nat}

def read (v : Vector Nat n) (i : Nat) : Nat := v[i]?.getD 0

def write (v : Vector Nat n) (i x : Nat) : Vector Nat n := v.setIfInBounds i x

lemma read_write (v : Vector Nat n) (hi : i < n) :
    read (write v i x) j = if j = i then x else read v j := by
  rw [read, write, Vector.getElem?_setIfInBounds]
  by_cases hij : j = i
  · rw [if_pos hij.symm, if_pos hi, if_pos hij, Option.getD_some]
  · rw [if_neg (Ne.symm hij), if_neg hij]
    rfl

@[simp] lemma read_zeros (n i : Nat) : read (Vector.replicate n 0) i = 0 := by
  rw [read, Vector.getElem?_replicate]
  split_ifs <;> rfl

/-! ### Many writes -/

section

variable {A : Type} {cells : Array A} {ws : List (Nat × A)} {a : A}

/-- One write after the other. -/
def writes (cells : Array A) (ws : List (Nat × A)) : Array A :=
  ws.foldl (fun cells w => cells.setIfInBounds w.1 w.2) cells

@[simp] lemma size_writes : (writes cells ws).size = cells.size := by
  induction ws generalizing cells with
  | nil => rfl
  | cons w ws ih =>
    change (writes (cells.setIfInBounds w.1 w.2) ws).size = _
    rw [ih, Array.size_setIfInBounds]

lemma writes_of_notMem (h : ∀ a, (i, a) ∉ ws) : (writes cells ws)[i]? = cells[i]? := by
  induction ws generalizing cells with
  | nil => rfl
  | cons w ws ih =>
    have hne : w.1 ≠ i := fun hi => h w.2 (hi ▸ List.mem_cons_self)
    change (writes (cells.setIfInBounds w.1 w.2) ws)[i]? = _
    rw [ih fun a ha => h a (List.mem_cons_of_mem _ ha), Array.getElem?_setIfInBounds_ne hne]

/-- It does not matter how often the same is written. -/
lemma writes_of_mem (hi : i < cells.size) (hmem : (i, a) ∈ ws)
    (hsame : ∀ b, (i, b) ∈ ws → b = a) : (writes cells ws)[i]? = some a := by
  induction ws generalizing cells with
  | nil => cases hmem
  | cons w ws ih =>
    change (writes (cells.setIfInBounds w.1 w.2) ws)[i]? = _
    by_cases hlater : (i, a) ∈ ws
    · exact ih (by rwa [Array.size_setIfInBounds]) hlater fun b hb =>
        hsame b (List.mem_cons_of_mem _ hb)
    · obtain rfl : (i, a) = w := (List.mem_cons.mp hmem).resolve_right hlater
      rw [writes_of_notMem fun b hb => hlater (hsame b (List.mem_cons_of_mem _ hb) ▸ hb),
        Array.getElem?_setIfInBounds_self_of_lt hi]

end

end Cells
