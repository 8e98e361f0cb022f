import Mathlib.Tactic.Common
import Mathlib.Data.List.Basic

/-!
# Copies of what has been written

A sequence is written from its front; an item of it, or a whole stretch, may be given as a copy of
what lies a distance before. The stretch may be longer than the distance: it repeats itself then.
-/

namespace Lz77

variable {A : Type*}

/-- `n` items more, each of them the one that lies `distance` before it. -/
def copyBack (distance : Nat) : Nat → List A → List A
  | 0, out => out
  | n + 1, out =>
    match out[out.length - distance]? with
    | none => out
    | some a => copyBack distance n (out ++ [a])

variable {data out : List A} {i distance n : Nat}

@[simp] lemma copyBack_zero (distance : Nat) (out : List A) : copyBack distance 0 out = out := rfl

lemma copyBack_succ {a : A} (h : out[out.length - distance]? = some a) :
    copyBack distance (n + 1) out = copyBack distance n (out ++ [a]) := by
  rw [copyBack, h]

lemma length_copyBack (hpos : 0 < distance) (hle : distance ≤ out.length) (n : Nat) :
    (copyBack distance n out).length = out.length + n := by
  induction n generalizing out with
  | zero => rfl
  | succ n ih =>
    have hlt : out.length - distance < out.length := by omega
    rw [copyBack_succ (List.getElem?_eq_getElem hlt), ih, List.length_append,
      List.length_singleton]
    · omega
    · rw [List.length_append]
      omega

/-- At the distance one an item is repeated. -/
lemma copyBack_one (hne : out ≠ []) (a : A) (n : Nat) :
    copyBack 1 n out = out ++ List.replicate n (out.getLastD a) := by
  induction n generalizing out with
  | zero => rw [copyBack_zero, List.replicate_zero, List.append_nil]
  | succ n ih =>
    have hlast : out[out.length - 1]? = some (out.getLastD a) := by
      rw [← List.getLast?_eq_getElem?, List.getLastD_eq_getLast?,
        List.getLast?_eq_some_getLast hne, Option.getD_some]
    have hsame : (out ++ [out.getLastD a]).getLastD a = out.getLastD a := by
      rw [List.getLastD_eq_getLast?, List.getLast?_concat, Option.getD_some]
    rw [copyBack_succ hlast, ih (by simp), hsame, List.append_assoc, List.replicate_succ]
    rfl

/-- A stretch that has been compared with what lies before it is a copy of that. -/
theorem copyBack_take (hpos : 0 < distance) (hle : distance ≤ i) (hlen : i + n ≤ data.length)
    (hsame : ∀ k < n, data[i - distance + k]? = data[i + k]?) :
    copyBack distance n (data.take i) = data.take (i + n) := by
  induction n generalizing i with
  | zero => rfl
  | succ n ih =>
    have hi : i < data.length := by omega
    have hlength : (data.take i).length = i := List.length_take_of_le (Nat.le_of_lt hi)
    have hfront : (data.take i)[(data.take i).length - distance]? = some data[i] := by
      rw [hlength, List.getElem?_take_of_lt (by omega), ← List.getElem?_eq_getElem hi]
      exact hsame 0 (Nat.succ_pos n)
    have htake : data.take i ++ [data[i]] = data.take (i + 1) :=
      (List.take_succ_eq_append_getElem hi).symm
    rw [copyBack_succ hfront, htake, ih (by omega) (by omega), Nat.add_right_comm i 1 n]
    · rfl
    · intro k hk
      have hnext := hsame (k + 1) (by omega)
      rwa [show i + 1 - distance + k = i - distance + (k + 1) by omega,
        show i + 1 + k = i + (k + 1) by omega]

end Lz77
