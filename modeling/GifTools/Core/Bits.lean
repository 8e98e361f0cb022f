import Mathlib.Tactic.Common
import Mathlib.Algebra.Order.Ring.Nat
import Mathlib.Tactic.Ring

/-!
# Bits in the order they are read

Numbers of a fixed width and bytes as lists of bits, the least significant first.
-/

namespace Bits

/-- The `n` low bits of a number. -/
def natBits : Nat → Nat → List Bool
  | 0, _ => []
  | n + 1, v => decide (v % 2 = 1) :: natBits n (v / 2)

/-- The number with the given bits. -/
def bitsNat : List Bool → Nat
  | [] => 0
  | b :: bs => b.toNat + 2 * bitsNat bs

/-- The bits of a sequence of bytes. -/
def byteBits (bytes : List UInt8) : List Bool := bytes.flatMap fun b => natBits 8 b.toNat

@[simp] lemma natBits_zero (v : Nat) : natBits 0 v = [] := rfl

@[simp] lemma length_natBits (n v : Nat) : (natBits n v).length = n := by
  induction n generalizing v with
  | zero => rfl
  | succ n ih => rw [natBits, List.length_cons, ih]

lemma toNat_decide_mod_two (v : Nat) : (decide (v % 2 = 1)).toNat = v % 2 := by
  rcases Nat.mod_two_eq_zero_or_one v with h | h <;> simp [h]

lemma bitsNat_natBits {n v : Nat} (h : v < 2 ^ n) : bitsNat (natBits n v) = v := by
  induction n generalizing v with
  | zero =>
    rw [Nat.lt_one_iff.mp h]
    rfl
  | succ n ih =>
    rw [natBits, bitsNat, ih (by rw [pow_succ] at h; omega), toNat_decide_mod_two]
    omega

lemma bitsNat_lt (bs : List Bool) : bitsNat bs < 2 ^ bs.length := by
  induction bs with
  | nil => decide
  | cons b bs ih =>
    have hb := b.toNat_lt
    rw [bitsNat, List.length_cons, pow_succ]
    omega

@[simp] lemma natBits_bitsNat (bs : List Bool) : natBits bs.length (bitsNat bs) = bs := by
  induction bs with
  | nil => rfl
  | cons b bs ih =>
    have hmod : (b.toNat + 2 * bitsNat bs) % 2 = b.toNat := by
      have hb := b.toNat_lt
      omega
    have hdiv : (b.toNat + 2 * bitsNat bs) / 2 = bitsNat bs := by
      have hb := b.toNat_lt
      omega
    rw [List.length_cons, bitsNat, natBits, hmod, hdiv, ih]
    cases b <;> rfl

lemma bitsNat_append (xs ys : List Bool) :
    bitsNat (xs ++ ys) = bitsNat xs + 2 ^ xs.length * bitsNat ys := by
  induction xs with
  | nil => simp [bitsNat]
  | cons b xs ih =>
    rw [List.cons_append, bitsNat, ih, bitsNat, List.length_cons, pow_succ]
    ring

/-- A wider field continues a narrower one. -/
lemma natBits_add (n k v : Nat) : natBits (n + k) v = natBits n v ++ natBits k (v / 2 ^ n) := by
  induction n generalizing v with
  | zero => simp
  | succ n ih =>
    rw [Nat.add_right_comm, natBits, ih, natBits, Nat.div_div_eq_div_mul, pow_succ, Nat.mul_comm 2]
    rfl

lemma byteBits_cons (b : UInt8) (bytes : List UInt8) :
    byteBits (b :: bytes) = natBits 8 b.toNat ++ byteBits bytes := List.flatMap_cons

lemma byteBits_append (xs ys : List UInt8) : byteBits (xs ++ ys) = byteBits xs ++ byteBits ys :=
  List.flatMap_append

lemma byteBits_singleton (b : UInt8) : byteBits [b] = natBits 8 b.toNat := by
  simp [byteBits]

lemma length_byteBits (bytes : List UInt8) : (byteBits bytes).length = 8 * bytes.length := by
  induction bytes with
  | nil => rfl
  | cons b bytes ih =>
    rw [byteBits_cons, List.length_append, length_natBits, ih, List.length_cons]
    omega

/-- The bytes in front are those the bits in front come from. -/
lemma exists_of_byteBits_eq {bytes header : List UInt8} {bits : List Bool}
    (h : byteBits bytes = byteBits header ++ bits) :
    ∃ rest, bytes = header ++ rest ∧ byteBits rest = bits := by
  induction header generalizing bytes with
  | nil => exact ⟨bytes, rfl, h⟩
  | cons x header ih =>
    rw [byteBits_cons, List.append_assoc] at h
    cases bytes with
    | nil =>
      have hlength := congrArg List.length h
      rw [List.length_append, length_natBits] at hlength
      exact absurd hlength (by change (0 : Nat) ≠ _; omega)
    | cons y bytes =>
      rw [byteBits_cons] at h
      obtain ⟨hfirst, hrest⟩ := List.append_inj h (by rw [length_natBits, length_natBits])
      have hxy : y.toNat = x.toNat := by
        rw [← bitsNat_natBits (n := 8) y.toNat_lt, hfirst, bitsNat_natBits x.toNat_lt]
      obtain ⟨rest, rfl, hbits⟩ := ih hrest
      exact ⟨rest, by rw [UInt8.toNat_inj.mp hxy]; rfl, hbits⟩

lemma byteBits_injective {xs ys : List UInt8} (h : byteBits xs = byteBits ys) : xs = ys := by
  obtain ⟨rest, rfl, hrest⟩ := exists_of_byteBits_eq (h.trans (List.append_nil _).symm)
  have hlength := length_byteBits rest
  rw [hrest, List.length_nil] at hlength
  rw [List.eq_nil_of_length_eq_zero (show rest.length = 0 by omega), List.append_nil]

/-! ### Signed numbers -/

/-- The low bits of a number, read as a signed one, are no more than as an unsigned one. -/
lemma toInt_ofInt_le_mod (w n : Nat) : (BitVec.ofInt w n).toInt ≤ (n % 2 ^ w : Nat) := by
  rw [BitVec.toInt_ofInt, Int.bmod_def, ← Int.natCast_mod]
  split
  · exact le_rfl
  · omega

lemma toInt_ofInt_le (w n : Nat) : (BitVec.ofInt w n).toInt ≤ n :=
  (toInt_ofInt_le_mod w n).trans (Int.ofNat_le.mpr (Nat.mod_le n (2 ^ w)))

lemma toInt_ofInt_of_mod_lt {w n : Nat} (h : 2 * (n % 2 ^ w) < 2 ^ w) :
    (BitVec.ofInt w n).toInt = (n % 2 ^ w : Nat) := by
  have hcast : 2 * ((n % 2 ^ w : Nat) : Int) < (2 ^ w : Nat) := by exact_mod_cast h
  rw [BitVec.toInt_ofInt, Int.bmod_def, ← Int.natCast_mod, if_pos (by omega)]

lemma toInt_ofInt_of_lt {w n : Nat} (h : 2 * n < 2 ^ w) : (BitVec.ofInt w n).toInt = n := by
  have hmod : n % 2 ^ w = n := Nat.mod_eq_of_lt (by omega)
  rw [toInt_ofInt_of_mod_lt (by rwa [hmod]), hmod]

end Bits
