import Mathlib.Logic.Function.Iterate
import Mathlib.Tactic.Common
import Mathlib.Tactic.Ring

/-!
# Check sums

The two check sums of a compressed image file, as they are defined: `adler32` adds bytes modulo a
prime, and `crc32` divides the bits of a message by a polynomial, bit by bit.
-/

namespace Checksum

/-! ### Adler-32 -/

/-- The sum of the bytes and the sum of these sums. -/
def adlerStep (s : Nat × Nat) (b : UInt8) : Nat × Nat :=
  ((s.1 + b.toNat) % 65521, (s.2 + (s.1 + b.toNat)) % 65521)

def adler32 (data : List UInt8) : Nat × Nat := data.foldl adlerStep (1, 0)

/-- The two sums, as they stand behind the data. -/
def adlerBytes (data : List UInt8) : List UInt8 :=
  [UInt8.ofNat ((adler32 data).2 / 256), UInt8.ofNat (adler32 data).2,
    UInt8.ofNat ((adler32 data).1 / 256), UInt8.ofNat (adler32 data).1]

/-- The same sums without a reduction. -/
def sums (s : Nat × Nat) (data : List UInt8) : Nat × Nat :=
  data.foldl (fun s b => (s.1 + b.toNat, s.2 + (s.1 + b.toNat))) s

lemma le_sums (s : Nat × Nat) (data : List UInt8) :
    s.1 ≤ (sums s data).1 ∧ s.2 ≤ (sums s data).2 := by
  induction data generalizing s with
  | nil => exact ⟨le_rfl, le_rfl⟩
  | cons b data ih =>
    have hstep := ih (s.1 + b.toNat, s.2 + (s.1 + b.toNat))
    exact ⟨(Nat.le_add_right _ _).trans hstep.1, (Nat.le_add_right _ _).trans hstep.2⟩

lemma foldl_adlerStep (s : Nat × Nat) (data : List UInt8) (t : Nat × Nat)
    (h1 : t.1 = s.1 % 65521) (h2 : t.2 = s.2 % 65521) :
    data.foldl adlerStep t = ((sums s data).1 % 65521, (sums s data).2 % 65521) := by
  induction data generalizing s t with
  | nil => exact Prod.ext h1 h2
  | cons b data ih =>
    refine ih (s.1 + b.toNat, s.2 + (s.1 + b.toNat)) (adlerStep t b) ?_ ?_
    · simp only [adlerStep]
      omega
    · simp only [adlerStep]
      omega

/-- How large the sums get while `n` bytes are added. -/
lemma sums_le {s : Nat × Nat} {a b : Nat} (h1 : s.1 ≤ a) (h2 : 2 * s.2 ≤ b) (data : List UInt8) :
    (sums s data).1 ≤ a + 255 * data.length ∧
      2 * (sums s data).2 ≤ b + data.length * (2 * a + 255 * (data.length + 1)) := by
  induction data generalizing s a b with
  | nil => exact ⟨h1, by simpa [sums] using h2⟩
  | cons x data ih =>
    have hx := x.toNat_lt
    obtain ⟨hfst, hsnd⟩ := ih (s := (s.1 + x.toNat, s.2 + (s.1 + x.toNat))) (a := a + 255)
      (b := b + 2 * (a + 255)) (by simp only; omega) (by simp only; omega)
    have hcons : sums s (x :: data) = sums (s.1 + x.toNat, s.2 + (s.1 + x.toNat)) data := rfl
    rw [hcons, List.length_cons]
    refine ⟨by omega, hsnd.trans (le_of_eq ?_)⟩
    ring

/-! ### CRC-32 -/

/-- One bit is divided by the polynomial, whose bits are turned round. -/
def crcBit (crc : BitVec 32) : BitVec 32 :=
  if crc.getLsbD 0 then crc >>> 1 ^^^ 0xEDB88320#32 else crc >>> 1

def crcByte (crc : BitVec 32) (b : UInt8) : BitVec 32 :=
  crcBit^[8] (crc ^^^ b.toBitVec.setWidth 32)

def crc32 (data : List UInt8) : BitVec 32 := ~~~ data.foldl crcByte (~~~ 0#32)

lemma xor_xor_xor_cancel (a b p : BitVec 32) : a ^^^ p ^^^ (b ^^^ p) = a ^^^ b := by
  rw [BitVec.xor_assoc, BitVec.xor_comm b p, ← BitVec.xor_assoc p, BitVec.xor_self,
    BitVec.zero_xor]

lemma crcBit_xor (a b : BitVec 32) : crcBit (a ^^^ b) = crcBit a ^^^ crcBit b := by
  simp only [crcBit, BitVec.getLsbD_xor, BitVec.ushiftRight_xor_distrib]
  cases a.getLsbD 0 <;> cases b.getLsbD 0
  · rfl
  · exact BitVec.xor_assoc _ _ _
  · simp only [Bool.true_xor, Bool.not_false, if_true, Bool.false_eq_true, if_false]
    rw [BitVec.xor_assoc, BitVec.xor_assoc, BitVec.xor_comm (b >>> 1)]
  · exact (xor_xor_xor_cancel _ _ _).symm

lemma iterate_crcBit_xor (n : Nat) (a b : BitVec 32) :
    crcBit^[n] (a ^^^ b) = crcBit^[n] a ^^^ crcBit^[n] b := by
  induction n generalizing a b with
  | zero => rfl
  | succ n ih => rw [Function.iterate_succ_apply, crcBit_xor, ih, Function.iterate_succ_apply,
      Function.iterate_succ_apply]

/-- Zeros are passed over. -/
lemma iterate_crcBit_eq_shift (n : Nat) (a : BitVec 32) (h : ∀ i < n, a.getLsbD i = false) :
    crcBit^[n] a = a >>> n := by
  induction n generalizing a with
  | zero => rw [Function.iterate_zero_apply, BitVec.ushiftRight_zero]
  | succ n ih =>
    have hfirst : crcBit a = a >>> 1 := by
      rw [crcBit, h 0 (Nat.succ_pos n)]
      rfl
    rw [Function.iterate_succ_apply, hfirst, ih, Nat.add_comm n 1, BitVec.shiftRight_add]
    intro i hi
    rw [BitVec.getLsbD_ushiftRight]
    exact h (1 + i) (by omega)

/-- A byte in one step, with a table for what its eight bits do. -/
lemma crcByte_eq (crc : BitVec 32) (b : UInt8) :
    crcByte crc b = crc >>> 8 ^^^ crcBit^[8] ((crc ^^^ b.toBitVec.setWidth 32) &&& 0xff#32) := by
  have hmask (i : Nat) : (0xff#32).getLsbD i = decide (i < 8) := by
    have hones : (0xff#32) = (BitVec.allOnes 8).setWidth 32 := by decide
    rw [hones, BitVec.getLsbD_setWidth, BitVec.getLsbD_allOnes]
    by_cases hi : i < 8
    · simp [hi, show i < 32 by omega]
    · simp [hi]
  have hbyte (i : Nat) (hi : 8 ≤ i) : (b.toBitVec.setWidth 32).getLsbD i = false := by
    rw [BitVec.getLsbD_setWidth, BitVec.getLsbD_of_ge _ _ hi, Bool.and_false]
  -- the bits above the byte and those of the byte
  have hsplit : crc ^^^ b.toBitVec.setWidth 32 =
      (crc &&& ~~~ 0xff#32) ^^^ ((crc ^^^ b.toBitVec.setWidth 32) &&& 0xff#32) := by
    apply BitVec.eq_of_getLsbD_eq
    intro i hi
    simp only [BitVec.getLsbD_xor, BitVec.getLsbD_and, BitVec.getLsbD_not, hmask]
    by_cases h8 : i < 8
    · simp [h8]
    · rw [hbyte i (by omega)]
      simp [h8, hi]
  have hhigh : crcBit^[8] (crc &&& ~~~ 0xff#32) = crc >>> 8 := by
    rw [iterate_crcBit_eq_shift]
    · apply BitVec.eq_of_getLsbD_eq
      intro i hi
      simp only [BitVec.getLsbD_ushiftRight, BitVec.getLsbD_and, BitVec.getLsbD_not, hmask]
      by_cases h32 : 8 + i < 32
      · simp [h32]
      · simp [BitVec.getLsbD_of_ge crc (8 + i) (by omega)]
    · intro i hi
      rw [BitVec.getLsbD_and, BitVec.getLsbD_not, hmask]
      simp [hi]
  rw [crcByte]
  conv_lhs => rw [hsplit]
  rw [iterate_crcBit_xor, hhigh]

end Checksum
