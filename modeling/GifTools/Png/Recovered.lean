import GifTools.Png.Blocks
import GifTools.Png.Compressed

/-!
# What has been compressed

The decompressor gives back what the compressor was given. It needs to know of the compressed bytes
only that they are a stream in the fixed codes.
-/

namespace GifTools

open Bits Canonical Deflate

variable {bytes header checksum data : List UInt8}

lemma stbiZlibDecode_of_isFixedStream {cmf flg : UInt8} (hheader : HeaderOk cmf flg)
    (h : IsFixedStream [cmf, flg] checksum bytes data) {size : Int}
    (hsize : 0 ≤ size ∧ size < 2 ^ 31) (hroom : HasRoom size.toNat data.length) {rounds : Nat}
    (hrounds : data.length < rounds) (g : Zhuffman) :
    stbiZlibDecode rounds g bytes size true = .ok data := by
  obtain ⟨ts, hts, hstream⟩ := isStream_of_isFixedStream h
  refine stbiZlibDecode_of_blocks hheader hstream hsize hroom
    (by rw [List.length_singleton]; omega) ?_ g
  rintro b (_ | ⟨_, hb⟩)
  · exact hts.trans_lt hrounds
  · exact absurd hb List.not_mem_nil

/-- Nothing gets longer by more than an eighth and nine bytes. -/
lemma length_of_isFixedStream (h : IsFixedStream header checksum bytes data) :
    8 * bytes.length ≤ 9 * data.length + 8 * header.length + 8 * checksum.length + 19 := by
  obtain ⟨ts, pad, hts, hdata, hpad, hbits⟩ := h
  have hlength := congrArg List.length hbits
  have hblock := length_blockBits_fixed hts
  have hsize := length_expand hts hdata
  simp only [List.length_append, length_byteBits, length_natBits, List.length_replicate] at hlength
  rw [List.length_nil, Nat.zero_add] at hsize
  omega

lemma header_prefix_of_isFixedStream (h : IsFixedStream header checksum bytes data) :
    header <+: bytes := by
  obtain ⟨ts, pad, -, -, -, hbits⟩ := h
  simp only [List.append_assoc] at hbits
  obtain ⟨rest, rfl, -⟩ := exists_of_byteBits_eq hbits
  exact List.prefix_append _ _

/-- The capacity and one doubles. -/
lemma stbiwSbgrowf_ok {n k r m : Nat} (hn : n + 1 < 2 ^ k * (m + 1))
    (hlt : 2 ^ k * (m + 1) ≤ 2 ^ 31) (hk : k < r) :
    ∃ m', stbiwSbgrowf n r m = .ok m' := by
  induction k generalizing m r with
  | zero =>
    obtain ⟨r, rfl⟩ : ∃ s, r = s + 1 := ⟨r - 1, by omega⟩
    rw [pow_zero, Nat.one_mul] at hn
    exact ⟨m, if_pos (Nat.lt_of_succ_lt_succ hn)⟩
  | succ k ih =>
    obtain ⟨r, rfl⟩ : ∃ s, r = s + 1 := ⟨r - 1, by omega⟩
    have hdouble : 2 ^ (k + 1) * (m + 1) = 2 ^ k * (2 * m + 1 + 1) := by
      rw [pow_succ, Nat.mul_assoc]
      rfl
    rw [hdouble] at hn hlt
    have hle : 2 * m + 1 + 1 ≤ 2 ^ k * (2 * m + 1 + 1) :=
      Nat.le_mul_of_pos_left _ (Nat.two_pow_pos k)
    rw [stbiwSbgrowf]
    split_ifs with hless hover
    · exact ⟨m, rfl⟩
    · omega
    · exact ih hn hlt (by omega)

/-- As many bytes can be compressed without an overflow. -/
lemma stbiZlibCompress_ok (hlength : 4 * data.length ≤ 5 * 2 ^ 30) (quality : Nat) :
    stbiZlibCompress data quality = .ok (zlibBytes data quality) := by
  have hbound := length_of_isFixedStream (isFixedStream_zlibBytes data quality)
  have hadler : (Checksum.adlerBytes data).length = 4 := rfl
  rw [hadler, List.length_cons, List.length_singleton] at hbound
  obtain ⟨m, hm⟩ := stbiwSbgrowf_ok (n := (zlibBytes data quality).length) (k := 29) (m := 2)
    (r := 31) (by omega) (by omega) (by omega)
  simp only [stbiZlibCompress, hm]
  rfl

/-- What has been compressed is decompressed, at whatever level, and into whatever tables, if there
are at most `2 ^ 30` bytes of it. The loops end after as many rounds as there are bytes, and one. -/
theorem stbiZlibDecode_stbiZlibCompress (data : List UInt8) (quality rounds : Nat) (g : Zhuffman)
    (initial_size : Int) (hlength : data.length ≤ 2 ^ 30)
    (hsize : 0 < initial_size ∧ initial_size < 2 ^ 31) (hrounds : data.length < rounds) :
    ∃ zlib, stbiZlibCompress data quality = .ok zlib ∧
      stbiZlibDecode rounds g zlib initial_size true = .ok data ∧
      8 * zlib.length ≤ 9 * data.length + 67 := by
  have hstream := isFixedStream_zlibBytes data quality
  have hroom : HasRoom initial_size.toNat data.length :=
    hasRoom_of_pos (by omega) (by omega) hlength
  exact ⟨_, stbiZlibCompress_ok (by omega) quality,
    stbiZlibDecode_of_isFixedStream (by decide) hstream ⟨hsize.1.le, hsize.2⟩ hroom hrounds g,
    length_of_isFixedStream hstream⟩

/-- Three bytes that are repeated, into too little room. -/
theorem stbiZlibDecode_stbiZlibCompress_repeated :
    ∃ zlib, stbiZlibCompress [1, 2, 3, 1, 2, 3, 1, 2, 3] 8 = .ok zlib ∧
      stbiZlibDecode 10 Zhuffman.zero zlib 2 true = .ok [1, 2, 3, 1, 2, 3, 1, 2, 3] ∧
      8 * zlib.length ≤ 9 * 9 + 67 :=
  stbiZlibDecode_stbiZlibCompress [1, 2, 3, 1, 2, 3, 1, 2, 3] 8 10 _ 2 (by decide) (by decide)
    (by decide)

end GifTools
