import GifTools.Core.Bits
import Mathlib.Logic.Function.Basic

/-!
# Writing codes into sub-blocks

The bits of the image data are collected in a byte, the bytes in a chunk of at most 255, and the
chunks are written to the file buffer, each behind a byte with its length.
-/

namespace GifTools

/-- The characters of a `std::string_view`, which are ASCII in this program. -/
def asciiBytes (sv : String) : List UInt8 := sv.toList.map fun c => UInt8.ofNat c.toNat

/-- The bytes `GifVectorFileBuffer` collects. -/
structure GifVectorFileBuffer where
  contents : List UInt8

namespace GifVectorFileBuffer

/-- `Putc`: the low byte of an `int`. -/
def putc (buffer : GifVectorFileBuffer) (c : Nat) : GifVectorFileBuffer :=
  ⟨buffer.contents ++ [UInt8.ofNat c]⟩

/-- `Puts`. -/
def puts (buffer : GifVectorFileBuffer) (sv : String) : GifVectorFileBuffer :=
  ⟨buffer.contents ++ asciiBytes sv⟩

/-- `Write` of `sz * nitems` bytes at `p`. -/
def write (buffer : GifVectorFileBuffer) (p : Nat → UInt8) (sz nitems : Nat) :
    GifVectorFileBuffer :=
  ⟨buffer.contents ++ (List.range (sz * nitems)).map p⟩

end GifVectorFileBuffer

structure GifBitStatus where
  bitIndex : Nat
  byte : UInt8
  chunkIndex : Nat
  chunk : Nat → UInt8

/-- `GifWriteBit`. -/
def gifWriteBit (stat : GifBitStatus) (bit : Nat) : GifBitStatus :=
  let byte := stat.byte ||| UInt8.ofNat ((bit &&& 1) <<< stat.bitIndex)
  if stat.bitIndex + 1 > 7 then
    { bitIndex := 0
      byte := 0
      chunkIndex := stat.chunkIndex + 1
      chunk := Function.update stat.chunk stat.chunkIndex byte }
  else { stat with bitIndex := stat.bitIndex + 1, byte := byte }

/-- `GifWriteChunk`. -/
def gifWriteChunk (buffer : GifVectorFileBuffer) (stat : GifBitStatus) :
    GifVectorFileBuffer × GifBitStatus :=
  ((buffer.putc stat.chunkIndex).write stat.chunk 1 stat.chunkIndex,
    { stat with bitIndex := 0, byte := 0, chunkIndex := 0 })

/-- `GifWriteCode`. -/
def gifWriteCode (buffer : GifVectorFileBuffer) (stat : GifBitStatus) (code : Nat) :
    Nat → GifVectorFileBuffer × GifBitStatus
  | 0 => (buffer, stat)
  | length + 1 =>
    let stat := gifWriteBit stat code
    if stat.chunkIndex = 255 then
      let (buffer, stat) := gifWriteChunk buffer stat
      gifWriteCode buffer stat (code >>> 1) length
    else gifWriteCode buffer stat (code >>> 1) length

/-- `while( stat.bitIndex ) GifWriteBit(stat, 0)`, at most `n` times. -/
def padByte : Nat → GifBitStatus → GifBitStatus
  | 0, stat => stat
  | n + 1, stat => if stat.bitIndex ≠ 0 then padByte n (gifWriteBit stat 0) else stat

/-- The end of the image data: the last byte is filled up and the last chunk written, and an empty
one behind it. -/
def flushChunk (buffer : GifVectorFileBuffer) (stat : GifBitStatus) : GifVectorFileBuffer :=
  let stat := padByte 8 stat
  let buffer := if stat.chunkIndex ≠ 0 then (gifWriteChunk buffer stat).1 else buffer
  buffer.putc 0

/-! ### Reading sub-blocks -/

/-- The bytes of the sub-blocks up to the empty one, and what follows that; the first argument is
the number of bytes left in the current sub-block. -/
def subBlocks : Nat → List UInt8 → Option (List UInt8 × List UInt8)
  | _, [] => none
  | 0, n :: rest => if n = 0 then some ([], rest) else subBlocks n.toNat rest
  | k + 1, b :: rest => (subBlocks k rest).map fun (bytes, rest) => (b :: bytes, rest)

/-- One sub-block as written. -/
def block (bytes : List UInt8) : List UInt8 := UInt8.ofNat bytes.length :: bytes

lemma subBlocks_append (bytes rest : List UInt8) :
    subBlocks bytes.length (bytes ++ rest) =
      (subBlocks 0 rest).map fun (bytes', rest) => (bytes ++ bytes', rest) := by
  induction bytes with
  | nil => simp
  | cons b bytes ih =>
    rw [List.length_cons, List.cons_append, subBlocks, ih, Option.map_map]
    rfl

lemma subBlocks_block {bytes : List UInt8} (hpos : bytes ≠ []) (hlen : bytes.length ≤ 255)
    (rest : List UInt8) :
    subBlocks 0 (block bytes ++ rest) =
      (subBlocks 0 rest).map fun (bytes', rest) => (bytes ++ bytes', rest) := by
  have hlen' : (UInt8.ofNat bytes.length).toNat = bytes.length := by
    rw [UInt8.toNat_ofNat']
    omega
  have hne : UInt8.ofNat bytes.length ≠ 0 := by
    intro h
    rw [h] at hlen'
    exact hpos (List.length_eq_zero_iff.mp hlen'.symm)
  rw [block, List.cons_append, subBlocks, if_neg hne, hlen', subBlocks_append]

/-- Sub-blocks of 1 to 255 bytes and the empty one are read back. -/
lemma subBlocks_blocks {blocks : List (List UInt8)}
    (h : ∀ bytes ∈ blocks, bytes ≠ [] ∧ bytes.length ≤ 255) (rest : List UInt8) :
    subBlocks 0 (blocks.flatMap block ++ 0 :: rest) = some (blocks.flatten, rest) := by
  induction blocks with
  | nil => rfl
  | cons bytes blocks ih =>
    obtain ⟨hpos, hlen⟩ := h bytes List.mem_cons_self
    rw [List.flatMap_cons, List.append_assoc, subBlocks_block hpos hlen,
      ih fun bytes' hmem => h bytes' (List.mem_cons_of_mem _ hmem)]
    rfl

/-! ### The bits written so far -/

open Bits

/-- The bytes waiting in the chunk. -/
def GifBitStatus.chunkBytes (stat : GifBitStatus) : List UInt8 :=
  (List.range stat.chunkIndex).map stat.chunk

/-- Since the buffer held `base`, the bits `bits` were written: full sub-blocks of them are in the
buffer, then come the bytes of the chunk and the bits of the byte begun. -/
structure Written (base : List UInt8) (bits : List Bool) (buffer : GifVectorFileBuffer)
    (stat : GifBitStatus) (blocks : List (List UInt8)) (begun : List Bool) : Prop where
  contents : buffer.contents = base ++ blocks.flatMap block
  full : ∀ bytes ∈ blocks, bytes.length = 255
  bits : bits = byteBits (blocks.flatten ++ stat.chunkBytes) ++ begun
  begun_lt : begun.length < 8
  bitIndex : begun.length = stat.bitIndex
  byte : stat.byte = UInt8.ofNat (bitsNat begun)

@[simp] lemma length_chunkBytes (stat : GifBitStatus) :
    stat.chunkBytes.length = stat.chunkIndex := by
  simp [GifBitStatus.chunkBytes]

lemma chunkBytes_push (chunk : Nat → UInt8) (i : Nat) (b : UInt8) :
    (⟨0, 0, i + 1, Function.update chunk i b⟩ : GifBitStatus).chunkBytes =
      (List.range i).map chunk ++ [b] := by
  rw [GifBitStatus.chunkBytes, List.range_succ, List.map_append]
  congr 1
  · apply List.map_congr_left
    intro j hj
    exact Function.update_of_ne (List.mem_range.mp hj).ne ..
  · exact congrArg (fun c => [c]) (Function.update_self ..)

/-- Adding the next bit to the byte begun. -/
lemma byte_or_bit {begun : List Bool} (h : begun.length < 8) (code : Nat) :
    UInt8.ofNat (bitsNat begun) ||| UInt8.ofNat ((code &&& 1) <<< begun.length) =
      UInt8.ofNat (bitsNat (begun ++ [decide (code % 2 = 1)])) := by
  have hlt := bitsNat_lt begun
  have hpow : 2 ^ begun.length ≤ 2 ^ 7 := Nat.pow_le_pow_right (by decide) (by omega)
  have hbit : code % 2 < 2 := Nat.mod_lt _ (by decide)
  have hshift : (code &&& 1) <<< begun.length = 2 ^ begun.length * (code % 2) := by
    rw [Nat.and_one_is_mod, Nat.shiftLeft_eq, Nat.mul_comm]
  have hor : 2 ^ begun.length * (code % 2) ||| bitsNat begun =
      2 ^ begun.length * (code % 2) + bitsNat begun :=
    (Nat.two_pow_add_eq_or_of_lt hlt _).symm
  have hsmall : 2 ^ begun.length * (code % 2) ≤ 2 ^ begun.length :=
    (Nat.mul_le_mul_left _ (Nat.le_of_lt_succ hbit)).trans_eq (Nat.mul_one _)
  have hnew : bitsNat (begun ++ [decide (code % 2 = 1)]) =
      bitsNat begun + 2 ^ begun.length * (code % 2) := by
    rw [bitsNat_append, bitsNat, toNat_decide_mod_two, bitsNat, Nat.mul_zero, Nat.add_zero]
  rw [hnew, hshift]
  generalize 2 ^ begun.length * (code % 2) = high at hor hsmall
  apply UInt8.toNat_inj.mp
  rw [UInt8.toNat_or, UInt8.toNat_ofNat', UInt8.toNat_ofNat', UInt8.toNat_ofNat',
    Nat.mod_eq_of_lt (by omega), Nat.mod_eq_of_lt (by omega), Nat.mod_eq_of_lt (by omega),
    Nat.or_comm, hor, Nat.add_comm]

namespace Written

variable {base : List UInt8} {bits : List Bool} {buffer : GifVectorFileBuffer}
  {stat : GifBitStatus} {blocks : List (List UInt8)} {begun : List Bool}

lemma writeBit (h : Written base bits buffer stat blocks begun) (code : Nat) :
    ∃ begun', Written base (bits ++ [decide (code % 2 = 1)]) buffer (gifWriteBit stat code) blocks
        begun' ∧
      (begun' = begun ++ [decide (code % 2 = 1)] ∧
          (gifWriteBit stat code).chunkIndex = stat.chunkIndex ∨
        stat.bitIndex = 7 ∧ begun' = [] ∧
          (gifWriteBit stat code).chunkIndex = stat.chunkIndex + 1) := by
  have hlt := h.begun_lt
  have hindex := h.bitIndex
  have hlen : (begun ++ [decide (code % 2 = 1)]).length = stat.bitIndex + 1 := by
    rw [List.length_append, List.length_singleton, hindex]
  have hbyte := byte_or_bit hlt code
  rw [← h.byte, hindex] at hbyte
  rw [gifWriteBit, hbyte]
  by_cases hfull : stat.bitIndex + 1 > 7
  · -- the byte is complete and goes to the chunk
    have h8 : (begun ++ [decide (code % 2 = 1)]).length = 8 := by omega
    have hbits : natBits 8 (bitsNat (begun ++ [decide (code % 2 = 1)])) =
        begun ++ [decide (code % 2 = 1)] := by
      rw [← h8, natBits_bitsNat]
    have hsmall : bitsNat (begun ++ [decide (code % 2 = 1)]) < 256 := by
      have := bitsNat_lt (begun ++ [decide (code % 2 = 1)])
      rwa [h8] at this
    rw [if_pos hfull]
    refine ⟨[], ⟨h.contents, h.full, ?_, by decide, rfl, rfl⟩, .inr ⟨by omega, rfl, rfl⟩⟩
    rw [chunkBytes_push, ← List.append_assoc, byteBits_append, byteBits_singleton,
      UInt8.toNat_ofNat', Nat.mod_eq_of_lt hsmall, hbits, h.bits, List.append_nil,
      List.append_assoc]
    rfl
  · rw [if_neg hfull]
    refine ⟨begun ++ [decide (code % 2 = 1)], ⟨h.contents, h.full, ?_, by omega, hlen, rfl⟩,
      .inl ⟨rfl, rfl⟩⟩
    rw [h.bits, List.append_assoc]
    rfl

lemma contents_writeChunk (buffer : GifVectorFileBuffer) (stat : GifBitStatus) :
    (gifWriteChunk buffer stat).1.contents = buffer.contents ++ block stat.chunkBytes := by
  rw [gifWriteChunk, GifVectorFileBuffer.write, GifVectorFileBuffer.putc, Nat.one_mul, block,
    length_chunkBytes, List.append_assoc]
  rfl

lemma writeChunk (h : Written base bits buffer stat blocks []) (hfull : stat.chunkIndex = 255) :
    Written base bits (gifWriteChunk buffer stat).1 (gifWriteChunk buffer stat).2
      (blocks ++ [stat.chunkBytes]) [] where
  contents := by
    rw [contents_writeChunk, h.contents, List.flatMap_append, List.append_assoc]
    simp
  full bytes hbytes := by
    rcases List.mem_append.mp hbytes with hbytes | hbytes
    · exact h.full bytes hbytes
    · rw [List.mem_singleton.mp hbytes, length_chunkBytes, hfull]
  bits := by
    rw [h.bits, List.flatten_append]
    simp [gifWriteChunk, GifBitStatus.chunkBytes]
  begun_lt := by decide
  bitIndex := rfl
  byte := rfl

lemma writeCode (h : Written base bits buffer stat blocks begun) (hroom : stat.chunkIndex < 255)
    (code length : Nat) :
    ∃ blocks' begun', Written base (bits ++ natBits length code)
        (gifWriteCode buffer stat code length).1 (gifWriteCode buffer stat code length).2 blocks'
        begun' ∧
      (gifWriteCode buffer stat code length).2.chunkIndex < 255 := by
  induction length generalizing bits buffer stat blocks begun code with
  | zero => exact ⟨blocks, begun, by rwa [natBits_zero, List.append_nil], hroom⟩
  | succ length ih =>
    obtain ⟨begun', h', hchunk⟩ := h.writeBit code
    rw [gifWriteCode, natBits, ← List.singleton_append, ← List.append_assoc,
      show code / 2 = code >>> 1 from (Nat.shiftRight_one code).symm]
    by_cases hfull : (gifWriteBit stat code).chunkIndex = 255
    · obtain rfl : begun' = [] := (hchunk.resolve_left (by omega)).2.1
      simp only [if_pos hfull]
      exact ih (h'.writeChunk hfull) (by exact Nat.zero_lt_succ _) _
    · simp only [if_neg hfull]
      exact ih h' (by omega) _

lemma padByte_of_zero {n : Nat} {stat : GifBitStatus} (h : stat.bitIndex = 0) :
    GifTools.padByte n stat = stat := by
  cases n with
  | zero => rfl
  | succ n => exact if_neg (not_not.mpr h)

/-- The last byte is filled up with zeros. -/
lemma padByte {n : Nat} (h : Written base bits buffer stat blocks begun)
    (hn : 8 ≤ stat.bitIndex + n) :
    ∃ k, (stat.bitIndex = 0 → k = 0) ∧ k + stat.bitIndex ≤ 8 ∧
      Written base (bits ++ List.replicate k false) buffer (GifTools.padByte n stat) blocks [] ∧
      (GifTools.padByte n stat).chunkIndex ≤ stat.chunkIndex + 1 := by
  induction n generalizing bits stat begun with
  | zero =>
    have := h.begun_lt
    have := h.bitIndex
    omega
  | succ n ih =>
    rw [GifTools.padByte]
    by_cases hzero : stat.bitIndex = 0
    · obtain rfl : begun = [] := List.length_eq_zero_iff.mp (h.bitIndex.trans hzero)
      rw [if_neg (not_not.mpr hzero)]
      exact ⟨0, fun _ => rfl, by omega, by rwa [List.replicate_zero, List.append_nil],
        Nat.le_succ _⟩
    · obtain ⟨begun', h', hchunk⟩ := h.writeBit 0
      rw [if_pos hzero]
      rcases hchunk with ⟨rfl, hchunk⟩ | ⟨hseven, rfl, hchunk⟩
      · have hindex : (gifWriteBit stat 0).bitIndex = stat.bitIndex + 1 := by
          rw [← h'.bitIndex, List.length_append, List.length_singleton, h.bitIndex]
        obtain ⟨k, -, hk, hpad, hle⟩ := ih h' (by omega)
        refine ⟨k + 1, fun h0 => absurd h0 hzero, by omega, ?_, by omega⟩
        rwa [List.replicate_succ, ← List.singleton_append, ← List.append_assoc]
      · have hindex : (gifWriteBit stat 0).bitIndex = 0 := h'.bitIndex.symm
        rw [padByte_of_zero hindex]
        exact ⟨1, fun h0 => absurd h0 hzero, by omega, h', by omega⟩

end Written

/-- Between two codes: the bits written since the buffer held `base`. -/
def Writes (base : List UInt8) (bits : List Bool) (out : GifVectorFileBuffer × GifBitStatus) :
    Prop :=
  ∃ blocks begun, Written base bits out.1 out.2 blocks begun ∧ out.2.chunkIndex < 255

lemma writes_start (buffer : GifVectorFileBuffer) (chunk : Nat → UInt8) :
    Writes buffer.contents [] (buffer, ⟨0, 0, 0, chunk⟩) :=
  ⟨[], [], ⟨by simp, by simp, rfl, by decide, rfl, rfl⟩, Nat.zero_lt_succ _⟩

lemma Writes.writeCode {base : List UInt8} {bits : List Bool}
    {out : GifVectorFileBuffer × GifBitStatus} (h : Writes base bits out) (code length : Nat) :
    Writes base (bits ++ natBits length code) (gifWriteCode out.1 out.2 code length) := by
  obtain ⟨blocks, begun, hw, hroom⟩ := h
  exact hw.writeCode hroom code length

/-- What is in the buffer when the data is complete: sub-blocks of 1 to 255 bytes and the empty
one, whose bits are those written and fewer than 8 zeros. -/
lemma Writes.flushChunk {base : List UInt8} {bits : List Bool}
    {out : GifVectorFileBuffer × GifBitStatus} (h : Writes base bits out) :
    ∃ blocks : List (List UInt8), (∀ bytes ∈ blocks, bytes ≠ [] ∧ bytes.length ≤ 255) ∧
      (flushChunk out.1 out.2).contents = base ++ (blocks.flatMap block ++ [0]) ∧
      ∃ k < 8, byteBits blocks.flatten = bits ++ List.replicate k false := by
  obtain ⟨blocks, begun, hw, hroom⟩ := h
  obtain ⟨k, hk0, hk, hpad, hchunk⟩ := hw.padByte (n := 8) (by omega)
  have hk8 : k < 8 := by
    by_cases h0 : out.2.bitIndex = 0
    · rw [hk0 h0]
      decide
    · omega
  have hfull : ∀ bytes ∈ blocks, bytes ≠ [] ∧ bytes.length ≤ 255 := by
    intro bytes hbytes
    have := hw.full bytes hbytes
    exact ⟨List.ne_nil_of_length_pos (by omega), by omega⟩
  have hbits := hpad.bits
  rw [List.append_nil] at hbits
  rw [GifTools.flushChunk]
  by_cases hempty : (padByte 8 out.2).chunkIndex = 0
  · refine ⟨blocks, hfull, ?_, k, hk8, ?_⟩
    · simp only [if_neg (not_not.mpr hempty)]
      rw [GifVectorFileBuffer.putc, hw.contents, List.append_assoc]
      rfl
    · rw [hbits, GifBitStatus.chunkBytes, hempty, List.range_zero, List.map_nil, List.append_nil]
  · refine ⟨blocks ++ [(padByte 8 out.2).chunkBytes], fun bytes hbytes => ?_, ?_, k, hk8, ?_⟩
    · rcases List.mem_append.mp hbytes with hbytes | hbytes
      · exact hfull bytes hbytes
      · rw [List.mem_singleton.mp hbytes]
        exact ⟨List.ne_nil_of_length_pos (by rw [length_chunkBytes]; omega),
          by rw [length_chunkBytes]; omega⟩
    · simp only [if_pos hempty]
      rw [GifVectorFileBuffer.putc, Written.contents_writeChunk, hw.contents, List.flatMap_append]
      simp
    · rw [hbits, List.flatten_append]
      simp

end GifTools
