import GifTools.Core.Checksum
import Mathlib.Data.List.Basic

/-!
# Files of chunks

A file of chunks: each has a length, a type of four bytes, data, and a check sum of the type and the
data. `readChunks` accepts a signature and chunks up to the last one, if all check sums are right.
-/

namespace Chunks

/-- Four bytes, the most significant first. -/
def be32 (v : Nat) : List UInt8 :=
  [UInt8.ofNat (v >>> 24), UInt8.ofNat (v >>> 16), UInt8.ofNat (v >>> 8), UInt8.ofNat v]

def ofBe32 (bytes : List UInt8) : Nat := bytes.foldl (fun v b => v * 256 + b.toNat) 0

structure Chunk where
  type : List UInt8
  data : List UInt8
  deriving DecidableEq

/-- What the check sum is of. -/
def Chunk.body (c : Chunk) : List UInt8 := c.type ++ c.data

def Chunk.bytes (c : Chunk) : List UInt8 :=
  be32 c.data.length ++ (c.body ++ be32 (Checksum.crc32 c.body).toNat)

/-- A chunk, and what is behind it. -/
def readChunk (bytes : List UInt8) : Option (Chunk × List UInt8) :=
  let length := ofBe32 (bytes.take 4)
  let c : Chunk := ⟨(bytes.drop 4).take 4, (bytes.drop 8).take length⟩
  if 12 + length ≤ bytes.length ∧
      (bytes.drop (8 + length)).take 4 = be32 (Checksum.crc32 c.body).toNat then
    some (c, bytes.drop (12 + length))
  else none

/-- The chunks up to the one with the type `last`, behind which there is nothing. -/
def readChunks (last : List UInt8) : Nat → List UInt8 → Option (List Chunk)
  | 0, _ => none
  | n + 1, bytes =>
    match readChunk bytes with
    | none => none
    | some (c, rest) =>
      if c.type = last then if rest = [] then some [c] else none
      else (readChunks last n rest).map (c :: ·)

def readFile (signature last : List UInt8) (bytes : List UInt8) : Option (List Chunk) :=
  if signature <+: bytes then
    readChunks last bytes.length (bytes.drop signature.length)
  else none

lemma ofBe32_be32 {v : Nat} (h : v < 2 ^ 32) : ofBe32 (be32 v) = v := by
  simp only [ofBe32, be32, List.foldl_cons, List.foldl_nil, UInt8.toNat_ofNat',
    Nat.shiftRight_eq_div_pow]
  omega

@[simp] lemma length_be32 (v : Nat) : (be32 v).length = 4 := rfl

lemma readChunk_bytes {c : Chunk} (htype : c.type.length = 4) (hdata : c.data.length < 2 ^ 32)
    (rest : List UInt8) : readChunk (c.bytes ++ rest) = some (c, rest) := by
  have hbody : c.body.length = 4 + c.data.length := by
    rw [Chunk.body, List.length_append, htype]
  have hbytes : (c.bytes ++ rest).length = 12 + c.data.length + rest.length := by
    simp only [Chunk.bytes, List.length_append, length_be32, hbody]
    omega
  have h4 : (c.bytes ++ rest).take 4 = be32 c.data.length := by
    rw [Chunk.bytes, List.append_assoc]
    exact List.take_left' rfl
  have hd4 : (c.bytes ++ rest).drop 4 =
      c.type ++ (c.data ++ (be32 (Checksum.crc32 c.body).toNat ++ rest)) := by
    rw [Chunk.bytes, List.append_assoc, List.append_assoc, List.drop_left' (length_be32 _)]
    exact List.append_assoc _ _ _
  have hd8 : (c.bytes ++ rest).drop 8 =
      c.data ++ (be32 (Checksum.crc32 c.body).toNat ++ rest) := by
    rw [show 8 = 4 + 4 by rfl, ← List.drop_drop, hd4, List.drop_left' htype]
  have hsum : (c.bytes ++ rest).drop (8 + c.data.length) =
      be32 (Checksum.crc32 c.body).toNat ++ rest := by
    rw [← List.drop_drop, hd8, List.drop_left' rfl]
  have hrest : (c.bytes ++ rest).drop (12 + c.data.length) = rest := by
    rw [show 12 + c.data.length = 8 + c.data.length + 4 by omega, ← List.drop_drop, hsum,
      List.drop_left' (length_be32 _)]
  rw [readChunk]
  simp only [h4, ofBe32_be32 hdata, hd4, hd8, hsum, hrest, hbytes, List.take_left' htype,
    List.take_left' rfl, List.take_left' (length_be32 _)]
  rw [if_pos ⟨by omega, trivial⟩]

/-- A file that is written chunk by chunk is read as these chunks. -/
theorem readFile_bytes {signature last : List UInt8} {cs : List Chunk} {c : Chunk}
    (hcs : ∀ d ∈ cs, d.type.length = 4 ∧ d.data.length < 2 ^ 32 ∧ d.type ≠ last)
    (hc : c.type = last) (hlast : last.length = 4) (hdata : c.data.length < 2 ^ 32) :
    readFile signature last (signature ++ (cs.flatMap Chunk.bytes ++ c.bytes)) =
      some (cs ++ [c]) := by
  have hread : ∀ n, cs.length < n →
      readChunks last n (cs.flatMap Chunk.bytes ++ c.bytes) = some (cs ++ [c]) := by
    intro n hn
    induction cs generalizing n with
    | nil =>
      obtain ⟨m, rfl⟩ : ∃ m, n = m + 1 := ⟨n - 1, by rw [List.length_nil] at hn; omega⟩
      have hone := readChunk_bytes (hc ▸ hlast) hdata []
      rw [List.append_nil] at hone
      rw [List.flatMap_nil, List.nil_append, readChunks, hone]
      simp only [if_pos hc, if_true, List.nil_append]
    | cons d cs ih =>
      obtain ⟨m, rfl⟩ : ∃ m, n = m + 1 := ⟨n - 1, by omega⟩
      obtain ⟨htype, hlength, hne⟩ := hcs d List.mem_cons_self
      rw [List.flatMap_cons, List.append_assoc, readChunks, readChunk_bytes htype hlength]
      simp only [if_neg hne]
      rw [ih (fun e he => hcs e (List.mem_cons_of_mem _ he)) m
        (by rw [List.length_cons] at hn; omega)]
      rfl
  have hcount : ∀ ds : List Chunk, ds.length ≤ (ds.flatMap Chunk.bytes).length := by
    intro ds
    induction ds with
    | nil => exact Nat.zero_le _
    | cons d ds ih =>
      rw [List.flatMap_cons, List.length_append, List.length_cons, Chunk.bytes, List.length_append,
        length_be32]
      omega
  rw [readFile, if_pos (List.prefix_append _ _), List.drop_left]
  refine hread _ ?_
  have hle := hcount cs
  rw [List.length_append, List.length_append, Chunk.bytes, List.length_append, length_be32]
  omega

end Chunks
