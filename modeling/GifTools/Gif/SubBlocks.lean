import GifTools.Gif.BitStatus

/-!
# Any sequence of codes

`GifWriteLzwImage` is one user of `GifWriteCode`. What the bit writer promises does not depend on
which codes it is given: no byte is stored outside the chunk, and the sub-blocks hold the bits of
the codes, wherever bytes and chunks end in the middle of them.
-/

namespace GifTools

open Bits

/-! ### The cells of the chunk -/

/-- Where `GifWriteBit` stores a byte. -/
def gifWriteBitStores (stat : GifBitStatus) : List Nat :=
  if stat.bitIndex + 1 > 7 then [stat.chunkIndex] else []

/-- Where `GifWriteCode` does. -/
def gifWriteCodeStores (buffer : GifVectorFileBuffer) (stat : GifBitStatus) (code : Nat) :
    Nat → List Nat
  | 0 => []
  | length + 1 =>
    gifWriteBitStores stat ++
      let stat := gifWriteBit stat code
      if stat.chunkIndex = 255 then
        let (buffer, stat) := gifWriteChunk buffer stat
        gifWriteCodeStores buffer stat (code >>> 1) length
      else gifWriteCodeStores buffer stat (code >>> 1) length

/-- Where the loop does that fills up the last byte. -/
def padByteStores : Nat → GifBitStatus → List Nat
  | 0, _ => []
  | n + 1, stat =>
    if stat.bitIndex ≠ 0 then gifWriteBitStores stat ++ padByteStores n (gifWriteBit stat 0) else []

lemma chunkIndex_gifWriteBit (stat : GifBitStatus) (bit : Nat) :
    (gifWriteBit stat bit).chunkIndex = stat.chunkIndex + (gifWriteBitStores stat).length := by
  rw [gifWriteBit, gifWriteBitStores]
  split <;> rfl

lemma lt_of_mem_gifWriteBitStores {stat : GifBitStatus} (hroom : stat.chunkIndex < 255) :
    ∀ i ∈ gifWriteBitStores stat, i < 255 := by
  intro i hi
  rw [gifWriteBitStores] at hi
  split at hi
  · rwa [List.mem_singleton.mp hi]
  · cases hi

/-- A chunk of 255 bytes is written before the next byte comes. -/
lemma lt_of_mem_gifWriteCodeStores {buffer : GifVectorFileBuffer} {stat : GifBitStatus}
    (hroom : stat.chunkIndex < 255) (code length : Nat) :
    ∀ i ∈ gifWriteCodeStores buffer stat code length, i < 255 := by
  induction length generalizing buffer stat code with
  | zero =>
    intro i hi
    cases hi
  | succ length ih =>
    intro i hi
    have hlength : (gifWriteBitStores stat).length ≤ 1 := by
      rw [gifWriteBitStores]
      split <;> simp
    have hchunk := chunkIndex_gifWriteBit stat code
    rw [gifWriteCodeStores] at hi
    rcases List.mem_append.mp hi with hi | hi
    · exact lt_of_mem_gifWriteBitStores hroom i hi
    · by_cases hfull : (gifWriteBit stat code).chunkIndex = 255
      · simp only [if_pos hfull] at hi
        exact ih (Nat.zero_lt_succ _) _ i hi
      · simp only [if_neg hfull] at hi
        exact ih (by omega) _ i hi

/-- Filling up the last byte stores at most that byte. -/
lemma lt_of_mem_padByteStores {n : Nat} {stat : GifBitStatus} (hroom : stat.chunkIndex < 255) :
    ∀ i ∈ padByteStores n stat, i < 255 := by
  induction n generalizing stat with
  | zero =>
    intro i hi
    cases hi
  | succ n ih =>
    intro i hi
    rw [padByteStores] at hi
    split at hi
    · rcases List.mem_append.mp hi with hi | hi
      · exact lt_of_mem_gifWriteBitStores hroom i hi
      · by_cases hfull : stat.bitIndex + 1 > 7
        · -- the byte is complete, and the loop is over
          have hzero : (gifWriteBit stat 0).bitIndex = 0 := by
            rw [gifWriteBit, if_pos hfull]
          cases n with
          | zero => cases hi
          | succ n =>
            rw [padByteStores, if_neg (not_not.mpr hzero)] at hi
            cases hi
        · refine ih ?_ i hi
          rw [chunkIndex_gifWriteBit, gifWriteBitStores, if_neg hfull]
          exact hroom
    · cases hi

/-! ### Sequences -/

/-- Calls of `GifWriteCode`, each with a code and its length. -/
def gifWriteCodes (out : GifVectorFileBuffer × GifBitStatus) (codes : List (Nat × Nat)) :
    GifVectorFileBuffer × GifBitStatus :=
  codes.foldl (fun out code => gifWriteCode out.1 out.2 code.1 code.2) out

def gifWriteCodesStores (out : GifVectorFileBuffer × GifBitStatus) : List (Nat × Nat) → List Nat
  | [] => []
  | code :: codes =>
    gifWriteCodeStores out.1 out.2 code.1 code.2 ++
      gifWriteCodesStores (gifWriteCode out.1 out.2 code.1 code.2) codes

/-- The bits of the codes, the least significant of each code first. -/
def codeBits (codes : List (Nat × Nat)) : List Bool :=
  codes.flatMap fun code => natBits code.2 code.1

variable {base : List UInt8} {bits : List Bool} {out : GifVectorFileBuffer × GifBitStatus}

lemma Writes.chunkIndex_lt (h : Writes base bits out) : out.2.chunkIndex < 255 := by
  obtain ⟨_, _, -, hroom⟩ := h
  exact hroom

lemma Writes.writeCodes (h : Writes base bits out) (codes : List (Nat × Nat)) :
    Writes base (bits ++ codeBits codes) (gifWriteCodes out codes) ∧
      ∀ i ∈ gifWriteCodesStores out codes, i < 255 := by
  induction codes generalizing bits out with
  | nil =>
    refine ⟨?_, fun i hi => by cases hi⟩
    rwa [codeBits, List.flatMap_nil, List.append_nil]
  | cons code codes ih =>
    obtain ⟨hwrites, hstores⟩ := ih (h.writeCode code.1 code.2)
    constructor
    · rwa [codeBits, List.flatMap_cons, ← List.append_assoc]
    · intro i hi
      rcases List.mem_append.mp hi with hi | hi
      · exact lt_of_mem_gifWriteCodeStores h.chunkIndex_lt _ _ i hi
      · exact hstores i hi

/-- The loop that fills up the last byte comes to an end. -/
lemma Writes.bitIndex_padByte (h : Writes base bits out) : (padByte 8 out.2).bitIndex = 0 := by
  obtain ⟨blocks, begun, hw, -⟩ := h
  obtain ⟨k, -, -, hpad, -⟩ := hw.padByte (n := 8) (by omega)
  exact hpad.bitIndex.symm

/-- Whatever codes are written after each other, from an empty status on: every byte is stored in
one of the first 255 cells of the chunk, the last byte is filled up, and the buffer has received
sub-blocks of 1 to 255 bytes and the empty one, which hold the bits of the codes and fewer than 8
zeros. -/
theorem gifWriteCodes_subBlocks (buffer : GifVectorFileBuffer) (chunk : Nat → UInt8)
    (codes : List (Nat × Nat)) :
    (∀ i ∈ gifWriteCodesStores (buffer, ⟨0, 0, 0, chunk⟩) codes ++
        padByteStores 8 (gifWriteCodes (buffer, ⟨0, 0, 0, chunk⟩) codes).2, i < 255) ∧
      (padByte 8 (gifWriteCodes (buffer, ⟨0, 0, 0, chunk⟩) codes).2).bitIndex = 0 ∧
      ∃ blocks : List (List UInt8), (∀ bytes ∈ blocks, bytes ≠ [] ∧ bytes.length ≤ 255) ∧
        (flushChunk (gifWriteCodes (buffer, ⟨0, 0, 0, chunk⟩) codes).1
          (gifWriteCodes (buffer, ⟨0, 0, 0, chunk⟩) codes).2).contents =
            buffer.contents ++ (blocks.flatMap block ++ [0]) ∧
        ∃ k < 8, byteBits blocks.flatten = codeBits codes ++ List.replicate k false := by
  obtain ⟨hwrites, hstores⟩ := (writes_start buffer chunk).writeCodes codes
  refine ⟨fun i hi => ?_, hwrites.bitIndex_padByte, hwrites.flushChunk⟩
  rcases List.mem_append.mp hi with hi | hi
  · exact hstores i hi
  · exact lt_of_mem_padByteStores hwrites.chunkIndex_lt i hi

end GifTools
