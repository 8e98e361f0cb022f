import GifTools.Core.Lz77
import GifTools.Png.Huffman

/-!
# The decompressor behind the image loader

The zlib decoder of `stb_image`: stored blocks, blocks with the fixed codes and blocks that bring
their own. Behind the end of its input it goes on reading zeros. A loop that need not end takes the
number of its rounds as an argument.
-/

namespace GifTools

open Bits Canonical Cells Lz77

/-! ### Bits -/

/-- `zbuffer` are the bytes up to `zbuffer_end`, `zout` those from `zout_start` on, and `zout_end`
is how many of these there is room for. -/
structure Zbuf where
  zbuffer : List UInt8
  num_bits : Nat
  code_buffer : Nat
  zout : List UInt8
  zout_end : Nat
  z_length : Zhuffman
  z_distance : Zhuffman

def stbiZget8 (z : Zbuf) : UInt8 × Zbuf :=
  match z.zbuffer with
  | [] => (0, z)
  | b :: zbuffer => (b, { z with zbuffer := zbuffer })

/-- Behind the end there are zeros. -/
lemma stbiZget8_eq (z : Zbuf) :
    stbiZget8 z = (z.zbuffer.headD 0, { z with zbuffer := z.zbuffer.tail }) := by
  obtain ⟨zbuffer⟩ := z
  cases zbuffer <;> rfl

/-- The body of the loop of `stbi__fill_bits`. -/
def fillByte (z : Zbuf) : Zbuf :=
  let (b, z) := stbiZget8 z
  { z with code_buffer := z.code_buffer ||| b.toNat <<< z.num_bits, num_bits := z.num_bits + 8 }

lemma num_bits_fillByte (z : Zbuf) : (fillByte z).num_bits = z.num_bits + 8 := by
  simp only [fillByte, stbiZget8_eq]

def stbiFillBits (z : Zbuf) : Zbuf :=
  if (fillByte z).num_bits ≤ 24 then stbiFillBits (fillByte z) else fillByte z
termination_by 24 - z.num_bits
decreasing_by
  rename_i h
  rw [num_bits_fillByte] at h ⊢
  omega

def stbiZreceive (z : Zbuf) (n : Nat) : Nat × Zbuf :=
  let z := if z.num_bits < n then stbiFillBits z else z
  (z.code_buffer &&& (1 <<< n - 1),
    { z with code_buffer := z.code_buffer >>> n, num_bits := z.num_bits - n })

/-- Extra bits are read if there are any. -/
def receiveExtra (z : Zbuf) (n : Nat) : Nat × Zbuf := if n ≠ 0 then stbiZreceive z n else (0, z)

/-! ### Words -/

/-- `for (s = s; ; ++s) if (k < z->maxcode[s]) break;`, which ends at the sentinel. -/
def slowLength (z : Zhuffman) (k : Nat) : Nat → Nat → Nat
  | 0, s => s
  | n + 1, s => if k < read z.maxcode s then s else slowLength z k n (s + 1)

/-- `none` is the result -1. -/
def stbiZhuffmanDecodeSlowpath (a : Zbuf) (z : Zhuffman) :
    Except StbiFailure (Option Nat × Zbuf) :=
  let k := stbiBitReverse a.code_buffer 16
  let s := slowLength z k 6 10
  if s = 16 then .ok (none, a)
  else
    let b := k >>> (16 - s) - read z.firstcode s + read z.firstsymbol s
    if read z.size b ≠ s then .error .assertion
    else .ok (some (read z.value b),
      { a with code_buffer := a.code_buffer >>> s, num_bits := a.num_bits - s })

def stbiZhuffmanDecode (a : Zbuf) (z : Zhuffman) : Except StbiFailure (Option Nat × Zbuf) :=
  let a := if a.num_bits < 16 then stbiFillBits a else a
  let b := read z.fast (a.code_buffer &&& 511)
  if b ≠ 0 then
    let s := b >>> 9
    .ok (some (b &&& 511),
      { a with code_buffer := a.code_buffer >>> s, num_bits := a.num_bits - s })
  else stbiZhuffmanDecodeSlowpath a z

/-! ### Room -/

/-- `while (cur + n > limit) limit *= 2;` for an `int`, which is doubled less than 32 times unless
it is zero. -/
def doubleLimit (needed : Nat) : Nat → Nat → Except StbiFailure Nat
  | 0, _ => .error .running
  | rounds + 1, limit =>
    if needed ≤ limit then .ok limit
    else if 2 ^ 31 ≤ 2 * limit then .error .overflow
    else doubleLimit needed rounds (2 * limit)

/-- The output grows. -/
def stbiZexpand (z : Zbuf) (n : Nat) : Except StbiFailure Zbuf :=
  (doubleLimit (z.zout.length + n) 32 z.zout_end).map fun limit => { z with zout_end := limit }

/-- Before `n` bytes are written. -/
def makeRoom (a : Zbuf) (n : Nat) : Except StbiFailure Zbuf :=
  if a.zout_end < a.zout.length + n then stbiZexpand a n else .ok a

/-! ### Blocks -/

def zlengthBase : List Nat :=
  [3, 4, 5, 6, 7, 8, 9, 10, 11, 13, 15, 17, 19, 23, 27, 31, 35, 43, 51, 59, 67, 83, 99, 115, 131,
    163, 195, 227, 258, 0, 0]

def zlengthExtra : List Nat :=
  [0, 0, 0, 0, 0, 0, 0, 0, 1, 1, 1, 1, 2, 2, 2, 2, 3, 3, 3, 3, 4, 4, 4, 4, 5, 5, 5, 5, 0, 0, 0]

def zdistBase : List Nat :=
  [1, 2, 3, 4, 5, 7, 9, 13, 17, 25, 33, 49, 65, 97, 129, 193, 257, 385, 513, 769, 1025, 1537, 2049,
    3073, 4097, 6145, 8193, 12289, 16385, 24577, 0, 0]

/-- The entries that are not given are zero. -/
def zdistExtra : List Nat :=
  [0, 0, 0, 0, 1, 1, 2, 2, 3, 3, 4, 4, 5, 5, 6, 6, 7, 7, 8, 8, 9, 9, 10, 10, 11, 11, 12, 12, 13,
    13, 0, 0]

/-- `len` bytes from `dist` before the end of the output. Nothing lies there yet if `dist` is zero;
a run of one byte has a loop of its own. -/
def copyMatch (zout : List UInt8) (len dist : Nat) : Except StbiFailure (List UInt8) :=
  if len = 0 then .ok zout
  else if dist = 0 then .error .uninitialised
  else if dist = 1 then .ok (zout ++ List.replicate len (zout.getLastD 0))
  else .ok (copyBack dist len zout)

/-- The copy, if there are so many bytes already. -/
def writeCopy (a : Zbuf) (len dist : Nat) : Except StbiFailure Zbuf :=
  if a.zout.length < dist then .error (.err "bad dist")
  else do
    let a ← makeRoom a len
    let zout ← copyMatch a.zout len dist
    return { a with zout := zout }

/-- The length behind a length symbol, then the distance, and the copy. -/
def parseMatch (a : Zbuf) (z : Nat) : Except StbiFailure Zbuf :=
  let (extra, a) := receiveExtra a (zlengthExtra.getD z 0)
  let len := zlengthBase.getD z 0 + extra
  match stbiZhuffmanDecode a a.z_distance with
  | .error failure => .error failure
  | .ok (none, _) => .error (.err "bad huffman code")
  | .ok (some z, a) =>
    let (extra, a) := receiveExtra a (zdistExtra.getD z 0)
    writeCopy a len (zdistBase.getD z 0 + extra)

def writeLiteral (a : Zbuf) (z : Nat) : Except StbiFailure Zbuf := do
  let a ← makeRoom a 1
  return { a with zout := a.zout ++ [UInt8.ofNat z] }

/-- The body of the loop of `stbi__parse_huffman_block`, with `true` at the end of the block. -/
def parseSymbol (a : Zbuf) : Except StbiFailure (Bool × Zbuf) :=
  match stbiZhuffmanDecode a a.z_length with
  | .error failure => .error failure
  | .ok (none, _) => .error (.err "bad huffman code")
  | .ok (some z, a) =>
    if z < 256 then (writeLiteral a z).map fun a => (false, a)
    else if z = 256 then .ok (true, a)
    else (parseMatch a (z - 257)).map fun a => (false, a)

def stbiParseHuffmanBlock : Nat → Zbuf → Except StbiFailure Zbuf
  | 0, _ => .error .running
  | n + 1, a =>
    match parseSymbol a with
    | .error failure => .error failure
    | .ok (true, a) => .ok a
    | .ok (false, a) => stbiParseHuffmanBlock n a

def lengthDezigzag : List Nat :=
  [16, 17, 18, 0, 8, 7, 9, 6, 10, 5, 11, 4, 12, 3, 13, 2, 14, 1, 15]

/-- The lengths of the words for lengths, three bits each. -/
def receiveCodelengths (a : Zbuf) (codelength_sizes : List Nat) : List Nat → List Nat × Zbuf
  | [] => (codelength_sizes, a)
  | i :: is =>
    let (s, a) := stbiZreceive a 3
    receiveCodelengths a (codelength_sizes.set i s) is

/-- `while (n < ntot)`, in which `lencodes` has its first `n` entries. -/
def receiveLencodes (z_codelength : Zhuffman) (ntot : Nat) :
    Nat → Zbuf → List Nat → Except StbiFailure (List Nat × Zbuf)
  | 0, a, lencodes =>
    if lencodes.length < ntot then .error .running else .ok (lencodes, a)
  | rounds + 1, a, lencodes =>
    if ntot ≤ lencodes.length then .ok (lencodes, a)
    else
      match stbiZhuffmanDecode a z_codelength with
      | .error failure => .error failure
      | .ok (none, _) => .error (.err "bad codelengths")
      | .ok (some c, a) =>
        if 19 ≤ c then .error (.err "bad codelengths")
        else if c < 16 then receiveLencodes z_codelength ntot rounds a (lencodes ++ [c])
        else if c = 16 ∧ lencodes = [] then .error (.err "bad codelengths")
        else
          let fill := if c = 16 then lencodes.getLastD 0 else 0
          let (extra, a) := stbiZreceive a (if c = 16 then 2 else if c = 17 then 3 else 7)
          let c := extra + if c = 18 then 11 else 3
          if ntot - lencodes.length < c then .error (.err "bad codelengths")
          else receiveLencodes z_codelength ntot rounds a (lencodes ++ List.replicate c fill)

/-- Every round enters at least one length, so `ntot` rounds are enough. -/
def stbiComputeHuffmanCodes (a : Zbuf) (z_codelength : Zhuffman) : Except StbiFailure Zbuf := do
  let (hlit, a) := stbiZreceive a 5
  let (hdist, a) := stbiZreceive a 5
  let (hclen, a) := stbiZreceive a 4
  let hlit := hlit + 257
  let hdist := hdist + 1
  let ntot := hlit + hdist
  let (codelength_sizes, a) :=
    receiveCodelengths a (List.replicate 19 0) (lengthDezigzag.take (hclen + 4))
  let z_codelength ← stbiZbuildHuffman z_codelength codelength_sizes
  let (lencodes, a) ← receiveLencodes z_codelength ntot ntot a []
  let z_length ← stbiZbuildHuffman a.z_length (lencodes.take hlit)
  let z_distance ← stbiZbuildHuffman a.z_distance (lencodes.drop hlit)
  return { a with z_length := z_length, z_distance := z_distance }

/-- The bytes that are left in `code_buffer`. -/
def drainBits : Nat → Zbuf → List UInt8 → List UInt8 × Zbuf
  | 0, a, header => (header, a)
  | n + 1, a, header =>
    if 0 < a.num_bits then
      drainBits n { a with code_buffer := a.code_buffer >>> 8, num_bits := a.num_bits - 8 }
        (header ++ [UInt8.ofNat (a.code_buffer &&& 255)])
    else (header, a)

/-- The bytes of the header that are still missing. -/
def fillHeader : Nat → Zbuf → List UInt8 → List UInt8 × Zbuf
  | 0, a, header => (header, a)
  | n + 1, a, header =>
    let (b, a) := stbiZget8 a
    fillHeader n a (header ++ [b])

def stbiParseUncompressedBlock (a : Zbuf) : Except StbiFailure Zbuf :=
  let a := if a.num_bits % 8 ≠ 0 then (stbiZreceive a (a.num_bits % 8)).2 else a
  let (header, a) := drainBits 4 a []
  let (header, a) := fillHeader (4 - header.length) a header
  let len := (header.getD 1 0).toNat * 256 + (header.getD 0 0).toNat
  let nlen := (header.getD 3 0).toNat * 256 + (header.getD 2 0).toNat
  if nlen ≠ len ^^^ 0xffff then .error (.err "zlib corrupt")
  else if a.zbuffer.length < len then .error (.err "read past buffer")
  else do
    let a ← makeRoom a len
    return { a with zbuffer := a.zbuffer.drop len, zout := a.zout ++ a.zbuffer.take len }

/-! ### The stream -/

def zdefaultLength : List Nat :=
  List.replicate 144 8 ++ List.replicate 112 9 ++ List.replicate 24 7 ++ List.replicate 8 8

def zdefaultDistance : List Nat := List.replicate 32 5

def stbiParseZlibHeader (a : Zbuf) : Except StbiFailure Zbuf :=
  let (cmf, a) := stbiZget8 a
  let (flg, a) := stbiZget8 a
  if (cmf.toNat * 256 + flg.toNat) % 31 ≠ 0 then .error (.err "bad zlib header")
  else if flg.toNat &&& 32 ≠ 0 then .error (.err "no preset dict")
  else if cmf.toNat &&& 15 ≠ 8 then .error (.err "bad compression")
  else .ok a

/-- A block of one of the four types. `z_codelength` is a local that is not initialised. -/
def parseBlock (rounds : Nat) (z_codelength : Zhuffman) (type : Nat) (a : Zbuf) :
    Except StbiFailure Zbuf :=
  if type = 0 then stbiParseUncompressedBlock a
  else if type = 3 then .error .refused
  else do
    let a ←
      if type = 1 then do
        let z_length ← stbiZbuildHuffman a.z_length zdefaultLength
        let z_distance ← stbiZbuildHuffman a.z_distance zdefaultDistance
        pure { a with z_length := z_length, z_distance := z_distance }
      else stbiComputeHuffmanCodes a z_codelength
    stbiParseHuffmanBlock rounds a

/-- `do … while (!final)` -/
def parseBlocks (rounds : Nat) (z_codelength : Zhuffman) : Nat → Zbuf → Except StbiFailure Zbuf
  | 0, _ => .error .running
  | n + 1, a => do
    let (final, a) := stbiZreceive a 1
    let (type, a) := stbiZreceive a 2
    let a ← parseBlock rounds z_codelength type a
    if final = 0 then parseBlocks rounds z_codelength n a else return a

def stbiParseZlib (rounds : Nat) (z_codelength : Zhuffman) (parse_header : Bool) (a : Zbuf) :
    Except StbiFailure Zbuf := do
  let a ← if parse_header then stbiParseZlibHeader a else pure a
  parseBlocks rounds z_codelength rounds { a with num_bits := 0, code_buffer := 0 }

/-- `stbi_zlib_decode_malloc_guesssize_headerflag`; no memory is given for a negative size, and as
much as is asked for otherwise. The tables of `a` and of the locals hold `garbage`. -/
def stbiZlibDecode (rounds : Nat) (garbage : Zhuffman) (buffer : List UInt8) (initial_size : Int)
    (parse_header : Bool) : Except StbiFailure (List UInt8) :=
  if initial_size < 0 then .error .refused
  else do
    let a ← stbiParseZlib rounds garbage parse_header
      ⟨buffer, 0, 0, [], initial_size.toNat, garbage, garbage⟩
    return a.zout

end GifTools
