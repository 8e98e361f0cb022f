import GifTools.Core.Checksum
import GifTools.Core.Deflate
import GifTools.Png.Failure
import Mathlib.Logic.Function.Basic

/-!
# The compressor behind the PNG writer

`stbi_zlib_compress` of `stb_image_write`: a hash table of earlier places, searched for the longest
match, and one block in the fixed codes. A pointer into the data is an index here.
-/

namespace GifTools

open Bits Radix Canonical

/-! ### Bits -/

/-- The locals the macros work on. -/
structure ZlibOut where
  out : List UInt8
  bitbuf : Nat
  bitcount : Nat

def stbiwZlibFlushf (z : ZlibOut) : ZlibOut :=
  if 8 ≤ z.bitcount then
    stbiwZlibFlushf ⟨z.out ++ [UInt8.ofNat z.bitbuf], z.bitbuf >>> 8, z.bitcount - 8⟩
  else z
termination_by z.bitcount

def stbiwZlibBitrevFrom (res code : Nat) : Nat → Nat
  | 0 => res
  | codebits + 1 => stbiwZlibBitrevFrom (res <<< 1 ||| code &&& 1) (code >>> 1) codebits

def stbiwZlibBitrev (code codebits : Nat) : Nat := stbiwZlibBitrevFrom 0 code codebits

def stbiwZlibAdd (z : ZlibOut) (code codebits : Nat) : ZlibOut :=
  stbiwZlibFlushf ⟨z.out, z.bitbuf ||| code <<< z.bitcount, z.bitcount + codebits⟩

def stbiwZlibHuffa (z : ZlibOut) (b c : Nat) : ZlibOut := stbiwZlibAdd z (stbiwZlibBitrev b c) c

def stbiwZlibHuff1 (z : ZlibOut) (n : Nat) : ZlibOut := stbiwZlibHuffa z (0x30 + n) 8

def stbiwZlibHuff2 (z : ZlibOut) (n : Nat) : ZlibOut := stbiwZlibHuffa z (0x190 + n - 144) 9

def stbiwZlibHuff3 (z : ZlibOut) (n : Nat) : ZlibOut := stbiwZlibHuffa z (0 + n - 256) 7

def stbiwZlibHuff4 (z : ZlibOut) (n : Nat) : ZlibOut := stbiwZlibHuffa z (0xc0 + n - 280) 8

def stbiwZlibHuff (z : ZlibOut) (n : Nat) : ZlibOut :=
  if n ≤ 143 then stbiwZlibHuff1 z n
  else if n ≤ 255 then stbiwZlibHuff2 z n
  else if n ≤ 279 then stbiwZlibHuff3 z n
  else stbiwZlibHuff4 z n

def stbiwZlibHuffb (z : ZlibOut) (n : Nat) : ZlibOut :=
  if n ≤ 143 then stbiwZlibHuff1 z n else stbiwZlibHuff2 z n

/-- `while (bitcount) stbiw__zlib_add(0, 1)`, which ends at the next byte. -/
def zlibPad : Nat → ZlibOut → ZlibOut
  | 0, z => z
  | n + 1, z => if z.bitcount ≠ 0 then zlibPad n (stbiwZlibAdd z 0 1) else z

/-! ### Matches -/

/-- `data[k]` -/
def byteAt (data : List UInt8) (k : Nat) : UInt8 := data.getD k 0

/-- How far the bytes at two places agree. -/
def stbiwZlibCountmFrom (data : List UInt8) (a b : Nat) : Nat → Nat → Nat
  | 0, i => i
  | n + 1, i =>
    if byteAt data (a + i) ≠ byteAt data (b + i) then i
    else stbiwZlibCountmFrom data a b n (i + 1)

def stbiwZlibCountm (data : List UInt8) (a b limit : Nat) : Nat :=
  stbiwZlibCountmFrom data a b (min limit 258) 0

def stbiwZhash (data : List UInt8) (k : Nat) : UInt32 :=
  let hash := (byteAt data k).toUInt32 + (byteAt data (k + 1)).toUInt32 <<< 8 +
    (byteAt data (k + 2)).toUInt32 <<< 16
  let hash := hash ^^^ hash <<< 3
  let hash := hash + hash >>> 5
  let hash := hash ^^^ hash <<< 4
  let hash := hash + hash >>> 17
  let hash := hash ^^^ hash <<< 25
  hash + hash >>> 6

/-- `stbiw__ZHASH - 1` keeps as many bits of a hash as the table has indices. -/
def hashIndex (data : List UInt8) (k : Nat) : Nat := (stbiwZhash data k &&& 16383).toNat

/-- The body of the loop over `hlist`, with `best` and `bestloc`. -/
def searchStep (data : List UInt8) (i : Nat) (found : Nat × Option Nat) (loc : Nat) :
    Nat × Option Nat :=
  if i < loc + 32768 then
    let d := stbiwZlibCountm data loc i (data.length - i)
    if found.1 ≤ d then (d, some loc) else found
  else found

def bestMatch (data : List UInt8) (i : Nat) (hlist : List Nat) : Nat × Option Nat :=
  hlist.foldl (searchStep data i) (3, none)

/-- An entry of the table with one place more; a full one loses the older half first. -/
def hashPush (quality i : Nat) (hlist : List Nat) : List Nat :=
  (if hlist.length = 2 * quality then hlist.drop quality else hlist) ++ [i]

/-- "Lazy matching": there is a longer match at the next byte. -/
def betterNext (data : List UInt8) (i best : Nat) (hlist : List Nat) : Bool :=
  hlist.any fun loc =>
    decide (i < loc + 32767) &&
      decide (best < stbiwZlibCountm data loc (i + 1) (data.length - i - 1))

def lengthc : List Nat :=
  [3, 4, 5, 6, 7, 8, 9, 10, 11, 13, 15, 17, 19, 23, 27, 31, 35, 43, 51, 59, 67, 83, 99, 115, 131,
    163, 195, 227, 258, 259]

def lengtheb : List Nat :=
  [0, 0, 0, 0, 0, 0, 0, 0, 1, 1, 1, 1, 2, 2, 2, 2, 3, 3, 3, 3, 4, 4, 4, 4, 5, 5, 5, 5, 0]

def distc : List Nat :=
  [1, 2, 3, 4, 5, 7, 9, 13, 17, 25, 33, 49, 65, 97, 129, 193, 257, 385, 513, 769, 1025, 1537, 2049,
    3073, 4097, 6145, 8193, 12289, 16385, 24577, 32768]

def disteb : List Nat :=
  [0, 0, 0, 0, 1, 1, 2, 2, 3, 3, 4, 4, 5, 5, 6, 6, 7, 7, 8, 8, 9, 9, 10, 10, 11, 11, 12, 12, 13,
    13]

/-- `for (j = 0; v > table[j + 1] - 1; ++j);` -/
def codeIndex (v : Nat) : List Nat → Nat
  | _ :: c :: table => if v > c - 1 then codeIndex v (c :: table) + 1 else 0
  | _ => 0

/-- A match of `best` bytes, `d` bytes back. -/
def writeMatch (z : ZlibOut) (best d : Nat) : ZlibOut :=
  let j := codeIndex best lengthc
  let z := stbiwZlibHuff z (j + 257)
  let z := if lengtheb.getD j 0 ≠ 0 then
      stbiwZlibAdd z (best - lengthc.getD j 0) (lengtheb.getD j 0) else z
  let j := codeIndex d distc
  let z := stbiwZlibAdd z (stbiwZlibBitrev j 5) 5
  if disteb.getD j 0 ≠ 0 then stbiwZlibAdd z (d - distc.getD j 0) (disteb.getD j 0) else z

/-! ### The loop -/

structure ZlibLoop where
  i : Nat
  hash_table : Nat → List Nat
  z : ZlibOut

/-- One round of `while (i < data_len - 3)`. -/
def zlibStep (data : List UInt8) (quality : Nat) (s : ZlibLoop) : ZlibLoop :=
  let h := hashIndex data s.i
  let (best, bestloc) := bestMatch data s.i (s.hash_table h)
  let hash_table := Function.update s.hash_table h (hashPush quality s.i (s.hash_table h))
  let bestloc :=
    if bestloc.isSome ∧ betterNext data s.i best (hash_table (hashIndex data (s.i + 1))) then none
    else bestloc
  match bestloc with
  | some loc => ⟨s.i + best, hash_table, writeMatch s.z best (s.i - loc)⟩
  | none => ⟨s.i + 1, hash_table, stbiwZlibHuffb s.z (byteAt data s.i).toNat⟩

lemma three_le_searchStep {data : List UInt8} {i loc : Nat} {found : Nat × Option Nat}
    (h : 3 ≤ found.1) : 3 ≤ (searchStep data i found loc).1 := by
  simp only [searchStep]
  split
  · split
    case isTrue hle => exact h.trans hle
    case isFalse => exact h
  · exact h

lemma three_le_bestMatch (data : List UInt8) (i : Nat) (hlist : List Nat) :
    3 ≤ (bestMatch data i hlist).1 := by
  have hfold : ∀ found : Nat × Option Nat, 3 ≤ found.1 →
      3 ≤ (hlist.foldl (searchStep data i) found).1 := by
    induction hlist with
    | nil => exact fun _ h => h
    | cons loc hlist ih => exact fun found h => ih _ (three_le_searchStep h)
  exact hfold _ le_rfl

lemma i_lt_zlibStep (data : List UInt8) (quality : Nat) (s : ZlibLoop) :
    s.i < (zlibStep data quality s).i := by
  have hbest := three_le_bestMatch data s.i (s.hash_table (hashIndex data s.i))
  simp only [zlibStep]
  split
  · exact Nat.lt_add_of_pos_right (by omega)
  · exact Nat.lt_succ_self s.i

def zlibLoop (data : List UInt8) (quality : Nat) (s : ZlibLoop) : ZlibLoop :=
  if s.i + 3 < data.length then zlibLoop data quality (zlibStep data quality s) else s
termination_by data.length - s.i
decreasing_by
  have := i_lt_zlibStep data quality s
  omega

/-! ### The check sum -/

/-- A block of the data, added without a reduction. -/
def adlerBlock (s : UInt32 × UInt32) (block : List UInt8) : UInt32 × UInt32 :=
  block.foldl (fun s b => (s.1 + b.toUInt32, s.2 + (s.1 + b.toUInt32))) s

/-- `s1` and `s2` when the blocks from `data` on have been added; the first one may be shorter than
the others, and even empty. -/
def adlerBlocks (data : List UInt8) (blocklen : Nat) (s : UInt32 × UInt32) : UInt32 × UInt32 :=
  if data = [] then s
  else
    let s := adlerBlock s (data.take blocklen)
    adlerBlocks (data.drop blocklen) 5552 (s.1 % 65521, s.2 % 65521)
termination_by (data.length, if blocklen = 0 then 1 else 0)
decreasing_by
  rename_i hne
  have hpos := List.length_pos_iff.mpr hne
  rcases Nat.eq_zero_or_pos blocklen with rfl | hlen
  · exact Prod.Lex.right _ (by simp)
  · refine Prod.Lex.left _ _ ?_
    rw [List.length_drop]
    omega

/-- The four bytes behind the block. -/
def adlerTail (data : List UInt8) : List UInt8 :=
  let s := adlerBlocks data (data.length % 5552) (1, 0)
  [(s.2 >>> 8).toUInt8, s.2.toUInt8, (s.1 >>> 8).toUInt8, s.1.toUInt8]

/-! ### The whole -/

/-- The loop, the last bytes and the end of the block, from the first byte of the data on. -/
def zlibBlock (data : List UInt8) (quality : Nat) (z : ZlibOut) : ZlibOut :=
  let s := zlibLoop data quality ⟨0, fun _ => [], z⟩
  let z := (data.drop s.i).foldl (fun z b => stbiwZlibHuffb z b.toNat) s.z
  stbiwZlibHuff z 256

/-- The bytes of `out` in the end. -/
def zlibBytes (data : List UInt8) (quality : Nat) : List UInt8 :=
  let quality := if quality < 5 then 5 else quality
  let z : ZlibOut := ⟨[0x78, 0x5e], 0, 0⟩
  let z := stbiwZlibAdd (stbiwZlibAdd z 1 1) 1 2
  (zlibPad 8 (zlibBlock data quality z)).out ++ adlerTail data

/-- The capacity `m` of `out` when it has got `n` bytes, one by one. `stbiw__sbgrowf` makes it
`2 * m + 1`, which is an `int`, as soon as the next byte would fill it. -/
def stbiwSbgrowf (n : Nat) : Nat → Nat → Except StbiFailure Nat
  | 0, _ => .error .running
  | rounds + 1, m =>
    if n < m then .ok m
    else if 2 ^ 31 ≤ 2 * m + 1 then .error .overflow
    else stbiwSbgrowf n rounds (2 * m + 1)

/-- The capacity of `out` is 2 at first. -/
def stbiZlibCompress (data : List UInt8) (quality : Nat) : Except StbiFailure (List UInt8) :=
  let out := zlibBytes data quality
  (stbiwSbgrowf out.length 31 2).map fun _ => out

end GifTools
