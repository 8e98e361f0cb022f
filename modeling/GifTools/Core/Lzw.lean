import GifTools.Core.Bits
import Mathlib.Data.Nat.Size
import Mathlib.Data.List.Nodup

/-!
# Variable-width LZW

The code of GIF: symbols below `2 ^ m`, a clear code, an end code, and up to 4096 codes in all, each
written with just as many bits as the greatest code in use needs, low bits first.

An `Encoder` knows the words in its dictionary and the word it is in the middle of. A `Decoder`
takes the bits one at a time and learns each word one code later than the encoder. `Synced` is the
relation between the two that every symbol preserves; it is stated on the words themselves, so the
codes and widths of both sides can be read off it.
-/

namespace Lzw

open Bits

variable (m : Nat)

def clearCode : Nat := 2 ^ m

def endCode : Nat := 2 ^ m + 1

/-- The code of the first word that is learnt. -/
def firstCode : Nat := 2 ^ m + 2

/-! ### Decoding -/

inductive Phase where
  | reading | ended | invalid
  deriving DecidableEq

structure Decoder where
  table : List (List Nat)
  width : Nat
  /-- The word read last, if any since the table was cleared. -/
  prev : Option (List Nat)
  /-- The bits of the code being read. -/
  pending : List Bool
  out : List Nat
  phase : Phase
  deriving DecidableEq

namespace Decoder

def start : Decoder := ⟨[], m + 1, none, [], [], .reading⟩

variable (d : Decoder)

/-- The word a code stands for. The code just ahead of the table stands for the word that is about
to be learnt. -/
def word (c : Nat) : Option (List Nat) :=
  if c < 2 ^ m then some [c]
  else if c < firstCode m then none
  else if c = firstCode m + d.table.length then d.prev.map fun p => p ++ p.take 1
  else d.table[c - firstCode m]?

/-- Learn the previous word extended by the first symbol of `w`, if there is room for it. -/
def learn (w : List Nat) : Decoder :=
  match d.prev with
  | some p =>
    if firstCode m + d.table.length < 4096 then
      let full := firstCode m + d.table.length + 1 = 2 ^ d.width ∧ d.width < 12
      { d with
        table := d.table ++ [p ++ w.take 1]
        width := if full then d.width + 1 else d.width
        prev := some w }
    else { d with prev := some w }
  | none => { d with prev := some w }

def onCode (c : Nat) : Decoder :=
  if c = clearCode m then { d with table := [], width := m + 1, prev := none }
  else if c = endCode m then { d with phase := .ended }
  else
    match d.word m c with
    | some w => { d.learn m w with out := d.out ++ w }
    | none => { d with phase := .invalid }

/-- Take one bit. -/
def feed (b : Bool) : Decoder :=
  match d.phase with
  | .reading =>
    if d.pending.length + 1 < d.width then { d with pending := d.pending ++ [b] }
    else { d with pending := [] }.onCode m (bitsNat (d.pending ++ [b]))
  | _ => d

def feedAll (bits : List Bool) : Decoder := bits.foldl (feed m) d

/-- Take bits until `n` symbols are out; the decoder then, and the bits not taken. -/
def readUntil (n : Nat) : Decoder → List Bool → Decoder × List Bool
  | d, [] => (d, [])
  | d, b :: bits => if n ≤ d.out.length then (d, b :: bits) else readUntil n (d.feed m b) bits

end Decoder

/-- The symbols a sequence of bits stands for. -/
def decode (bits : List Bool) : List Nat := ((Decoder.start m).feedAll m bits).out

/-! ### Encoding -/

structure Encoder where
  dict : List (List Nat)
  /-- The word read since the last code was written; empty only before the first symbol. -/
  cur : List Nat
  deriving DecidableEq

/-- The greatest code in use with the given dictionary. -/
def lastCode (dict : List (List Nat)) : Nat := endCode m + dict.length

/-- The number of words after which the dictionary is cleared. -/
def capacity : Nat := 4095 - endCode m

/-- The code of a symbol or of a word of the dictionary. -/
def code (dict : List (List Nat)) : List Nat → Nat
  | [x] => x
  | w => firstCode m + dict.idxOf w

namespace Encoder

def start : Encoder := ⟨[], []⟩

variable (e : Encoder)

def width : Nat := (lastCode m e.dict).size

/-- The code of the current word. -/
def flush : List Bool := natBits (e.width m) (code m e.dict e.cur)

/-- Take a symbol; the encoder after it and the bits written. -/
def push (x : Nat) : Encoder × List Bool :=
  if e.cur = [] then (⟨e.dict, [x]⟩, [])
  else if e.cur ++ [x] ∈ e.dict then (⟨e.dict, e.cur ++ [x]⟩, [])
  else
    let dict := e.dict ++ [e.cur ++ [x]]
    if dict.length = capacity m then
      (⟨[], [x]⟩, e.flush m ++ natBits (lastCode m dict).size (clearCode m))
    else (⟨dict, [x]⟩, e.flush m)

def pushAll : Encoder → List Nat → Encoder × List Bool
  | e, [] => (e, [])
  | e, x :: xs =>
    let (e', bits) := e.push m x
    let (e'', bits') := pushAll e' xs
    (e'', bits ++ bits')

/-- What is written after the last symbol: its code, a clear code, the end code. -/
def footer : List Bool :=
  e.flush m ++ (natBits (e.width m) (clearCode m) ++ natBits (m + 1) (endCode m))

end Encoder

/-- The bits written for a sequence of symbols. -/
def encode (xs : List Nat) : List Bool :=
  let (e, bits) := Encoder.start.pushAll m xs
  natBits (m + 1) (clearCode m) ++ (bits ++ e.footer m)

/-- The words a sequence of symbols is cut into, given the words known and the one begun: each is
the longest one known, and is learnt with the symbol after it. -/
def phrases (dict : List (List Nat)) (cur : List Nat) : List Nat → List (List Nat)
  | [] => [cur]
  | x :: xs =>
    if cur ++ [x] ∈ dict then phrases dict (cur ++ [x]) xs
    else
      let dict' := if dict.length + 1 = capacity m then [] else dict ++ [cur ++ [x]]
      cur :: phrases dict' [x] xs

/-- The number of words a sequence of symbols is cut into. -/
def phraseCount : List Nat → Nat
  | [] => 0
  | x :: xs => (phrases m [] [x] xs).length

end Lzw
