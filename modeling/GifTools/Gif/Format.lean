import GifTools.Gif.BitStatus

/-!
# GIF files

A reader of the blocks the builder writes, in the order of the file format: header and logical
screen, global colour table, an optional looping extension, frames, trailer. Each parser consumes
exactly its own bytes in front of any others.
-/

namespace GifTools

abbrev Rgb := UInt8 × UInt8 × UInt8

/-- A graphics control extension with the image it belongs to. -/
structure GifFrame where
  disposal : Nat
  /-- The index that leaves the pixel of the canvas, if there is one. -/
  transparent : Option UInt8
  delay : Nat
  left : Nat
  top : Nat
  width : Nat
  height : Nat
  localTable : List Rgb
  minCodeSize : Nat
  /-- The bytes of the sub-blocks. -/
  data : List UInt8
  deriving DecidableEq

structure GifFile where
  width : Nat
  height : Nat
  globalTable : List Rgb
  /-- There is a `NETSCAPE2.0` extension that asks for endless repetition. -/
  looping : Bool
  frames : List GifFrame
  deriving DecidableEq

/-! ### Parsers -/

/-- The bytes `s` come next. -/
def expect (s : List UInt8) (bytes : List UInt8) : Option (List UInt8) :=
  if s.isPrefixOf bytes then some (bytes.drop s.length) else none

def parseByte : List UInt8 → Option (UInt8 × List UInt8)
  | [] => none
  | b :: bytes => some (b, bytes)

/-- Two bytes, the low one first. -/
def parseWord : List UInt8 → Option (Nat × List UInt8)
  | lo :: hi :: bytes => some (lo.toNat + 256 * hi.toNat, bytes)
  | _ => none

def parseTable : Nat → List UInt8 → Option (List Rgb × List UInt8)
  | 0, bytes => some ([], bytes)
  | n + 1, r :: g :: b :: bytes => (parseTable n bytes).map fun (table, bytes) =>
    ((r, g, b) :: table, bytes)
  | _ + 1, _ => none

/-- The size of a colour table from the low three bits of its descriptor; there has to be one. -/
def tableSize (packed : UInt8) : Option Nat :=
  if packed.toNat < 0x80 then none else some (2 ^ (packed.toNat % 8 + 1))

def parseFrame (bytes : List UInt8) : Option (GifFrame × List UInt8) := do
  let bytes ← expect [0x21, 0xf9, 0x04] bytes
  let (control, bytes) ← parseByte bytes
  let (delay, bytes) ← parseWord bytes
  let (transparent, bytes) ← parseByte bytes
  let bytes ← expect [0, 0x2c] bytes
  let (left, bytes) ← parseWord bytes
  let (top, bytes) ← parseWord bytes
  let (width, bytes) ← parseWord bytes
  let (height, bytes) ← parseWord bytes
  let (packed, bytes) ← parseByte bytes
  let size ← tableSize packed
  let (localTable, bytes) ← parseTable size bytes
  let (minCodeSize, bytes) ← parseByte bytes
  let (data, bytes) ← subBlocks 0 bytes
  return ({ disposal := control.toNat / 4 % 8
            transparent := if control.toNat % 2 = 1 then some transparent else none
            delay, left, top, width, height, localTable
            minCodeSize := minCodeSize.toNat
            data }, bytes)

/-- Frames up to the trailer, with nothing behind it; each frame has at least one byte. -/
def parseFrames : Nat → List UInt8 → Option (List GifFrame)
  | 0, _ => none
  | n + 1, bytes =>
    if bytes = [0x3b] then some []
    else do
      let (frame, bytes) ← parseFrame bytes
      let frames ← parseFrames n bytes
      return frame :: frames

/-- The application extension of `NETSCAPE2.0` with its loop count 0. -/
def netscapeExtension : List UInt8 :=
  [0x21, 0xff, 11] ++ asciiBytes "NETSCAPE2.0" ++ [3, 1, 0, 0, 0]

def parseLooping (bytes : List UInt8) : Bool × List UInt8 :=
  match expect netscapeExtension bytes with
  | some bytes => (true, bytes)
  | none => (false, bytes)

def parseGif (bytes : List UInt8) : Option GifFile := do
  let bytes ← expect (asciiBytes "GIF89a") bytes
  let (width, bytes) ← parseWord bytes
  let (height, bytes) ← parseWord bytes
  let (packed, bytes) ← parseByte bytes
  let size ← tableSize packed
  -- background colour and aspect ratio
  let (_, bytes) ← parseWord bytes
  let (globalTable, bytes) ← parseTable size bytes
  let (looping, bytes) := parseLooping bytes
  let frames ← parseFrames bytes.length bytes
  return { width, height, globalTable, looping, frames }

/-! ### Parsing what was written -/

/-- One parser after the other. -/
lemma parse_bind {A B : Type} {x : Option A} {f : A → Option B} {a : A} {b : B} (hx : x = some a)
    (hf : f a = some b) : (x >>= f) = some b := by
  rw [hx]
  exact hf

lemma parseByte_cons (b : UInt8) (bytes : List UInt8) : parseByte (b :: bytes) = some (b, bytes) :=
  rfl

@[simp] lemma expect_append (s bytes : List UInt8) : expect s (s ++ bytes) = some bytes := by
  have h : s.isPrefixOf (s ++ bytes) := List.isPrefixOf_iff_prefix.mpr (List.prefix_append ..)
  rw [expect, if_pos h, List.drop_left]

/-- A number as two bytes, as `putc` writes them. -/
def wordBytes (n : Nat) : List UInt8 := [UInt8.ofNat (n &&& 0xff), UInt8.ofNat ((n >>> 8) &&& 0xff)]

/-- Of a greater number they are the low 16 bits. -/
lemma parseWord_wordBytes (n : Nat) (bytes : List UInt8) :
    parseWord (wordBytes n ++ bytes) = some (n % 2 ^ 16, bytes) := by
  have hlo : n &&& 0xff = n % 2 ^ 8 := Nat.and_two_pow_sub_one_eq_mod n 8
  have hhi : (n >>> 8) &&& 0xff = n / 2 ^ 8 % 2 ^ 8 := by
    rw [Nat.shiftRight_eq_div_pow]
    exact Nat.and_two_pow_sub_one_eq_mod _ 8
  have heq : (UInt8.ofNat (n &&& 0xff)).toNat + 256 * (UInt8.ofNat ((n >>> 8) &&& 0xff)).toNat =
      n % 2 ^ 16 := by
    rw [UInt8.toNat_ofNat', UInt8.toNat_ofNat', hlo, hhi]
    omega
  change some (_, bytes) = _
  rw [heq]

/-- The bytes of a colour table. -/
def tableBytes (table : List Rgb) : List UInt8 := table.flatMap fun (r, g, b) => [r, g, b]

lemma parseTable_tableBytes (table : List Rgb) (bytes : List UInt8) :
    parseTable table.length (tableBytes table ++ bytes) = some (table, bytes) := by
  induction table with
  | nil => rfl
  | cons rgb table ih =>
    obtain ⟨r, g, b⟩ := rgb
    change ((parseTable table.length (tableBytes table ++ bytes)).map fun (table, bytes) =>
      ((r, g, b) :: table, bytes)) = _
    rw [ih]
    rfl

end GifTools
