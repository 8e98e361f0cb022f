import GifTools.Png.Image
import GifTools.Png.Inflate

/-!
# The PNG loader

`stbi__parse_png_file` of `stb_image`, when a whole image is loaded, and what is around it as far as
`stbi_load_from_memory`: the chunks of a file are read one after the other, and what they say is
kept until the last one. The check sums behind them are not looked at.
-/

namespace GifTools

/-! ### Reading -/

/-- `img_buffer` is how far one has come; it may be behind the end. -/
structure StbiContext where
  buffer : List UInt8
  img_buffer : Nat

def stbiGet8 (s : StbiContext) : Nat × StbiContext :=
  if s.img_buffer < s.buffer.length then
    ((byteAt s.buffer s.img_buffer).toNat, { s with img_buffer := s.img_buffer + 1 })
  else (0, s)

def stbiGet16be (s : StbiContext) : Nat × StbiContext :=
  let (z, s) := stbiGet8 s
  let (w, s) := stbiGet8 s
  (z <<< 8 + w, s)

def stbiGet32be (s : StbiContext) : Nat × StbiContext :=
  let (z, s) := stbiGet16be s
  let (w, s) := stbiGet16be s
  (z <<< 16 + w, s)

/-- `n` is an `int`. -/
def stbiSkip (s : StbiContext) (n : Nat) : StbiContext :=
  if (BitVec.ofNat 32 n).toInt < 0 then { s with img_buffer := s.buffer.length }
  else { s with img_buffer := s.img_buffer + n }

def stbiGetn (s : StbiContext) (n : Nat) : Option (List UInt8 × StbiContext) :=
  if s.img_buffer + n ≤ s.buffer.length then
    some ((s.buffer.drop s.img_buffer).take n, { s with img_buffer := s.img_buffer + n })
  else none

/-- `count` numbers, one after the other. -/
def getMany (get : StbiContext → Nat × StbiContext) : Nat → StbiContext → List Nat × StbiContext
  | 0, s => ([], s)
  | count + 1, s =>
    let (v, s) := get s
    let (vs, s) := getMany get count s
    (v :: vs, s)

def pngSig : List Nat := [137, 80, 78, 71, 13, 10, 26, 10]

/-- Whether these bytes come next; it stops at the first one that does not. -/
def checkSig : List Nat → StbiContext → Bool × StbiContext
  | [], s => (true, s)
  | b :: sig, s =>
    let (v, s) := stbiGet8 s
    if v ≠ b then (false, s) else checkSig sig s

def stbiCheckPngHeader (s : StbiContext) : Bool × StbiContext := checkSig pngSig s

/-! ### Chunks -/

/-- `STBI__PNG_TYPE` -/
def stbiPngType (a b c d : Char) : Nat :=
  a.toNat <<< 24 + b.toNat <<< 16 + c.toNat <<< 8 + d.toNat

/-- The locals of `stbi__parse_png_file`, and the members of `stbi__png` and `stbi__context` it
sets. `idata` is `none` as long as nothing is allocated. -/
structure PngLoad where
  s : StbiContext
  img_x : Nat
  img_y : Nat
  img_n : Nat
  depth : Nat
  idata : Option (List UInt8)
  palette : Vector Nat 1024
  pal_img_n : Nat
  has_trans : Bool
  tc : List Nat
  pal_len : Nat
  first : Bool
  interlace : Nat
  color : Nat
  is_iphone : Bool

/-- Before the first chunk. -/
def PngLoad.start (palette : Vector Nat 1024) (s : StbiContext) : PngLoad :=
  ⟨s, 0, 0, 0, 0, none, palette, 0, false, [], 0, true, 0, 0, false⟩

def parseIHDR (z : PngLoad) (length : Nat) : Except StbiFailure PngLoad :=
  if ¬ z.first then .error (.err "multiple IHDR")
  else if length ≠ 13 then .error (.err "bad IHDR len")
  else
    let (img_x, s) := stbiGet32be z.s
    let (img_y, s) := stbiGet32be s
    let (depth, s) := stbiGet8 s
    let (color, s) := stbiGet8 s
    let (comp, s) := stbiGet8 s
    let (filter, s) := stbiGet8 s
    let (interlace, s) := stbiGet8 s
    let img_n := if color = 3 then 1
      else (if color &&& 2 ≠ 0 then 3 else 1) + (if color &&& 4 ≠ 0 then 1 else 0)
    if 1 <<< 24 < img_x then .error (.err "too large")
    else if 1 <<< 24 < img_y then .error (.err "too large")
    else if depth ≠ 1 ∧ depth ≠ 2 ∧ depth ≠ 4 ∧ depth ≠ 8 ∧ depth ≠ 16 then
      .error (.err "1/2/4/8/16-bit only")
    else if 6 < color then .error (.err "bad ctype")
    else if color = 3 ∧ depth = 16 then .error (.err "bad ctype")
    else if color ≠ 3 ∧ color &&& 1 ≠ 0 then .error (.err "bad ctype")
    else if comp ≠ 0 then .error (.err "bad comp method")
    else if filter ≠ 0 then .error (.err "bad filter method")
    else if 1 < interlace then .error (.err "bad interlace method")
    else if img_x = 0 ∨ img_y = 0 then .error (.err "0-pixel image")
    -- an entry of a palette may have four components
    else if 1 <<< 30 / img_x / (if color = 3 then 4 else img_n) < img_y then
      .error (.err "too large")
    else .ok { z with
      s := s
      first := false
      img_x := img_x
      img_y := img_y
      depth := depth
      color := color
      interlace := interlace
      pal_img_n := if color = 3 then 3 else z.pal_img_n
      img_n := img_n }

/-- The entries `i` and those behind it, of which there are `n`. -/
def readPalette : Nat → Nat → StbiContext → Vector Nat 1024 → Vector Nat 1024 × StbiContext
  | 0, _, s, palette => (palette, s)
  | n + 1, i, s, palette =>
    let (r, s) := stbiGet8 s
    let (g, s) := stbiGet8 s
    let (b, s) := stbiGet8 s
    let palette := Cells.write palette (i * 4 + 0) r
    let palette := Cells.write palette (i * 4 + 1) g
    let palette := Cells.write palette (i * 4 + 2) b
    readPalette n (i + 1) s (Cells.write palette (i * 4 + 3) 255)

def parsePLTE (z : PngLoad) (length : Nat) : Except StbiFailure PngLoad :=
  if z.first then .error (.err "first not IHDR")
  else if 256 * 3 < length then .error (.err "invalid PLTE")
  else if length / 3 * 3 ≠ length then .error (.err "invalid PLTE")
  else
    let (palette, s) := readPalette (length / 3) 0 z.s z.palette
    .ok { z with s := s, palette := palette, pal_len := length / 3 }

/-- The alpha of the entries from `i` on. -/
def readPaletteAlpha : Nat → Nat → StbiContext → Vector Nat 1024 → Vector Nat 1024 × StbiContext
  | 0, _, s, palette => (palette, s)
  | n + 1, i, s, palette =>
    let (a, s) := stbiGet8 s
    readPaletteAlpha n (i + 1) s (Cells.write palette (i * 4 + 3) a)

def parseTRNS (z : PngLoad) (length : Nat) : Except StbiFailure PngLoad :=
  if z.first then .error (.err "first not IHDR")
  else if z.idata.isSome then .error (.err "tRNS after IDAT")
  else if z.pal_img_n ≠ 0 then
    if z.pal_len = 0 then .error (.err "tRNS before PLTE")
    else if z.pal_len < length then .error (.err "bad tRNS len")
    else
      let (palette, s) := readPaletteAlpha length 0 z.s z.palette
      .ok { z with s := s, pal_img_n := 4, palette := palette }
  else if z.img_n &&& 1 = 0 then .error (.err "tRNS with alpha")
  else if length ≠ z.img_n * 2 then .error (.err "bad tRNS len")
  else
    let (vs, s) := getMany stbiGet16be z.img_n z.s
    let tc := if z.depth = 16 then vs
      else vs.map fun v => (v &&& 255) * depthScaleTable.getD z.depth 0 % 256
    .ok { z with s := s, has_trans := true, tc := tc }

def parseIDAT (z : PngLoad) (length : Nat) : Except StbiFailure PngLoad :=
  let ioff := (z.idata.getD []).length
  if z.first then .error (.err "first not IHDR")
  else if z.pal_img_n ≠ 0 ∧ z.pal_len = 0 then .error (.err "no PLTE")
  else if (BitVec.ofNat 32 (ioff + length)).toInt < (BitVec.ofNat 32 ioff).toInt then
    .error .refused
  else
    match stbiGetn z.s length with
    | none => .error (.err "outofdata")
    | some (data, s) =>
      .ok { z with
        s := s
        idata := if length = 0 then z.idata else some (z.idata.getD [] ++ data) }

def parseAncillary (z : PngLoad) (length type : Nat) : Except StbiFailure PngLoad :=
  if z.first then .error (.err "first not IHDR")
  else if type &&& 1 <<< 29 = 0 then .error (.err "XXXX PNG chunk not known")
  else .ok { z with s := stbiSkip z.s length }

def parseChunk (z : PngLoad) (length type : Nat) : Except StbiFailure PngLoad :=
  if type = stbiPngType 'C' 'g' 'B' 'I' then
    .ok { z with is_iphone := true, s := stbiSkip z.s length }
  else if type = stbiPngType 'I' 'H' 'D' 'R' then parseIHDR z length
  else if type = stbiPngType 'P' 'L' 'T' 'E' then parsePLTE z length
  else if type = stbiPngType 't' 'R' 'N' 'S' then parseTRNS z length
  else if type = stbiPngType 'I' 'D' 'A' 'T' then parseIDAT z length
  else parseAncillary z length type

/-! ### The image -/

/-- What is not initialised: the tables of the decompressor, the palette, and the pixels of an
interlaced image. -/
structure LoadGarbage where
  tables : Zhuffman
  palette : Vector Nat 1024
  final : Nat → List Nat

/-- The samples of the image, and the components of a pixel in them. -/
structure PngOut where
  img_x : Nat
  img_y : Nat
  depth : Nat
  img_out_n : Nat
  out : List Nat

/-- `img_out_n`: a component is put behind the others if it is asked for or the file has it. -/
def PngLoad.imgOutN (z : PngLoad) (req_comp : Nat) : Nat :=
  if (req_comp = z.img_n + 1 ∧ req_comp ≠ 3 ∧ z.pal_img_n = 0) ∨ z.has_trans then z.img_n + 1
  else z.img_n

/-- `IEND`. The flag for the byte order of files made for phones is never set. -/
def parseIEND (rounds : Nat) (garbage : LoadGarbage) (req_comp : Nat) (z : PngLoad) :
    Except StbiFailure PngOut :=
  if z.first then .error (.err "first not IHDR")
  else
    match z.idata with
    | none => .error (.err "no IDAT")
    | some idata => do
      let bpl := (z.img_x * z.depth + 7) / 8
      let raw_len := BitVec.ofNat 32 (bpl * z.img_y * z.img_n + z.img_y)
      let expanded ← stbiZlibDecode rounds garbage.tables idata raw_len.toInt (!z.is_iphone)
      let img_out_n := z.imgOutN req_comp
      let format : PngFormat := ⟨z.img_n, img_out_n, z.depth, z.color⟩
      let out ← stbiCreatePngImage format garbage.final expanded z.img_x z.img_y (z.interlace ≠ 0)
      let full := if z.depth = 16 then 65535 else 255
      let out := if z.has_trans then
          stbiComputeTransparency full img_out_n z.tc (z.img_x * z.img_y) out
        else out
      if z.pal_img_n ≠ 0 then do
        let img_out_n := if 3 ≤ req_comp then req_comp else z.pal_img_n
        let out ← stbiExpandPngPalette z.palette img_out_n (z.img_x * z.img_y) out
        return ⟨z.img_x, z.img_y, z.depth, img_out_n, out⟩
      else return ⟨z.img_x, z.img_y, z.depth, img_out_n, out⟩

/-- A chunk: the image behind the last one, or the state behind another one and its check sum. -/
def chunkStep (rounds : Nat) (garbage : LoadGarbage) (req_comp : Nat) (z : PngLoad) :
    Except StbiFailure (PngOut ⊕ PngLoad) :=
  let (length, s) := stbiGet32be z.s
  let (type, s) := stbiGet32be s
  if type = stbiPngType 'I' 'E' 'N' 'D' then
    (parseIEND rounds garbage req_comp { z with s := s }).map .inl
  else (parseChunk { z with s := s } length type).map fun z =>
    .inr { z with s := (stbiGet32be z.s).2 }

/-- The chunks, of which there are at most `n`. -/
def parseChunks (rounds : Nat) (garbage : LoadGarbage) (req_comp : Nat) :
    Nat → PngLoad → Except StbiFailure PngOut
  | 0, _ => .error .running
  | n + 1, z => do
    let next ← chunkStep rounds garbage req_comp z
    next.elim .ok (parseChunks rounds garbage req_comp n)

/-- Every chunk but the last takes at least one byte of the file. -/
def stbiParsePngFile (rounds : Nat) (garbage : LoadGarbage) (s : StbiContext) (req_comp : Nat) :
    Except StbiFailure PngOut :=
  let (ok, s') := stbiCheckPngHeader s
  if ¬ ok then .error (.err "bad png sig")
  else parseChunks rounds garbage req_comp (s.buffer.length + 1)
    (.start garbage.palette s')

/-- An image of bytes, or of words. -/
structure StbiResult where
  bits_per_channel : Nat
  x : Nat
  y : Nat
  samples : List Nat

def stbiDoPng (rounds : Nat) (garbage : LoadGarbage) (s : StbiContext) (req_comp : Nat) :
    Except StbiFailure StbiResult := do
  if 4 < req_comp then .error (.err "bad req_comp")
  let p ← stbiParsePngFile rounds garbage s req_comp
  let bits_per_channel := if p.depth < 8 then 8 else p.depth
  if req_comp ≠ 0 ∧ req_comp ≠ p.img_out_n then
    let samples ←
      if bits_per_channel = 8 then stbiConvertFormat p.out p.img_out_n req_comp p.img_x p.img_y
      else stbiConvertFormat16 p.out p.img_out_n req_comp p.img_x p.img_y
    return ⟨bits_per_channel, p.img_x, p.img_y, samples⟩
  else return ⟨bits_per_channel, p.img_x, p.img_y, p.out⟩

/-! ### Formats -/

/-- `stbi__get_marker` behind the byte 255: the repeated ones are passed over. -/
def getMarker : List UInt8 → UInt8
  | [] => 0
  | x :: xs => if x = 0xff then getMarker xs else x

/-- The test for JPEG files. -/
def stbiJpegTest (buffer : List UInt8) : Bool :=
  match buffer with
  | [] => false
  | x :: xs => x = 0xff ∧ getMarker xs = 0xd8

/-- `stbi__load_main`, which asks for every format in turn; `other` loads what is none of the first
two, and `jpeg` the first. -/
def stbiLoadMain (jpeg other : List UInt8 → Except StbiFailure StbiResult) (rounds : Nat)
    (garbage : LoadGarbage) (buffer : List UInt8) (req_comp : Nat) :
    Except StbiFailure StbiResult :=
  if stbiJpegTest buffer then jpeg buffer
  else if (stbiCheckPngHeader ⟨buffer, 0⟩).1 then stbiDoPng rounds garbage ⟨buffer, 0⟩ req_comp
  else other buffer

/-- `stbi__load_and_postprocess_8bit`; the image is not turned upside down. -/
def stbiLoadAndPostprocess8bit (result : Except StbiFailure StbiResult) :
    Except StbiFailure (List UInt8 × Nat × Nat) := do
  let ri ← result
  let samples := if ri.bits_per_channel ≠ 8 then stbiConvert16To8 ri.samples else ri.samples
  return (samples.map UInt8.ofNat, ri.x, ri.y)

end GifTools
