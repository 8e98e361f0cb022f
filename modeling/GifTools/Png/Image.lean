import GifTools.Png.Huffman
import GifTools.Png.Write

/-!
# From decompressed bytes to pixels

What `stb_image` makes of the decompressed bytes of a PNG file: the filters are undone, samples of
less than a byte are unpacked, the seven passes of an interlaced image are put together, and the
pixels get the components that are asked for. A sample is a byte, or a word at the depth 16.
-/

namespace GifTools

/-! ### Sizes -/

/-- `INT_MAX` -/
def intMax : Nat := 2 ^ 31 - 1

def stbiAddsizesValid (a b : Nat) : Bool := a ≤ intMax - b

def stbiMul2sizesValid (a b : Nat) : Bool := if b = 0 then true else a ≤ intMax / b

def stbiMad2sizesValid (a b add : Nat) : Bool :=
  stbiMul2sizesValid a b && stbiAddsizesValid (a * b) add

def stbiMad3sizesValid (a b c add : Nat) : Bool :=
  stbiMul2sizesValid a b && stbiMul2sizesValid (a * b) c && stbiAddsizesValid (a * b * c) add

/-! ### Filters -/

def stbiPaeth (a b c : UInt8) : UInt8 := paethOf a b c

/-- The filters a byte in front of a row stands for. -/
def pngFilters : List PngFilter := [.none, .sub, .up, .avg, .paeth]

def firstRowFilter : List PngFilter := [.none, .sub, .none, .avgFirst, .paethFirst]

/-- A byte of the first pixel of a row. -/
def unfilterFirst (filter : PngFilter) (raw prior : UInt8) : UInt8 :=
  match filter with
  | .none => raw
  | .sub => raw
  | .up => raw + prior
  | .avg => raw + prior >>> 1
  | .paeth => raw + stbiPaeth 0 prior 0
  | .avgFirst => raw
  | .paethFirst => raw

/-- A byte of another pixel; `left` lies before it in the row, and `priorLeft` before `prior`. -/
def unfilterRest (filter : PngFilter) (raw left prior priorLeft : UInt8) : UInt8 :=
  match filter with
  | .none => raw
  | .sub => raw + left
  | .up => raw + prior
  | .avg => raw + UInt8.ofNat ((prior.toNat + left.toNat) >>> 1)
  | .paeth => raw + stbiPaeth left prior priorLeft
  | .avgFirst => raw + left >>> 1
  | .paethFirst => raw + stbiPaeth left 0 0

/-- How a row is stored: the bytes of a pixel that are filtered, those put behind them, and how many
there are of both together. -/
structure RowLayout where
  filter_bytes : Nat
  alpha : List UInt8
  output_bytes : Nat

/-- The pixels of a row behind the first one, of which there are `n`. -/
def unfilterPixels (filter : PngFilter) (layout : RowLayout) (prior : List UInt8) :
    Nat → List UInt8 → List UInt8 → List UInt8
  | 0, _, cur => cur
  | n + 1, raw, cur =>
    let pixel := (List.range layout.filter_bytes).map fun k =>
      unfilterRest filter (byteAt raw k) (byteAt cur (cur.length + k - layout.output_bytes))
        (byteAt prior (cur.length + k)) (byteAt prior (cur.length + k - layout.output_bytes))
    unfilterPixels filter layout prior n (raw.drop layout.filter_bytes)
      (cur ++ (pixel ++ layout.alpha))

def unfilterRow (filter : PngFilter) (layout : RowLayout) (width : Nat) (raw prior : List UInt8) :
    List UInt8 :=
  let pixel := (List.range layout.filter_bytes).map fun k =>
    unfilterFirst filter (byteAt raw k) (byteAt prior k)
  unfilterPixels filter layout prior (width - 1) (raw.drop layout.filter_bytes)
    (pixel ++ layout.alpha)

/-- The rows, in each of which `img_width_bytes` come behind the filter. There is no `prior` row in
front of the first one. -/
def unfilterRows (layout : RowLayout) (width img_width_bytes : Nat) (fits : Bool) :
    Nat → Option (List UInt8) → List UInt8 → Except StbiFailure (List (List UInt8))
  | 0, _, _ => .ok []
  | j + 1, prior, raw =>
    let filter := (byteAt raw 0).toNat
    if 4 < filter then .error (.err "invalid filter")
    else if ¬ fits then .error .assertion
    else do
      let filters := if prior.isNone then firstRowFilter else pngFilters
      let row := unfilterRow (filters.getD filter .none) layout width
        ((raw.drop 1).take img_width_bytes) (prior.getD [])
      let rows ← unfilterRows layout width img_width_bytes fits j (some row)
        (raw.drop (1 + img_width_bytes))
      return row :: rows

/-! ### Samples -/

/-- `stbi__depth_scale_table` -/
def depthScaleTable : List Nat := [0, 0xff, 0x55, 0, 0x11, 0, 0, 0, 0x01]

/-- The samples in a byte. -/
def unpackByte (depth : Nat) (b : UInt8) : List Nat :=
  let v := b.toNat
  if depth = 4 then [v >>> 4, v &&& 0x0f]
  else if depth = 2 then [v >>> 6, v >>> 4 &&& 0x03, v >>> 2 &&& 0x03, v &&& 0x03]
  else [v >>> 7, v >>> 6 &&& 0x01, v >>> 5 &&& 0x01, v >>> 4 &&& 0x01, v >>> 3 &&& 0x01,
    v >>> 2 &&& 0x01, v >>> 1 &&& 0x01, v &&& 0x01]

/-- A loop over `count` pixels of `n` samples each. -/
def mapPixels {A B : Type} (n : Nat) (f : List A → List B) : Nat → List A → List B
  | 0, _ => []
  | count + 1, p => f (p.take n) ++ mapPixels n f count (p.drop n)

/-- A row of samples of less than a byte, each of which is scaled. -/
def unpackRow (depth scale img_n out_n x : Nat) (row : List UInt8) : List Nat :=
  let cur := ((row.flatMap (unpackByte depth)).take (x * img_n)).map fun v => scale * v % 256
  if img_n = out_n then cur else mapPixels img_n (fun p => p ++ [255]) x cur

/-- Words from pairs of bytes, the most significant first. -/
def words : List UInt8 → List Nat
  | hi :: lo :: row => (hi.toNat <<< 8 ||| lo.toNat) :: words row
  | _ => []

/-- What the samples of an image are made from: `x` and `y` may be those of a pass. -/
structure PngFormat where
  img_n : Nat
  out_n : Nat
  depth : Nat
  color : Nat

def PngFormat.bytes (format : PngFormat) : Nat := if format.depth = 16 then 2 else 1

/-- Where alpha is put in while the filters are undone. -/
def PngFormat.layout (format : PngFormat) : RowLayout :=
  if format.depth < 8 then ⟨1, [], 1⟩
  else if format.img_n = format.out_n then
    ⟨format.img_n * format.bytes, [], format.img_n * format.bytes⟩
  else
    ⟨format.img_n * format.bytes, List.replicate format.bytes 255, format.out_n * format.bytes⟩

def PngFormat.widthBytes (format : PngFormat) (x : Nat) : Nat :=
  (format.img_n * x * format.depth + 7) >>> 3

/-- `img_len` -/
def PngFormat.imgLen (format : PngFormat) (x y : Nat) : Nat := (format.widthBytes x + 1) * y

/-- The samples of a row. -/
def PngFormat.samples (format : PngFormat) (x : Nat) (row : List UInt8) : List Nat :=
  if format.depth < 8 then
    let scale := if format.color = 0 then depthScaleTable.getD format.depth 0 else 1
    unpackRow format.depth scale format.img_n format.out_n x row
  else if format.depth = 16 then words row
  else row.map UInt8.toNat

def stbiCreatePngImageRaw (format : PngFormat) (raw : List UInt8) (x y : Nat) :
    Except StbiFailure (List Nat) :=
  if ¬ stbiMad3sizesValid x y (format.out_n * format.bytes) 0 then .error (.err "outofmem")
  else if ¬ stbiMad3sizesValid format.img_n x format.depth 7 then .error (.err "too large")
  else if raw.length < format.imgLen x y then .error (.err "not enough pixels")
  else do
    let width := if format.depth < 8 then format.widthBytes x else x
    let fits := 8 ≤ format.depth || format.widthBytes x ≤ x
    let rows ← unfilterRows format.layout width (format.widthBytes x) fits y none raw
    return rows.flatMap (format.samples x)

/-! ### Interlaced images -/

def pngXorig : List Nat := [0, 4, 0, 2, 0, 1, 0]
def pngYorig : List Nat := [0, 0, 4, 0, 2, 0, 1]
def pngXspc : List Nat := [8, 8, 4, 4, 2, 2, 1]
def pngYspc : List Nat := [8, 8, 8, 4, 4, 2, 2]

/-- Where the pixels of a pass belong. -/
structure PngPass where
  xorig : Nat
  yorig : Nat
  xspc : Nat
  yspc : Nat

def pngPass (p : Nat) : PngPass :=
  ⟨pngXorig.getD p 0, pngYorig.getD p 0, pngXspc.getD p 1, pngYspc.getD p 1⟩

/-- The number of columns of a pass. -/
def PngPass.columns (pass : PngPass) (img_x : Nat) : Nat :=
  (img_x + pass.xspc - 1 - pass.xorig) / pass.xspc

def PngPass.rows (pass : PngPass) (img_y : Nat) : Nat :=
  (img_y + pass.yspc - 1 - pass.yorig) / pass.yspc

/-- The pixels of a pass, row by row, as their places in the image and in `out`. -/
def PngPass.places (pass : PngPass) (img_x x y : Nat) : List (Nat × Nat) :=
  (List.range y).flatMap fun j => (List.range x).map fun i =>
    ((j * pass.yspc + pass.yorig) * img_x + (i * pass.xspc + pass.xorig), j * x + i)

/-- The pixels of a pass are copied to where they belong. -/
def scatter (out_n : Nat) (out : List Nat) (final : Array (List Nat)) (places : List (Nat × Nat)) :
    Array (List Nat) :=
  places.foldl
    (fun final place => final.setIfInBounds place.1 ((out.drop (place.2 * out_n)).take out_n)) final

/-- The passes from `p` on, of which there are `n`. There are no pixels without `allocated`. -/
def interlacedPasses (format : PngFormat) (img_x img_y : Nat) (allocated : Bool) :
    Nat → Nat → List UInt8 → Array (List Nat) → Except StbiFailure (Array (List Nat))
  | 0, _, _, final => .ok final
  | n + 1, p, image_data, final =>
    let pass := pngPass p
    let x := pass.columns img_x
    let y := pass.rows img_y
    if x ≠ 0 ∧ y ≠ 0 then
      match stbiCreatePngImageRaw format image_data x y with
      | .error failure => .error failure
      | .ok out =>
        if ¬ allocated then .error .nullPointer
        else interlacedPasses format img_x img_y allocated n (p + 1)
          (image_data.drop (format.imgLen x y))
          (scatter format.out_n out final (pass.places img_x x y))
    else interlacedPasses format img_x img_y allocated n (p + 1) image_data final

/-- `garbage` is what the pixels of an interlaced image are before they are copied. -/
def stbiCreatePngImage (format : PngFormat) (garbage : Nat → List Nat) (image_data : List UInt8)
    (img_x img_y : Nat) (interlaced : Bool) : Except StbiFailure (List Nat) :=
  if ¬ interlaced then stbiCreatePngImageRaw format image_data img_x img_y
  else do
    let allocated := stbiMad3sizesValid img_x img_y (format.out_n * format.bytes) 0
    let final ← interlacedPasses format img_x img_y allocated 7 0 image_data
      ((Array.range (img_x * img_y)).map garbage)
    return final.toList.flatten

/-! ### Components -/

/-- `stbi__compute_transparency` and `stbi__compute_transparency16`; `full` is 255 or 65535. -/
def stbiComputeTransparency (full out_n : Nat) (tc : List Nat) (pixel_count : Nat)
    (out : List Nat) : List Nat :=
  mapPixels out_n (fun p =>
    if out_n = 2 then [p.getD 0 0, if p.getD 0 0 = tc.getD 0 0 then 0 else full]
    else if p.getD 0 0 = tc.getD 0 0 ∧ p.getD 1 0 = tc.getD 1 0 ∧ p.getD 2 0 = tc.getD 2 0 then
      p.set 3 0
    else p) pixel_count out

/-- The entries of a palette are four bytes each. -/
def stbiExpandPngPalette (palette : Vector Nat 1024) (pal_img_n pixel_count : Nat)
    (out : List Nat) : Except StbiFailure (List Nat) :=
  if ¬ stbiMad2sizesValid pixel_count pal_img_n 0 then .error (.err "outofmem")
  else .ok (mapPixels 1 (fun p =>
    let n := p.getD 0 0 * 4
    (List.range (if pal_img_n = 3 then 3 else 4)).map fun k => Cells.read palette (n + k))
    pixel_count out)

/-- `stbi__compute_y`, and `stbi__compute_y_16` with words. -/
def stbiComputeY (r g b : Nat) : Nat := (r * 77 + g * 150 + 29 * b) >>> 8

/-- `STBI__CASE(img_n, req_comp)`, with `full` for a component that is missing. -/
def convertPixel (full img_n req_comp : Nat) (src : List Nat) : List Nat :=
  let s := fun k => src.getD k 0
  match img_n, req_comp with
  | 1, 2 => [s 0, full]
  | 1, 3 => [s 0, s 0, s 0]
  | 1, 4 => [s 0, s 0, s 0, full]
  | 2, 1 => [s 0]
  | 2, 3 => [s 0, s 0, s 0]
  | 2, 4 => [s 0, s 0, s 0, s 1]
  | 3, 4 => [s 0, s 1, s 2, full]
  | 3, 1 => [stbiComputeY (s 0) (s 1) (s 2)]
  | 3, 2 => [stbiComputeY (s 0) (s 1) (s 2), full]
  | 4, 1 => [stbiComputeY (s 0) (s 1) (s 2)]
  | 4, 2 => [stbiComputeY (s 0) (s 1) (s 2), s 3]
  | 4, 3 => [s 0, s 1, s 2]
  | _, _ => []

/-- `stbi__convert_format` -/
def stbiConvertFormat (data : List Nat) (img_n req_comp x y : Nat) :
    Except StbiFailure (List Nat) :=
  if req_comp = img_n then .ok data
  else if ¬ stbiMad3sizesValid req_comp x y 0 then .error (.err "outofmem")
  else .ok (mapPixels img_n (convertPixel 0xff img_n req_comp) (x * y) data)

/-- The size that is allocated is an `unsigned int`. -/
def stbiConvertFormat16 (data : List Nat) (img_n req_comp x y : Nat) :
    Except StbiFailure (List Nat) :=
  if req_comp = img_n then .ok data
  else if req_comp * x * y * 2 % 2 ^ 32 < req_comp * x * y * 2 then .error .overrun
  else .ok (mapPixels img_n (convertPixel 0xffff img_n req_comp) (x * y) data)

/-- `stbi__convert_16_to_8` -/
def stbiConvert16To8 (orig : List Nat) : List Nat := orig.map fun v => v >>> 8 &&& 0xFF

end GifTools
