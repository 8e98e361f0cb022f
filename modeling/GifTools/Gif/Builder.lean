import GifTools.Core.Runs
import GifTools.Gif.LzwImage

/-!
# Building a GIF

`GifBuilderGIFH` drives the writer of `gif.h`: a header, one frame for each image that is accepted,
and a trailer. The writer keeps the last frame as it is displayed in `oldImage`; a frame is written
as the difference to it, and `GifThresholdImage` replaces it in place by the next one.

The builder uses a bit depth of 8 and never dithers.
-/

namespace GifTools

inductive PixelFormat where
  | undefined | r8g8b8Unorm | r8g8b8a8Unorm
  deriving DecidableEq

/-- What the builder reads of an `Image`; `pixels` are the pixels behind `bufferPtr` when the format
has four bytes a pixel. -/
structure Image where
  format : PixelFormat
  width : Nat
  height : Nat
  pixels : List GifPixel

/-- What a call of `GifWriteFrame` finds in memory it does not initialise: the local palette, the
stack behind `comps`, the chunk. -/
structure Uninit where
  pal : GifPalette
  beyond : Nat → Int
  chunk : Nat → UInt8
  deriving Inhabited

/-- A search of a palette, over what is on the stack, for the colour of a pixel. In the code it is
`closestIndex`; all that follows is over any search. -/
abbrev PaletteSearch := GifPalette → (Nat → Int) → GifPixel → Nat

/-- It returns one of the indices 1 to 255 of a palette with 256 colours. -/
def PaletteSearch.InRange (search : PaletteSearch) : Prop :=
  ∀ pPal beyond p, pPal.bitDepth = 8 →
    search pPal beyond p ≠ kGifTransIndex ∧ search pPal beyond p < 2 ^ 8

theorem closestIndex_inRange : PaletteSearch.InRange closestIndex := by
  intro pPal beyond p hdepth
  rw [← hdepth]
  exact closestIndex_mem (by omega)

variable (search : PaletteSearch)

/-! ### Frames -/

/-- One pixel of `GifThresholdImage`: transparent if it is as displayed, else palettized. -/
def thresholdPixel (pPal : GifPalette) (beyond : Nat → Int) (lastFrame : Option GifPixel)
    (nextFrame : GifPixel) : GifPixel :=
  let palettized :=
    let bestInd := search pPal beyond nextFrame
    ⟨pPal.r bestInd, pPal.g bestInd, pPal.b bestInd, UInt8.ofNat bestInd⟩
  match lastFrame with
  | some last =>
    if last.rgb = nextFrame.rgb then { last with a := UInt8.ofNat kGifTransIndex } else palettized
  | none => palettized

/-- `GifThresholdImage` for `numPixels` pixels. The last frame, if there is one, is in the buffer
the result goes to, as `GifWriteFrame` passes `oldImage` for both. -/
def gifThresholdImage (pPal : GifPalette) (beyond : Nat → Int) (hasLast : Bool) :
    Nat → List GifPixel → List GifPixel → Except PixelFault (List GifPixel)
  | 0, _, outFrame => .ok outFrame
  | numPixels + 1, next :: nextFrame, out :: outFrame => do
    let rest ← gifThresholdImage pPal beyond hasLast numPixels nextFrame outFrame
    return thresholdPixel search pPal beyond (if hasLast then some out else none) next :: rest
  | _ + 1, [], _ => .error .image
  | _ + 1, _, [] => .error .canvas

structure GifWriter where
  /-- `fileBuffer->stream` is not null. -/
  stream : Bool
  oldImage : List GifPixel
  firstFrame : Bool

/-- A buffer of pixels as memory. -/
def pixelsOf (pixels : List GifPixel) : Pixels := fun i => pixels.getD i default

/-- The last frame, if there is one, as `GifWriteFrame` passes it on. -/
def GifWriter.lastFrame (writer : GifWriter) : Option Pixels :=
  if writer.firstFrame then none else some (pixelsOf writer.oldImage)

/-- A buffer of pixels as bytes. -/
def bytesOf (pixels : List GifPixel) : Nat → UInt8 := fun i => (pixelsOf pixels (i / 4)).elt (i % 4)

/-- `GifBegin`; `garbage` is what the new buffer `oldImage` holds. -/
def gifBegin (buffer : GifVectorFileBuffer) (garbage : Pixels) (width height delay : Nat) :
    GifWriter × GifVectorFileBuffer :=
  let oldImage := (List.range (uint32 (width * height * 4) / 4)).map garbage
  let buffer := buffer.puts "GIF89a"
  -- screen descriptor
  let buffer := buffer.putc (width &&& 0xff)
  let buffer := buffer.putc ((width >>> 8) &&& 0xff)
  let buffer := buffer.putc (height &&& 0xff)
  let buffer := buffer.putc ((height >>> 8) &&& 0xff)
  let buffer := buffer.putc 0xf0 -- there is an unsorted global color table of 2 entries
  let buffer := buffer.putc 0
  let buffer := buffer.putc 0
  -- the global palette: black and black
  let buffer := ((buffer.putc 0).putc 0).putc 0
  let buffer := ((buffer.putc 0).putc 0).putc 0
  let buffer :=
    if delay ≠ 0 then
      -- animation header
      let buffer := buffer.putc 0x21
      let buffer := buffer.putc 0xff
      let buffer := buffer.putc 11
      let buffer := buffer.puts "NETSCAPE2.0"
      let buffer := buffer.putc 3
      let buffer := buffer.putc 1
      let buffer := buffer.putc 0
      let buffer := buffer.putc 0
      buffer.putc 0
    else buffer
  (⟨true, oldImage, true⟩, buffer)

/-- The size of the copy that `GifMakePalette` sorts. -/
def copyBytes (width height : Nat) : Nat := uint32 (width * height * 4)

/-- The local palette of `GifWriteFrame`, at bit depth 8 without dithering. -/
def framePalette (writer : GifWriter) (image : List GifPixel) (width height : Nat) (env : Uninit) :
    Except PixelFault GifPalette :=
  -- `GifMakePalette` copies the image first
  if 4 * image.length < copyBytes width height then .error .image
  else gifMakePalette writer.lastFrame (pixelsOf image) width height 8 env.pal

/-- `GifWriteFrame` at bit depth 8 without dithering. -/
def gifWriteFrame (writer : GifWriter) (buffer : GifVectorFileBuffer) (image : List GifPixel)
    (width height delay : Nat) (env : Uninit) :
    Except PixelFault (Bool × GifWriter × GifVectorFileBuffer) :=
  if !writer.stream then .ok (false, writer, buffer)
  else do
    let pal ← framePalette writer image width height env
    let canvas ← gifThresholdImage search pal env.beyond (!writer.firstFrame)
      (uint32 (width * height)) image writer.oldImage
    let buffer := gifWriteLzwImage buffer (bytesOf canvas) 0 0 width height delay pal env.chunk
    return (true, { writer with firstFrame := false, oldImage := canvas }, buffer)

/-- `GifEnd`. -/
def gifEnd (writer : GifWriter) (buffer : GifVectorFileBuffer) :
    Bool × GifWriter × GifVectorFileBuffer :=
  if !writer.stream then (false, writer, buffer)
  else (true, { writer with stream := false, oldImage := [] }, buffer.putc 0x3b)

/-! ### The builder -/

structure GifBuilderGIFH where
  writer : GifWriter
  vectorBuffer : GifVectorFileBuffer

/-- `gifBuilderInitialize`. -/
def gifBuilderInitialize (garbage : Pixels) (width height delay : Nat) : GifBuilderGIFH :=
  let (writer, vectorBuffer) :=
    gifBegin ⟨[]⟩ garbage (uint32 width) (uint32 height) (uint32 delay)
  ⟨writer, vectorBuffer⟩

/-- `gifBuilderAddImage`. -/
def gifBuilderAddImage (builder : GifBuilderGIFH) (imageObj : Option Image) (delay : Nat)
    (env : Uninit) : Except PixelFault (Bool × GifBuilderGIFH) :=
  match imageObj with
  | none => .ok (false, builder)
  | some image =>
    if delay = 0 then .ok (false, builder)
    else if image.format ≠ .r8g8b8a8Unorm then .ok (false, builder)
    else do
      let (result, writer, vectorBuffer) ← gifWriteFrame search builder.writer builder.vectorBuffer
        image.pixels (uint32 image.width) (uint32 image.height) (uint32 delay) env
      return (result, ⟨writer, vectorBuffer⟩)

/-- `bufferFromVector`: the contents of the buffer object that is made, which never fails. -/
def bufferFromVector (buffer : List UInt8) : Option (List UInt8) :=
  if buffer = [] then none else some buffer

/-- `gifBuilderFinalize`: the contents move to the buffer that is returned. -/
def gifBuilderFinalize (builder : GifBuilderGIFH) : Option (List UInt8) × GifBuilderGIFH :=
  match gifEnd builder.writer builder.vectorBuffer with
  | (false, _, _) => (none, builder)
  | (true, writer, vectorBuffer) => (bufferFromVector vectorBuffer.contents, ⟨writer, ⟨[]⟩⟩)

/-! ### Runs -/

/-- A call on a builder. -/
inductive BuilderOp where
  | addImage (imageObj : Option Image) (delay : Nat) (env : Uninit)
  | finalize

/-- What it returns. -/
inductive BuilderResult where
  | added (result : Bool)
  | finalized (buffer : Option (List UInt8))
  deriving DecidableEq

/-- A call that was made, its result, and the builder after it. -/
structure BuilderCall where
  op : BuilderOp
  result : BuilderResult
  after : GifBuilderGIFH

/-- A builder and the calls made on it so far. -/
structure BuilderRun where
  builder : GifBuilderGIFH
  calls : List BuilderCall

namespace BuilderRun

/-- One call. -/
def call (builder : GifBuilderGIFH) : BuilderOp → Except PixelFault (BuilderResult × GifBuilderGIFH)
  | .addImage imageObj delay env => do
    let (result, builder) ← gifBuilderAddImage search builder imageObj delay env
    return (.added result, builder)
  | .finalize =>
    let (buffer, builder) := gifBuilderFinalize builder
    .ok (.finalized buffer, builder)

def step (s : BuilderRun) (op : BuilderOp) : Except PixelFault BuilderRun := do
  let (result, after) ← call search s.builder op
  return ⟨after, s.calls ++ [⟨op, result, after⟩]⟩

end BuilderRun

end GifTools
