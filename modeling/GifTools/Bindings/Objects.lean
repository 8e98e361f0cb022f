import GifTools.Bindings.Memory
import GifTools.FFmpeg.Prepare

/-!
# The functions on objects

The functions of the namespace `giftools`, as they take pointers to objects and return handles;
`none` is the null pointer and the empty handle. Some check their pointers, some do not.

What the image library makes of an image is a parameter, and so is what FFmpeg answers: the frames
the decode loops of `GifTools.FFmpeg.Decode` emit are arguments here. The loops read the buffer of
their stream through plain pointers.
-/

namespace GifTools

/-- The functions of `stb_image`. -/
structure Stb where
  /-- `stbi_load_from_memory` with four components: the pixels, `x` and `y`. -/
  stbi_load_from_memory : List UInt8 → Except StbiFailure (Option (List UInt8) × Nat × Nat)
  /-- `stbir_resize_uint8`: the bytes it writes, with these extents; none, if it gets no memory. -/
  stbir_resize_uint8 : ConcreteImage → Nat → Nat → Except StbiFailure (List UInt8)
  /-- `stbi_write_png_to_func`: all that is passed to the function. -/
  stbi_write_png_to_func : ConcreteImage → Except StbiFailure (List UInt8)

/-- A library that recognises no image. -/
def Stb.none : Stb := ⟨fun _ => .ok (.none, 0, 0), fun _ _ _ => .ok [], fun _ => .ok []⟩

/-- How the loop that looks for a frame ends. -/
inductive PickOutcome where
  /-- `av_image_fill_arrays` fails before the loop. -/
  | notStarted
  /-- It returns a frame, or none. -/
  | returned (frame : Option FFmpegVideoFrameImpl)

/-- How a loop that prepares frames ends, and the frames it emits, in this order. -/
inductive LoopOutcome where
  /-- `av_image_fill_arrays` fails before the loop. -/
  | notStarted
  /-- FFmpeg fails in the middle. -/
  | interrupted (frames : List (Option FFmpegVideoFrameImpl))
  | completed (frames : List (Option FFmpegVideoFrameImpl))

/-- The loop of `ffmpegVideoStreamPrepareFrames` leaves out what could not be scaled. -/
def LoopOutcome.scaled : LoopOutcome → LoopOutcome
  | .notStarted => .notStarted
  | .interrupted frames => .interrupted (frames.filter Option.isSome)
  | .completed frames => .completed (frames.filter Option.isSome)

def pixelFormatByteWidth : PixelFormat → Nat
  | .r8g8b8Unorm => 3
  | .r8g8b8a8Unorm => 4
  | .undefined => 0

/-- The pixels of a buffer with four bytes a pixel. -/
def bytesToPixels : List UInt8 → List GifPixel
  | r :: g :: b :: a :: bytes => ⟨r, g, b, a⟩ :: bytesToPixels bytes
  | _ => []

/-- The image as the GIF builder reads it. -/
def ConcreteImage.toImage (image : ConcreteImage) : Image :=
  ⟨image.format, image.width, image.height, bytesToPixels image.contents⟩

/-- `std::vector::max_size` for bytes, with pointers of 32 bits. -/
def maxSize : Nat := 2 ^ 31 - 1

namespace Objects

open Binding

/-! ### Buffers -/

/-- `bufferPtr` is null or points to the bytes of the program's memory. -/
def bufferCopyFromMemory (bufferPtr : Option (Nat → UInt8)) (bufferSize : Nat) :
    Binding (Option Addr) :=
  match bufferPtr with
  | none => return none
  | some bytes =>
    if bufferSize = 0 then return none
    else do
      let bufferObj ← make .buffer
      match bufferObj with
      | none => return none
      | some a =>
        if maxSize < bufferSize then throw .length
        else do
          setContents a ((List.range bufferSize).map bytes)
          return some a

def bufferFromVector (buffer : List UInt8) : Binding (Option Addr) :=
  if buffer = [] then return none
  else do
    let bufferObj ← make .buffer
    match bufferObj with
    | none => return none
    | some a => do
      setContents a buffer
      return some a

def bufferToStringBase64 (bufferObj : Option Addr) : Binding (Option Addr) := do
  let a ← nonNull bufferObj
  let mem ← get
  if mem.contents a = [] then return none
  else do
    let encodedBuffer ← ofBase64 (encodeVector maxSize (mem.contents a))
    if encodedBuffer = [] then return none
    else bufferFromVector encodedBuffer

def bufferFromStringBase64 (bufferObj : Option Addr) : Binding (Option Addr) := do
  let a ← nonNull bufferObj
  let mem ← get
  if mem.contents a = [] then return none
  else do
    let contents := mem.contents a
    let decodedBuffer ← ofBase64 (ScratchDecoder.base64Decode contents (contents.length - 1))
    if decodedBuffer = [] then return none
    else bufferFromVector decodedBuffer

def bufferWithSize (size : Nat) : Binding (Option Addr) :=
  if size = 0 then return none
  else do
    let a ← makeNew .buffer
    setContents a (List.replicate size 0)
    return some a

/-! ### Images -/

variable (stb : Stb)

def imageClone : Option Addr → Binding (Option Addr)
  | none => return none
  | some imageObj => do
    let mem ← get
    let a ← makeNew .image
    setImage a (mem.images imageObj)
    return some a

/-- The size is a `size_t`; what is written is not. -/
def imageResize (imageObj : Addr) (width height : Nat) : Binding (Option Addr) := do
  let mem ← get
  let image := mem.images imageObj
  let pixelWidth := pixelFormatByteWidth image.format
  let resizedImgBufferSize := width * height * pixelWidth % 2 ^ 32
  let a ← makeNew .image
  if maxSize < resizedImgBufferSize then throw .length
  else
    match stb.stbir_resize_uint8 image width height with
    | .error failure => throw (.stb failure)
    | .ok resized =>
      if resizedImgBufferSize < resized.length then throw .overrun
      else do
        setImage a ⟨image.format, width, height, resized.takeD resizedImgBufferSize 0⟩
        return some a

def imageResizeOrClone (imageObj : Option Addr) (width height : Nat) : Binding (Option Addr) :=
  match imageObj with
  | none => return none
  | some a => do
    let mem ← get
    if width = 0 ∨ height = 0 then imageClone (some a)
    else if (mem.images a).width = width ∧ (mem.images a).height = height then imageClone (some a)
    else imageResize stb a width height

/-- The overload for a pointer to bytes. -/
def imageLoadFromFileBytes (bufferPtr : Option (List UInt8)) : Binding (Option Addr) :=
  match bufferPtr with
  | none => return none
  | some bytes =>
    if bytes = [] then return none
    else
      match stb.stbi_load_from_memory bytes with
      | .error failure => throw (.stb failure)
      | .ok (imgBuffer, x, y) =>
        if x * y * 4 = 0 then return none
        else
          match imgBuffer with
          | none => return none
          | some pixels => do
            let a ← makeNew .image
            setImage a ⟨.r8g8b8a8Unorm, x, y, pixels⟩
            return some a

/-- The overload for a buffer. -/
def imageLoadFromFileBuffer : Option Addr → Binding (Option Addr)
  | none => return none
  | some bufferObj => do
    let mem ← get
    imageLoadFromFileBytes stb (some (mem.contents bufferObj))

def imageExportToPngFileMemory : Option Addr → Binding (Option Addr)
  | none => return none
  | some imageObj => do
    let mem ← get
    match stb.stbi_write_png_to_func (mem.images imageObj) with
    | .error failure => throw (.stb failure)
    | .ok buffer => bufferFromVector buffer

/-! ### GIF builders -/

/-- `garbage` is what the new canvas holds. -/
def gifBuilderInitialize (garbage : Pixels) (width height delay : Nat) :
    Binding (Option Addr) := do
  let gifBuilderObj ← make .gifBuilder
  match gifBuilderObj with
  | none => return none
  | some a => do
    setGifBuilder a (GifTools.gifBuilderInitialize garbage width height delay)
    return some a

def gifBuilderAddImage (gifBuilderObj imageObj : Option Addr) (delay : Nat) (env : Uninit) :
    Binding Bool :=
  match gifBuilderObj with
  | none => return false
  | some a => do
    let mem ← get
    let image := imageObj.map fun b => (mem.images b).toImage
    match GifTools.gifBuilderAddImage closestIndex (mem.gifBuilders a) image delay env with
    | .error fault => throw (.pixels fault)
    | .ok (result, builder) => do
      setGifBuilder a builder
      return result

def gifBuilderFinalize : Option Addr → Binding (Option Addr)
  | none => return none
  | some a => do
    let mem ← get
    match GifTools.gifBuilderFinalize (mem.gifBuilders a) with
    | (contents, builder) => do
      setGifBuilder a builder
      match contents with
      | none => return none
      | some contents => bufferFromVector contents

/-! ### Video streams -/

/-- The stream is made before the buffer is dereferenced. -/
def ffmpegInputStreamLoadFromBuffer (bufferObj : Option Addr) : Binding (Option Addr) := do
  let streamObj ← makeNew .ffmpegInputStream
  let a ← nonNull bufferObj
  setBufferObj streamObj a
  return some streamObj

/-- What becomes of the object that was made for a stream. -/
def keepOpened (a : Addr) :
    Except OpenFault (Option FFmpegVideoStreamImpl) → Binding (Option Addr)
  | .error fault => throw (.opening fault)
  | .ok none => do
    -- the handle goes out of scope
    release a
    return none
  | .ok (some videoStream) => do
    setVideoStream a videoStream
    return some a

def ffmpegVideoStreamOpen (ffmpegInputStream : Option Addr) (answers : OpenAnswers) :
    Binding (Option Addr) :=
  match ffmpegInputStream with
  | none => return none
  | some streamObj => do
    let a ← makeNew .ffmpegVideoStream
    setStreamObj a streamObj
    let mem ← get
    -- the contents buffer may be gone
    let _ ← deref (mem.bufferObj streamObj)
    keepOpened a (FFmpegVideoStreamImpl.ffmpegVideoStreamOpen
      (some ⟨mem.contents (mem.bufferObj streamObj), 0⟩) answers)

/-- A frame and its image, as `ffmpegVideoFrameFromStaging` and `ffmpegCloneFrame` make them. -/
def videoFrame (frame : FFmpegVideoFrameImpl) : Binding Addr := do
  let a ← makeNew .ffmpegVideoFrame
  setTimeSecondsEst a frame.timeSecondsEst
  match frame.imageObj with
  | none => return a
  | some image => do
    let imageObj ← makeNew .image
    setImage imageObj image
    setImageObj a imageObj
    return a

/-- The frame, if there is one. -/
def videoFrameOf : Option FFmpegVideoFrameImpl → Binding (Option Addr)
  | none => return none
  | some frame => do
    let a ← videoFrame frame
    return some a

/-- The prepared frames are all looked at first: one that is gone is a trap even where the search
would not come to it. -/
def ffmpegVideoStreamPickBestFrameFromPrepared (a : Addr) (sampleTime tolerance : ℚ) :
    Binding (Option Addr) := do
  let mem ← get
  let videoStream ← ofExcept (mem.videoStream a)
  let frame ← ofExcept
    (videoStream.ffmpegVideoStreamPickBestFrameFromPrepared sampleTime tolerance)
  videoFrameOf frame

/-- A decode loop reads the bytes that were the contents of a buffer when its input stream was
made. -/
def readInputStream (a : Addr) : Binding PUnit := do
  let mem ← get
  let streamObj ← nonNull (mem.streamObj a)
  let _ ← deref streamObj
  let _ ← deref (mem.bufferObj streamObj)
  if (mem.contents (mem.bufferObj streamObj)).length < mem.bufferSize streamObj then throw .overrun
  else return ⟨⟩

/-- The decode loop runs when no prepared frame is near. -/
def pickDecodedFrame (a : Addr) : PickOutcome → Binding (Option Addr)
  | .notStarted => return none
  | .returned frame => do
    readInputStream a
    videoFrameOf frame

def ffmpegVideoStreamPickBestFrame (videoStream : Option Addr) (sampleTime : ℚ)
    (outcome : PickOutcome) : Binding (Option Addr) :=
  match videoStream with
  | none => return none
  | some a => do
    let mem ← get
    let preparedFrame ← ffmpegVideoStreamPickBestFrameFromPrepared a sampleTime
      ((mem.videoStreams a).frameDurationSeconds * (1 / 2))
    match preparedFrame with
    | some frame => return some frame
    | none => pickDecodedFrame a outcome

def ffmpegVideoStreamPickBestPreparedFrame (videoStream : Option Addr) (sampleTime : ℚ) :
    Binding (Option Addr) :=
  match videoStream with
  | none => return none
  | some a => ffmpegVideoStreamPickBestFrameFromPrepared a sampleTime (-1)

/-- `FFmpegVideoStreamImpl::clearPreparedFrames` -/
def clearPreparedFrames (a : Addr) : Binding PUnit := do
  updateStorage fun storage => storage.clearPreparedFrames a
  modify fun mem => { mem with preparedFrames := Function.update mem.preparedFrames a [] }

def emplaceBack (a : Addr) (frame : Option Addr) : Binding PUnit := do
  let mem ← get
  setPreparedFrames a (mem.preparedFrames a ++ [frame])

/-- `FFmpegVideoStreamImpl::sortPreparedFrames` -/
def sortPreparedFrames (a : Addr) : Binding PUnit := do
  let mem ← get
  match (mem.preparedFrames a).mapM id with
  | some frames =>
    setPreparedFrames a ((frames.mergeSort fun lhs rhs =>
      decide (mem.timeSecondsEst lhs ≤ mem.timeSecondsEst rhs)).map some)
  | none =>
    if (mem.preparedFrames a).length < 2 then return ⟨⟩
    else throw (.storage .nullDeref)

/-- The loops emit frames one by one. -/
def emplaceFrames (a : Addr) (frames : List (Option FFmpegVideoFrameImpl)) : Binding PUnit :=
  frames.forM fun frame => do
    let handle ← videoFrameOf frame
    emplaceBack a handle

/-- What both functions that prepare frames do: clear, loop, sort and count. -/
def prepareFrames (a : Addr) : LoopOutcome → Binding Nat
  | .notStarted => return 0
  | .interrupted frames => do
    readInputStream a
    clearPreparedFrames a
    emplaceFrames a frames
    return 0
  | .completed frames => do
    readInputStream a
    clearPreparedFrames a
    emplaceFrames a frames
    sortPreparedFrames a
    let mem ← get
    return (mem.preparedFrames a).length

/-- A frame that could not be scaled is kept as an empty handle. -/
def ffmpegVideoStreamPrepareAllFrames (a : Addr) (outcome : LoopOutcome) : Binding Nat :=
  prepareFrames a outcome

def ffmpegVideoStreamPrepareFrames (a : Addr) (framesPerSecond : ℚ) (outcome : LoopOutcome) :
    Binding Nat := do
  let mem ← get
  if framesPerSecond ≤ 1 / 10000 then ffmpegVideoStreamPrepareAllFrames a outcome
  else if (mem.videoStreams a).reachesMaxFramesPerSecond framesPerSecond then
    ffmpegVideoStreamPrepareAllFrames a outcome
  else prepareFrames a outcome.scaled

def ffmpegVideoStreamClearPreparedFrames : Option Addr → Binding PUnit
  | none => return ⟨⟩
  | some a => clearPreparedFrames a

/-- The members are those of a new object. -/
def ffmpegVideoStreamClose : Option Addr → Binding PUnit
  | none => return ⟨⟩
  | some a => do
    updateStorage fun storage => storage.close a
    modify fun mem => mem.construct a

end Objects

end GifTools
