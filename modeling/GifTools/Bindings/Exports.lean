import GifTools.Bindings.Objects

/-!
# The exported functions

Every function that takes or returns object ids, under its own name: it looks its ids up, calls the
function on objects and returns ids. An `int` is 32 bits wide, and so is `size_t`. A `Call` is one
call of an exported function with its arguments and with what the libraries answer.
-/

namespace GifTools

/-- What a function returns. -/
inductive Value where
  | void
  | bool (b : Bool)
  | int (n : BitVec 32)
  | seconds (t : ℚ)
  /-- The data pointer of a buffer, or null. -/
  | data (bufferObj : Option Addr)
  | view (bytes : List UInt8)
  deriving DecidableEq

/-- `objectId` of an object. -/
def objectId (object : Option Addr) : Binding (BitVec 32) :=
  match object with
  | none => return 0
  | some a => do
    let obj ← Binding.deref a
    return obj.mObjId.composite

/-- `objectReleaseAndReturnId` -/
def objectReleaseAndReturnId (object : Option Addr) : Binding Value := do
  let id ← objectId object
  return .int id

namespace Bindings

open Binding

def objectFree (id : BitVec 32) : Binding Value := do
  updateStorage fun storage => storage.objectFree id
  return .void

lemma run_objectFree (id : BitVec 32) (mem : Memory) :
    (objectFree id).run mem = match mem.storage.objectFree id with
      | .ok storage => .ok .void { mem with storage := storage }
      | .error fault => .error (.storage fault) mem := by
  change (updateStorage _ >>= fun _ => pure Value.void).run mem = _
  rw [EStateM.run_bind, run_updateStorage]
  cases mem.storage.objectFree id <;> rfl

/-! ### Buffers -/

def bufferWithSize (bufferSize : BitVec 32) : Binding Value :=
  if bufferSize.toInt ≤ 0 then return .int 0
  else do
    let bufferObj ← Objects.bufferWithSize bufferSize.toNat
    objectReleaseAndReturnId bufferObj

def bufferCopyFromMemory (bufferPtr : Option (Nat → UInt8)) (bufferSize : BitVec 32) :
    Binding Value := do
  let bufferObj ← Objects.bufferCopyFromMemory bufferPtr bufferSize.toNat
  objectReleaseAndReturnId bufferObj

def bufferMutableData (bufferId : BitVec 32) : Binding Value := do
  let bufferObj ← find .buffer bufferId
  return .data bufferObj

def bufferData (bufferId : BitVec 32) : Binding Value := do
  let bufferObj ← find .buffer bufferId
  return .data bufferObj

def bufferSize (bufferId : BitVec 32) : Binding Value := do
  let bufferObj ← find .buffer bufferId
  match bufferObj with
  | none => return .int 0
  | some a => do
    let mem ← get
    return .int (BitVec.ofNat 32 (mem.contents a).length)

def bufferResize (bufferId value : BitVec 32) : Binding Value := do
  let bufferObj ← find .buffer bufferId
  if 0 ≤ value.toInt then do
    let a ← nonNull bufferObj
    let mem ← get
    setContents a ((mem.contents a).takeD value.toNat 0)
    return .void
  else return .void

/-- The contents stay as they are. -/
def bufferReserve (bufferId value : BitVec 32) : Binding Value := do
  let bufferObj ← find .buffer bufferId
  if 0 ≤ value.toInt then do
    let _ ← nonNull bufferObj
    return .void
  else return .void

def bufferFree (bufferId : BitVec 32) : Binding Value := do
  let bufferObj ← find .buffer bufferId
  match bufferObj with
  | none => return .void
  | some a => do
    setContents a []
    return .void

def bufferZeroTerminated (bufferId : BitVec 32) : Binding Value := do
  let bufferObj ← find .buffer bufferId
  match bufferObj with
  | none => return .bool false
  | some a => do
    let mem ← get
    match (mem.contents a).getLast? with
    | none => throw .emptyBack
    | some back => return .bool (back == 0)

def bufferEmpty (bufferId : BitVec 32) : Binding Value := do
  let bufferObj ← find .buffer bufferId
  match bufferObj with
  | none => return .bool false
  | some a => do
    let mem ← get
    return .bool (mem.contents a).isEmpty

def bufferToStringBase64 (bufferId : BitVec 32) : Binding Value := do
  let bufferObj ← find .buffer bufferId
  let encoded ← Objects.bufferToStringBase64 bufferObj
  objectReleaseAndReturnId encoded

def bufferFromStringBase64 (bufferId : BitVec 32) : Binding Value := do
  let bufferObj ← find .buffer bufferId
  let decoded ← Objects.bufferFromStringBase64 bufferObj
  objectReleaseAndReturnId decoded

def bufferFromUint8Array (arr : List UInt8) : Binding Value := do
  let bufferObj ← Objects.bufferFromVector arr
  objectReleaseAndReturnId bufferObj

def bufferToUint8Array (bufferId : BitVec 32) : Binding Value := do
  let bufferObj ← find .buffer bufferId
  let a ← nonNull bufferObj
  let mem ← get
  return .view (mem.contents a)

/-! ### Images -/

variable (stb : Stb)

/-- The enumerators of `PixelFormat` count from zero. -/
def pixelFormatInt : PixelFormat → BitVec 32
  | .undefined => 0
  | .r8g8b8Unorm => 1
  | .r8g8b8a8Unorm => 2

/-- A member of an image is read. -/
def imageMember (member : ConcreteImage → BitVec 32) (imageId : BitVec 32) : Binding Value := do
  let imageObj ← find .image imageId
  let a ← nonNull imageObj
  let mem ← get
  return .int (member (mem.images a))

def imageWidth (imageId : BitVec 32) : Binding Value :=
  imageMember (fun image => BitVec.ofNat 32 image.width) imageId

def imageHeight (imageId : BitVec 32) : Binding Value :=
  imageMember (fun image => BitVec.ofNat 32 image.height) imageId

def imageFormat (imageId : BitVec 32) : Binding Value :=
  imageMember (fun image => pixelFormatInt image.format) imageId

def imageClone (imageId : BitVec 32) : Binding Value := do
  let imageObj ← find .image imageId
  let clonedImageObj ← Objects.imageClone imageObj
  objectReleaseAndReturnId clonedImageObj

/-- `bufferPtr` is null or points to the bytes of the program's memory. -/
def imageLoadFromFileBuffer (bufferPtr : Option (Nat → UInt8)) (bufferSize : BitVec 32) :
    Binding Value := do
  let imageObj ← Objects.imageLoadFromFileBytes stb
    (bufferPtr.map fun bytes => (List.range bufferSize.toNat).map bytes)
  objectReleaseAndReturnId imageObj

def imageLoadFromBuffer (bufferId : BitVec 32) : Binding Value := do
  let bufferObj ← find .buffer bufferId
  let imageObj ← Objects.imageLoadFromFileBuffer stb bufferObj
  objectReleaseAndReturnId imageObj

def imageResizeOrClone (imageId width height : BitVec 32) : Binding Value := do
  let imageObj ← find .image imageId
  let resizedImageObj ← Objects.imageResizeOrClone stb imageObj width.toNat height.toNat
  objectReleaseAndReturnId resizedImageObj

def imageExportToPngFileMemory (imageId : BitVec 32) : Binding Value := do
  let imageObj ← find .image imageId
  let bufferObj ← Objects.imageExportToPngFileMemory stb imageObj
  objectReleaseAndReturnId bufferObj

/-! ### GIF builders -/

def gifBuilderInitialize (garbage : Pixels) (width height delay : BitVec 32) : Binding Value := do
  let gifBuilderObj ← Objects.gifBuilderInitialize garbage width.toNat height.toNat delay.toNat
  objectReleaseAndReturnId gifBuilderObj

def gifBuilderAddImage (gifBuilderId imageId delay : BitVec 32) (env : Uninit) :
    Binding Value := do
  let gifBuilderObj ← find .gifBuilder gifBuilderId
  let imageObj ← find .image imageId
  let result ← Objects.gifBuilderAddImage gifBuilderObj imageObj delay.toNat env
  return .bool result

def gifBuilderFinalize (gifBuilderId : BitVec 32) : Binding Value := do
  let gifBuilderObj ← find .gifBuilder gifBuilderId
  let bufferObj ← Objects.gifBuilderFinalize gifBuilderObj
  objectReleaseAndReturnId bufferObj

/-! ### Video streams -/

def ffmpegInputStreamLoadFromBuffer (bufferId : BitVec 32) : Binding Value := do
  let bufferObj ← find .buffer bufferId
  let streamObj ← Objects.ffmpegInputStreamLoadFromBuffer bufferObj
  objectReleaseAndReturnId streamObj

def ffmpegVideoStreamOpen (ffmpegInputStreamId : BitVec 32) (answers : OpenAnswers) :
    Binding Value := do
  let ffmpegInputStreamObj ← find .ffmpegInputStream ffmpegInputStreamId
  let videoStream ← Objects.ffmpegVideoStreamOpen ffmpegInputStreamObj answers
  objectReleaseAndReturnId videoStream

/-- A member of a video stream is read, if there is one. -/
def videoStreamMember (member : FFmpegVideoStreamImpl → Value) (default : Value)
    (ffmpegVideoStreamId : BitVec 32) : Binding Value := do
  let videoStream ← find .ffmpegVideoStream ffmpegVideoStreamId
  match videoStream with
  | none => return default
  | some a => do
    let mem ← get
    return member (mem.videoStreams a)

def ffmpegVideoStreamWidth (ffmpegVideoStreamId : BitVec 32) : Binding Value :=
  videoStreamMember (fun s => .int (BitVec.ofNat 32 s.width)) (.int 0) ffmpegVideoStreamId

def ffmpegVideoStreamHeight (ffmpegVideoStreamId : BitVec 32) : Binding Value :=
  videoStreamMember (fun s => .int (BitVec.ofNat 32 s.height)) (.int 0) ffmpegVideoStreamId

def ffmpegVideoStreamDurationSeconds (ffmpegVideoStreamId : BitVec 32) : Binding Value :=
  videoStreamMember (fun s => .seconds s.durationSeconds) (.seconds 0) ffmpegVideoStreamId

def ffmpegVideoStreamFrameDurationSeconds (ffmpegVideoStreamId : BitVec 32) : Binding Value :=
  videoStreamMember (fun s => .seconds s.frameDurationSeconds) (.seconds 0) ffmpegVideoStreamId

def ffmpegVideoStreamPrepareAllFrames (ffmpegVideoStreamId : BitVec 32) (outcome : LoopOutcome) :
    Binding Value := do
  let videoStream ← find .ffmpegVideoStream ffmpegVideoStreamId
  match videoStream with
  | none => return .int 0
  | some a => do
    let size ← Objects.ffmpegVideoStreamPrepareAllFrames a outcome
    return .int (BitVec.ofNat 32 size)

def ffmpegVideoStreamPrepareFrames (ffmpegVideoStreamId : BitVec 32) (framesPerSecond : ℚ)
    (outcome : LoopOutcome) : Binding Value := do
  let videoStream ← find .ffmpegVideoStream ffmpegVideoStreamId
  match videoStream with
  | none => return .int 0
  | some a => do
    let size ← Objects.ffmpegVideoStreamPrepareFrames a framesPerSecond outcome
    return .int (BitVec.ofNat 32 size)

def ffmpegVideoStreamPickBestFrame (ffmpegVideoStreamId : BitVec 32) (sampleTime : ℚ)
    (outcome : PickOutcome) : Binding Value := do
  let videoStream ← find .ffmpegVideoStream ffmpegVideoStreamId
  let frame ← Objects.ffmpegVideoStreamPickBestFrame videoStream sampleTime outcome
  objectReleaseAndReturnId frame

def ffmpegVideoStreamPickBestPreparedFrame (ffmpegVideoStreamId : BitVec 32) (sampleTime : ℚ) :
    Binding Value := do
  let videoStream ← find .ffmpegVideoStream ffmpegVideoStreamId
  let frame ← Objects.ffmpegVideoStreamPickBestPreparedFrame videoStream sampleTime
  objectReleaseAndReturnId frame

def ffmpegVideoStreamClearPreparedFrames (ffmpegVideoStreamId : BitVec 32) : Binding Value := do
  let videoStream ← find .ffmpegVideoStream ffmpegVideoStreamId
  Objects.ffmpegVideoStreamClearPreparedFrames videoStream
  return .void

def ffmpegVideoStreamClose (ffmpegVideoStreamId : BitVec 32) : Binding Value := do
  let videoStream ← find .ffmpegVideoStream ffmpegVideoStreamId
  Objects.ffmpegVideoStreamClose videoStream
  return .void

def ffmpegVideoFrameTimeSeconds (ffmpegVideoFrameId : BitVec 32) : Binding Value := do
  let frame ← find .ffmpegVideoFrame ffmpegVideoFrameId
  match frame with
  | none => return .seconds 0
  | some a => do
    let mem ← get
    return .seconds (mem.timeSecondsEst a)

/-- The image stays the frame's. -/
def ffmpegVideoFrameImage (ffmpegVideoFrameId : BitVec 32) : Binding Value := do
  let frame ← find .ffmpegVideoFrame ffmpegVideoFrameId
  let a ← nonNull frame
  let obj ← deref a
  let id ← objectId obj.owned.head?
  return .int id

end Bindings

/-! ### Calls -/

inductive Call where
  | objectFree (objectId : BitVec 32)
  | bufferWithSize (bufferSize : BitVec 32)
  | bufferCopyFromMemory (bufferPtr : Option (Nat → UInt8)) (bufferSize : BitVec 32)
  | bufferMutableData (bufferId : BitVec 32)
  | bufferData (bufferId : BitVec 32)
  | bufferSize (bufferId : BitVec 32)
  | bufferResize (bufferId value : BitVec 32)
  | bufferReserve (bufferId value : BitVec 32)
  | bufferFree (bufferId : BitVec 32)
  | bufferZeroTerminated (bufferId : BitVec 32)
  | bufferEmpty (bufferId : BitVec 32)
  | bufferToStringBase64 (bufferId : BitVec 32)
  | bufferFromStringBase64 (bufferId : BitVec 32)
  | bufferFromUint8Array (arr : List UInt8)
  | bufferToUint8Array (bufferId : BitVec 32)
  | imageWidth (imageId : BitVec 32)
  | imageHeight (imageId : BitVec 32)
  | imageFormat (imageId : BitVec 32)
  | imageClone (imageId : BitVec 32)
  | imageLoadFromFileBuffer (bufferPtr : Option (Nat → UInt8)) (bufferSize : BitVec 32)
  | imageLoadFromBuffer (bufferId : BitVec 32)
  | imageResizeOrClone (imageId width height : BitVec 32)
  | imageExportToPngFileMemory (imageId : BitVec 32)
  | gifBuilderInitialize (garbage : Pixels) (width height delay : BitVec 32)
  | gifBuilderAddImage (gifBuilderId imageId delay : BitVec 32) (env : Uninit)
  | gifBuilderFinalize (gifBuilderId : BitVec 32)
  | ffmpegInputStreamLoadFromBuffer (bufferId : BitVec 32)
  | ffmpegVideoStreamOpen (ffmpegInputStreamId : BitVec 32) (answers : OpenAnswers)
  | ffmpegVideoStreamWidth (ffmpegVideoStreamId : BitVec 32)
  | ffmpegVideoStreamHeight (ffmpegVideoStreamId : BitVec 32)
  | ffmpegVideoStreamDurationSeconds (ffmpegVideoStreamId : BitVec 32)
  | ffmpegVideoStreamFrameDurationSeconds (ffmpegVideoStreamId : BitVec 32)
  | ffmpegVideoStreamPrepareAllFrames (ffmpegVideoStreamId : BitVec 32) (outcome : LoopOutcome)
  | ffmpegVideoStreamPrepareFrames (ffmpegVideoStreamId : BitVec 32) (framesPerSecond : ℚ)
    (outcome : LoopOutcome)
  | ffmpegVideoStreamPickBestFrame (ffmpegVideoStreamId : BitVec 32) (sampleTime : ℚ)
    (outcome : PickOutcome)
  | ffmpegVideoStreamPickBestPreparedFrame (ffmpegVideoStreamId : BitVec 32) (sampleTime : ℚ)
  | ffmpegVideoStreamClearPreparedFrames (ffmpegVideoStreamId : BitVec 32)
  | ffmpegVideoStreamClose (ffmpegVideoStreamId : BitVec 32)
  | ffmpegVideoFrameTimeSeconds (ffmpegVideoFrameId : BitVec 32)
  | ffmpegVideoFrameImage (ffmpegVideoFrameId : BitVec 32)

namespace Bindings

/-- The function that is called. -/
def exec (stb : Stb) : Call → Binding Value
  | .objectFree id => objectFree id
  | .bufferWithSize size => bufferWithSize size
  | .bufferCopyFromMemory ptr size => bufferCopyFromMemory ptr size
  | .bufferMutableData id => bufferMutableData id
  | .bufferData id => bufferData id
  | .bufferSize id => bufferSize id
  | .bufferResize id value => bufferResize id value
  | .bufferReserve id value => bufferReserve id value
  | .bufferFree id => bufferFree id
  | .bufferZeroTerminated id => bufferZeroTerminated id
  | .bufferEmpty id => bufferEmpty id
  | .bufferToStringBase64 id => bufferToStringBase64 id
  | .bufferFromStringBase64 id => bufferFromStringBase64 id
  | .bufferFromUint8Array arr => bufferFromUint8Array arr
  | .bufferToUint8Array id => bufferToUint8Array id
  | .imageWidth id => imageWidth id
  | .imageHeight id => imageHeight id
  | .imageFormat id => imageFormat id
  | .imageClone id => imageClone id
  | .imageLoadFromFileBuffer ptr size => imageLoadFromFileBuffer stb ptr size
  | .imageLoadFromBuffer id => imageLoadFromBuffer stb id
  | .imageResizeOrClone id width height => imageResizeOrClone stb id width height
  | .imageExportToPngFileMemory id => imageExportToPngFileMemory stb id
  | .gifBuilderInitialize garbage width height delay =>
    gifBuilderInitialize garbage width height delay
  | .gifBuilderAddImage id imageId delay env => gifBuilderAddImage id imageId delay env
  | .gifBuilderFinalize id => gifBuilderFinalize id
  | .ffmpegInputStreamLoadFromBuffer id => ffmpegInputStreamLoadFromBuffer id
  | .ffmpegVideoStreamOpen id answers => ffmpegVideoStreamOpen id answers
  | .ffmpegVideoStreamWidth id => ffmpegVideoStreamWidth id
  | .ffmpegVideoStreamHeight id => ffmpegVideoStreamHeight id
  | .ffmpegVideoStreamDurationSeconds id => ffmpegVideoStreamDurationSeconds id
  | .ffmpegVideoStreamFrameDurationSeconds id => ffmpegVideoStreamFrameDurationSeconds id
  | .ffmpegVideoStreamPrepareAllFrames id outcome => ffmpegVideoStreamPrepareAllFrames id outcome
  | .ffmpegVideoStreamPrepareFrames id fps outcome => ffmpegVideoStreamPrepareFrames id fps outcome
  | .ffmpegVideoStreamPickBestFrame id time outcome =>
    ffmpegVideoStreamPickBestFrame id time outcome
  | .ffmpegVideoStreamPickBestPreparedFrame id time =>
    ffmpegVideoStreamPickBestPreparedFrame id time
  | .ffmpegVideoStreamClearPreparedFrames id => ffmpegVideoStreamClearPreparedFrames id
  | .ffmpegVideoStreamClose id => ffmpegVideoStreamClose id
  | .ffmpegVideoFrameTimeSeconds id => ffmpegVideoFrameTimeSeconds id
  | .ffmpegVideoFrameImage id => ffmpegVideoFrameImage id

/-- One call of a run; a trap ends the run. -/
def step (stb : Stb) (mem : Memory) (call : Call) : Except Trap Memory :=
  match (exec stb call).run mem with
  | .ok _ mem' => .ok mem'
  | .error trap _ => .error trap

end Bindings

end GifTools
