import GifTools.Base64.RoundTrip
import GifTools.Core.Throws
import GifTools.FFmpeg.Decode
import GifTools.FFmpeg.Open
import GifTools.Png.Huffman
import GifTools.Storage.Close

/-!
# Objects in memory

The functions of the module work on objects that live in the storage. `Memory` is the storage with
the members of the objects, by their addresses. A pointer is an address or null; dereferencing null
or a pointer to a destroyed object ends the call with a `Trap`.
-/

namespace GifTools

structure Memory where
  storage : ManagedObjStorage
  /-- `ConcreteBuffer::contents` -/
  contents : Addr → List UInt8
  images : Addr → ConcreteImage
  gifBuilders : Addr → GifBuilderGIFH
  /-- `FFmpegInputStreamImpl::bufferObj`, a plain pointer. -/
  bufferObj : Addr → Addr
  /-- `FFmpegInputStreamImpl::bufferSize`, the size of the buffer when the stream was made. -/
  bufferSize : Addr → Nat
  timeSecondsEst : Addr → ℚ
  /-- The members of an `FFmpegVideoStreamImpl` other than its prepared frames. -/
  videoStreams : Addr → FFmpegVideoStreamImpl
  /-- `FFmpegVideoStreamImpl::streamObj`, a plain pointer; null until a stream is opened. -/
  streamObj : Addr → Option Addr
  /-- The handles in `FFmpegVideoStreamImpl::preparedFrames`, the empty ones too. -/
  preparedFrames : Addr → List (Option Addr)

inductive Trap where
  | storage (fault : Fault)
  /-- `std::vector::back` of an empty vector. -/
  | emptyBack
  /-- `std::vector::resize` beyond `max_size`. -/
  | length
  | base64 (fault : Base64Fault)
  | pixels (fault : PixelFault)
  | opening (fault : OpenFault)
  | decode (fault : LoopFault)
  /-- A function of the image library goes wrong. -/
  | stb (failure : StbiFailure)
  /-- Bytes behind the end of a buffer are written or read. -/
  | overrun
  deriving DecidableEq

/-- A function of the module: it returns or traps. -/
abbrev Binding := EStateM Trap Memory

namespace Memory

def emptyImage : ConcreteImage := ⟨.undefined, 0, 0, []⟩

def emptyBuilder : GifBuilderGIFH := ⟨⟨false, [], false⟩, ⟨[]⟩⟩

def emptyVideoStream : FFmpegVideoStreamImpl := ⟨[], -1, 0, 0, 0, 0, 0, 0⟩

/-- When the module is loaded. -/
def init : Memory where
  storage := .init
  contents _ := []
  images _ := emptyImage
  gifBuilders _ := emptyBuilder
  bufferObj _ := 0
  bufferSize _ := 0
  timeSecondsEst _ := 0
  videoStreams _ := emptyVideoStream
  streamObj _ := none
  preparedFrames _ := []

variable (mem : Memory)

/-- The members of a new object. -/
def construct (a : Addr) : Memory :=
  { mem with
    contents := Function.update mem.contents a []
    images := Function.update mem.images a emptyImage
    gifBuilders := Function.update mem.gifBuilders a emptyBuilder
    timeSecondsEst := Function.update mem.timeSecondsEst a 0
    videoStreams := Function.update mem.videoStreams a emptyVideoStream
    streamObj := Function.update mem.streamObj a none
    preparedFrames := Function.update mem.preparedFrames a [] }

/-- An `FFmpegVideoFrameImpl`, with its image. -/
def videoFrame (a : Addr) : Except Fault FFmpegVideoFrameImpl := do
  let obj ← mem.storage.deref a
  match obj.owned with
  | [] => return ⟨mem.timeSecondsEst a, none⟩
  | imageObj :: _ => do
    let _ ← mem.storage.deref imageObj
    return ⟨mem.timeSecondsEst a, some (mem.images imageObj)⟩

/-- An `FFmpegVideoStreamImpl`, with its prepared frames. -/
def videoStream (a : Addr) : Except Fault FFmpegVideoStreamImpl := do
  let preparedFrames ← (mem.preparedFrames a).mapM fun
    | none => .ok none
    | some frame => some <$> mem.videoFrame frame
  return { mem.videoStreams a with preparedFrames := preparedFrames }

end Memory

namespace Binding

/-! ### Pointers and handles -/

def ofExcept {A : Type} : Except Fault A → Binding A
  | .ok a => pure a
  | .error fault => throw (.storage fault)

def ofBase64 {A : Type} : Except Base64Fault A → Binding A
  | .ok a => pure a
  | .error fault => throw (.base64 fault)

/-- A pointer is dereferenced that designates an object if it is not null. -/
def nonNull : Option Addr → Binding Addr
  | none => throw (.storage .nullDeref)
  | some a => pure a

/-- A plain pointer is dereferenced, whatever became of the object. -/
def deref (a : Addr) : Binding ManagedObj := do
  let mem ← get
  ofExcept (mem.storage.deref a)

/-- `managedObjStorageDefault().get<T>(id)` -/
def find (T : ManagedClass) (id : BitVec 32) : Binding (Option Addr) := do
  let mem ← get
  ofExcept (mem.storage.getAs T id)

section

variable {mem : Memory} {T : ManagedClass} {id : BitVec 32} {A : Type} {r : Option Addr}
  {k : Option Addr → Binding A}

lemma run_find_bind (h : mem.storage.getAs T id = .ok r) :
    (find T id >>= k).run mem = (k r).run mem := by
  rw [EStateM.run_bind]
  have hfind : (find T id).run mem = .ok r mem := by
    change (ofExcept (mem.storage.getAs T id)).run mem = _
    rw [h]
    rfl
  rw [hfind]

lemma run_find_bind_error {fault : Fault} (h : mem.storage.getAs T id = .error fault) :
    (find T id >>= k).run mem = .error (.storage fault) mem := by
  rw [EStateM.run_bind]
  have hfind : (find T id).run mem = .error (.storage fault) mem := by
    change (ofExcept (mem.storage.getAs T id)).run mem = _
    rw [h]
    rfl
  rw [hfind]

end

/-- `managedObjStorageDefault().make<T>()` -/
def make (T : ManagedClass) : Binding (Option Addr) := do
  let mem ← get
  let (storage, handle) ← ofExcept (mem.storage.make T)
  modify fun mem => { mem with storage := storage }
  match handle with
  | none => return none
  | some a => do
    modify fun mem => mem.construct a
    return some a

/-- `make` where the handle is not checked before it is used. -/
def makeNew (T : ManagedClass) : Binding Addr := do
  let handle ← make T
  nonNull handle

/-- An operation of the storage. -/
def updateStorage (f : ManagedObjStorage → Except Fault ManagedObjStorage) : Binding PUnit := do
  let mem ← get
  let storage ← ofExcept (f mem.storage)
  modify fun mem => { mem with storage := storage }

lemma run_updateStorage (f : ManagedObjStorage → Except Fault ManagedObjStorage) (mem : Memory) :
    (updateStorage f).run mem = match f mem.storage with
      | .ok storage => .ok ⟨⟩ { mem with storage := storage }
      | .error fault => .error (.storage fault) mem := by
  change (ofExcept (f mem.storage) >>= fun storage =>
    modify fun mem => { mem with storage := storage }).run mem = _
  cases f mem.storage <;> rfl

/-- A handle goes out of scope. -/
def release (a : Addr) : Binding PUnit := updateStorage fun storage => storage.free a

/-! ### Members -/

def setContents (a : Addr) (contents : List UInt8) : Binding PUnit :=
  modify fun mem => { mem with contents := Function.update mem.contents a contents }

def setImage (a : Addr) (image : ConcreteImage) : Binding PUnit :=
  modify fun mem => { mem with images := Function.update mem.images a image }

def setGifBuilder (a : Addr) (builder : GifBuilderGIFH) : Binding PUnit :=
  modify fun mem => { mem with gifBuilders := Function.update mem.gifBuilders a builder }

/-- The members of an input stream are set. -/
def setBufferObj (a bufferObj : Addr) : Binding PUnit :=
  modify fun mem => { mem with
    bufferObj := Function.update mem.bufferObj a bufferObj
    bufferSize := Function.update mem.bufferSize a (mem.contents bufferObj).length }

def setTimeSecondsEst (a : Addr) (time : ℚ) : Binding PUnit :=
  modify fun mem => { mem with timeSecondsEst := Function.update mem.timeSecondsEst a time }

def setVideoStream (a : Addr) (videoStream : FFmpegVideoStreamImpl) : Binding PUnit :=
  modify fun mem => { mem with videoStreams := Function.update mem.videoStreams a videoStream }

def setStreamObj (a streamObj : Addr) : Binding PUnit :=
  modify fun mem => { mem with streamObj := Function.update mem.streamObj a (some streamObj) }

/-- `imageObj` of a new frame, which has none. -/
def setImageObj (a imageObj : Addr) : Binding PUnit :=
  updateStorage fun storage => do
    let obj ← storage.deref a
    return storage.setObj a { obj with owned := [imageObj] }

/-- The handles in `preparedFrames`; the destructor releases those that are not empty. -/
def setPreparedFrames (a : Addr) (entries : List (Option Addr)) : Binding PUnit := do
  let obj ← deref a
  modify fun mem => { mem with
    storage := mem.storage.setObj a { obj with owned := entries.reduceOption }
    preparedFrames := Function.update mem.preparedFrames a entries }

end Binding

end GifTools
