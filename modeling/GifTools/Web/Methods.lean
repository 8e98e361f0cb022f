import GifTools.Core.Runs
import GifTools.Web.Vm

/-!
# The methods of the TypeScript class

Every method of `GifTools`, as it reads and writes the fields of the instance and calls the VM. An
`Op` is one method call with its arguments, and a run is a sequence of them; a method that throws
leaves the fields as they are at that moment and the run goes on.
-/

namespace GifTools.Web

open Throws

structure GifToolsVideoFrame where
  frameId : ℤ
  imageId : ℤ
  timeSeconds : ℚ

/-! ### Initialization -/

def vmStatusNull : String := "null"
def vmStatusPending : String := "pending"
def vmStatusFulfilled : String := "fullfilled"

/-- The part of `init` before its promise. -/
def init : Method Unit :=
  modify fun s => { s with
    vm := none
    vmStatus := vmStatusPending
    loading := s.loading + 1 }

/-- The callback of `init`, when the factory has loaded a module. -/
def initThen : Method Bool := do
  let s ← get
  if s.loading = 0 then
    pure false
  else
    modify fun s => { s with
      vm := some s.modules
      vmStatus := vmStatusFulfilled
      loading := s.loading - 1
      modules := s.modules + 1 }
    pure true

/-! ### The list of ids -/

def internalAddObjIds (objIds : List ℤ) : Method Unit :=
  objIds.forM fun objId => do
    let s ← get
    if objId ∈ s.vmObjIds then
      pure ()
    else
      modify fun s => { s with vmObjIds := s.vmObjIds ++ [objId] }

/-- What the rest parameter is bound to: an array, with or without arguments. -/
def rest (objIds : List ℤ) : Option (List ℤ) := some objIds

def internalFreeObjIds (vm : Vm) : Option (List ℤ) → Method Unit
  | none => do
    let s ← get
    s.vmObjIds.forM fun objId =>
      if ¬ isValidObj objId then pure () else vm.objectFree objId
    modify fun s => { s with vmObjIds := [] }
  | some objIds =>
    objIds.forM fun objId =>
      if ¬ isValidObj objId then
        pure ()
      else do
        -- `splice` at the first index, if there is one
        modify fun s => { s with vmObjIds := s.vmObjIds.erase objId }
        vm.objectFree objId

variable (vm : Vm)

def deinit : Method Unit := do
  let s ← get
  assert (¬ isValidObj s.currentGifBuilderId) "Caught active GIF encoder."
  internalFreeObjIds vm (rest [])
  modify fun s => { s with vmStatus := vmStatusNull, vm := none }

/-! ### Buffers and images -/

def bufferToBase64 (bufferId : ℤ) : Method (List UInt8) :=
  if ¬ isValidObj bufferId then
    pure []
  else do
    let base64BufferId ← vm.bufferToBase64 bufferId
    if ¬ isValidObj base64BufferId then
      pure []
    else
      internalAddObjIds [base64BufferId]
      let bufferArray ← vm.bufferToUint8Array base64BufferId
      internalFreeObjIds vm (rest [base64BufferId])
      pure bufferArray

/-- `fileBuffer` is `none` for `null` and `undefined`. -/
def imageLoadFromFileBuffer : Option (List UInt8) → Method ℤ
  | none => pure invalidObjId
  | some fileBuffer => do
    let bufferId ← vm.bufferFromUint8Array fileBuffer
    if ¬ isValidObj bufferId then
      pure invalidObjId
    else
      internalAddObjIds [bufferId]
      let imageId ← vm.imageLoadFromBuffer bufferId
      if ¬ isValidObj bufferId then
        internalFreeObjIds vm (rest [bufferId])
        pure invalidObjId
      else
        internalAddObjIds [imageId]
        pure imageId

def imageResize (imageId width height : ℤ) : Method ℤ :=
  if [imageId, width, height].any fun n => n ≤ 0 then
    pure imageId
  else do
    let imageWidth ← vm.imageWidth imageId
    -- `&&` asks for the height only if the widths agree
    let extentsMatch ← (if width = imageWidth then
        (fun imageHeight => decide (height = imageHeight)) <$> vm.imageHeight imageId
      else
        pure false : Method Bool)
    if extentsMatch then
      pure imageId
    else
      let resizedImageId ← vm.imageResizeOrClone imageId width height
      if ¬ isValidObj resizedImageId then
        pure imageId
      else
        internalAddObjIds [resizedImageId]
        pure resizedImageId

/-! ### The video decoder -/

def videoDecoderOpenVideoStream : Option (List UInt8) → Method Bool
  | none => pure false
  | some fileBuffer => do
    let bufferId ← vm.bufferFromUint8Array fileBuffer
    modify fun s => { s with currentInputStreamBufferId := bufferId }
    if ¬ isValidObj (← get).currentInputStreamBufferId then
      pure false
    else
      internalAddObjIds [(← get).currentInputStreamBufferId]
      let inputStreamId ←
        vm.ffmpegInputStreamLoadFromBuffer (← get).currentInputStreamBufferId
      modify fun s => { s with currentInputStreamId := inputStreamId }
      if ¬ isValidObj (← get).currentInputStreamBufferId then
        internalFreeObjIds vm (rest [(← get).currentInputStreamBufferId])
        pure false
      else
        internalAddObjIds [(← get).currentInputStreamId]
        let opened ← try
            let videoStreamId ← vm.ffmpegVideoStreamOpen (← get).currentInputStreamId
            modify fun s => { s with currentVideoStreamId := videoStreamId }
            pure (isValidObj (← get).currentVideoStreamId)
          catch _ => pure false
        if opened then
          pure true
        else
          internalFreeObjIds vm (rest [(← get).currentInputStreamBufferId])
          internalFreeObjIds vm (rest [(← get).currentInputStreamId])
          pure false

/-- An accessor of the current video stream, `invalid` without one. -/
def videoDecoderAsk {A : Type} (invalid : A) (answer : ℤ → Method A) : Method A := do
  let s ← get
  if ¬ isValidObj s.currentVideoStreamId then pure invalid else answer s.currentVideoStreamId

def videoDecoderWidth : Method ℤ := videoDecoderAsk 0 vm.ffmpegVideoStreamWidth

def videoDecoderHeight : Method ℤ := videoDecoderAsk 0 vm.ffmpegVideoStreamHeight

def videoDecoderDurationSeconds : Method ℚ :=
  videoDecoderAsk 0 vm.ffmpegVideoStreamDurationSeconds

def videoDecoderFrameDurationSeconds : Method ℚ :=
  videoDecoderAsk 0 vm.ffmpegVideoStreamFrameDurationSeconds

def videoDecoderPrepareAllFrames : Method ℤ :=
  videoDecoderAsk 0 vm.ffmpegVideoStreamPrepareAllFrames

def videoDecoderPrepareFrames (framesPerSecond : ℚ) : Method ℤ :=
  videoDecoderAsk 0 fun id => vm.ffmpegVideoStreamPrepareFrames id framesPerSecond

/-- The body that the two pick methods share; they differ in the VM call. -/
def videoDecoderPick (pick : ℤ → ℚ → Method ℤ) (durationSeconds : ℚ) :
    Method (Option GifToolsVideoFrame) := do
  assert (isValidObj (← get).currentVideoStreamId) "Caught null video stream."
  let frameId ← pick (← get).currentVideoStreamId durationSeconds
  if ¬ isValidObj frameId then
    pure none
  else
    internalAddObjIds [frameId]
    let imageId ← vm.ffmpegVideoFrameImage frameId
    let timeSeconds ← vm.ffmpegVideoFrameTimeSeconds frameId
    pure (some ⟨frameId, imageId, timeSeconds⟩)

def videoDecoderPickClosestPreparedVideoFrame (durationSeconds : ℚ) :
    Method (Option GifToolsVideoFrame) :=
  videoDecoderPick vm vm.ffmpegVideoStreamPickBestPreparedFrame durationSeconds

def videoDecoderPickClosestVideoFrame (durationSeconds : ℚ) :
    Method (Option GifToolsVideoFrame) :=
  videoDecoderPick vm vm.ffmpegVideoStreamPickBestFrame durationSeconds

def videoDecoderFreeVideoFrame : Option GifToolsVideoFrame → Method Unit
  | none => pure ()
  | some frame => do
    assert (isValidObj (← get).currentVideoStreamId) "Caught null video stream."
    internalFreeObjIds vm (rest [frame.frameId])

def videoDecoderCloseVideoStream : Method Unit := do
  assert (isValidObj (← get).currentVideoStreamId) "Caught null video stream."
  let s ← get
  internalFreeObjIds vm (rest [s.currentInputStreamId, s.currentVideoStreamId])

/-! ### The encoder -/

def gifEncoderBegin (width height delay : ℤ) : Method Bool := do
  assert (¬ isValidObj (← get).currentGifBuilderId) "Caught existing GIF encoder."
  let gifBuilderId ← vm.gifBuilderInitialize width height delay
  modify fun s => { s with currentGifBuilderId := gifBuilderId }
  if ¬ isValidObj (← get).currentGifBuilderId then
    pure false
  else
    internalAddObjIds [(← get).currentGifBuilderId]
    assert (0 < width) "Caught invalid extent."
    assert (0 < height) "Caught invalid extent."
    modify fun s => { s with currentGifBuilderWidth := width, currentGifBuilderHeight := height }
    pure true

def gifEncoderAddImage (imageId delay : ℤ) : Method Bool := do
  assert (isValidObj (← get).currentGifBuilderId) "Caught null GIF encoder."
  assert (isValidObj imageId) "Caught null image."
  let imageWidth ← vm.imageWidth imageId
  assert (imageWidth = (← get).currentGifBuilderWidth) "Caught invalid image."
  let imageHeight ← vm.imageHeight imageId
  assert (imageHeight = (← get).currentGifBuilderHeight) "Caught invalid image."
  vm.gifBuilderAddImage (← get).currentGifBuilderId imageId delay

def gifEncoderEnd : Method (List UInt8) := do
  assert (isValidObj (← get).currentGifBuilderId) "Caught null GIF encoder."
  let gifBufferId ← vm.gifBuilderFinalize (← get).currentGifBuilderId
  internalAddObjIds [gifBufferId]
  let gifBufferArray ← vm.bufferToUint8Array gifBufferId
  internalFreeObjIds vm (rest [(← get).currentGifBuilderId])
  modify fun s => { s with
    currentGifBuilderId := invalidObjId
    currentGifBuilderWidth := 0
    currentGifBuilderHeight := 0 }
  pure gifBufferArray

/-! ### Runs -/

inductive Op where
  | init
  | initThen
  | deinit
  | internalAddObjIds (objIds : List ℤ)
  | internalFreeObjIds (objIds : List ℤ)
  | bufferToBase64 (bufferId : ℤ)
  | imageLoadFromFileBuffer (fileBuffer : Option (List UInt8))
  | imageResize (imageId width height : ℤ)
  | videoDecoderOpenVideoStream (fileBuffer : Option (List UInt8))
  | videoDecoderWidth
  | videoDecoderHeight
  | videoDecoderDurationSeconds
  | videoDecoderFrameDurationSeconds
  | videoDecoderPrepareAllFrames
  | videoDecoderPrepareFrames (framesPerSecond : ℚ)
  | videoDecoderPickClosestPreparedVideoFrame (durationSeconds : ℚ)
  | videoDecoderPickClosestVideoFrame (durationSeconds : ℚ)
  | videoDecoderFreeVideoFrame (frame : Option GifToolsVideoFrame)
  | videoDecoderCloseVideoStream
  | gifEncoderBegin (width height delay : ℤ)
  | gifEncoderAddImage (imageId delay : ℤ)
  | gifEncoderEnd

def Op.call (vm : Vm) : Op → Method Unit
  | .init => Web.init
  | .initThen => discard Web.initThen
  | .deinit => Web.deinit vm
  | .internalAddObjIds objIds => Web.internalAddObjIds objIds
  | .internalFreeObjIds objIds => Web.internalFreeObjIds vm (rest objIds)
  | .bufferToBase64 bufferId => discard (Web.bufferToBase64 vm bufferId)
  | .imageLoadFromFileBuffer fileBuffer => discard (Web.imageLoadFromFileBuffer vm fileBuffer)
  | .imageResize imageId width height => discard (Web.imageResize vm imageId width height)
  | .videoDecoderOpenVideoStream fileBuffer =>
    discard (Web.videoDecoderOpenVideoStream vm fileBuffer)
  | .videoDecoderWidth => discard (Web.videoDecoderWidth vm)
  | .videoDecoderHeight => discard (Web.videoDecoderHeight vm)
  | .videoDecoderDurationSeconds => discard (Web.videoDecoderDurationSeconds vm)
  | .videoDecoderFrameDurationSeconds => discard (Web.videoDecoderFrameDurationSeconds vm)
  | .videoDecoderPrepareAllFrames => discard (Web.videoDecoderPrepareAllFrames vm)
  | .videoDecoderPrepareFrames framesPerSecond =>
    discard (Web.videoDecoderPrepareFrames vm framesPerSecond)
  | .videoDecoderPickClosestPreparedVideoFrame durationSeconds =>
    discard (Web.videoDecoderPickClosestPreparedVideoFrame vm durationSeconds)
  | .videoDecoderPickClosestVideoFrame durationSeconds =>
    discard (Web.videoDecoderPickClosestVideoFrame vm durationSeconds)
  | .videoDecoderFreeVideoFrame frame => Web.videoDecoderFreeVideoFrame vm frame
  | .videoDecoderCloseVideoStream => Web.videoDecoderCloseVideoStream vm
  | .gifEncoderBegin width height delay => discard (Web.gifEncoderBegin vm width height delay)
  | .gifEncoderAddImage imageId delay => discard (Web.gifEncoderAddImage vm imageId delay)
  | .gifEncoderEnd => discard (Web.gifEncoderEnd vm)

/-- A method call seen from outside: it leaves some state, whether it returns or throws. -/
def step (s : Instance) (op : Op) : Except JsError Instance := .ok (after (op.call vm) s)

@[simp] lemma step_eq (s : Instance) (op : Op) : step vm s op = .ok (after (op.call vm) s) := rfl

/-- An instance that `init` has just initialised, with the first module. -/
def initialised : Instance where
  vm := some 0
  vmStatus := vmStatusFulfilled
  vmObjIds := []
  currentGifBuilderId := 0
  currentGifBuilderWidth := 0
  currentGifBuilderHeight := 0
  currentInputStreamBufferId := 0
  currentInputStreamId := 0
  currentVideoStreamId := 0
  loading := 0
  modules := 1
  calls := 0
  created := []
  live := []
  passed := []

/-- A module that makes all it is asked for, under consecutive identifiers. -/
def Vm.obliging : Vm where
  create n := .object (BitVec.ofNat 20 n) 1
  frees _ := true
  int _ := some 1
  double _ := some 1
  bool _ := some true
  bytes _ := some []

end GifTools.Web
