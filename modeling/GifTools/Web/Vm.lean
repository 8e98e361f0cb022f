import GifTools.Core.Throws
import GifTools.Storage.Object
import Mathlib.Data.Rat.Defs

/-!
# The virtual machine seen from TypeScript

A `GifTools` instance holds ids and calls functions of the WebAssembly module `this.vm`. Any such
call can throw, and one that makes an object can refuse and return `0`. A `Vm` is one way for the
module to answer, call by call, so that a statement about every `Vm` is about every outcome of
every call. The module's objects are kept beside the fields of the instance: what is made through
the instance, what of it is still live, and what `objectFree` was called with.
-/

namespace GifTools.Web

open Throws

/-! ### Instances -/

inductive JsError where
  | GifToolsValidationError (message : String)
  /-- A property of `null` is read. -/
  | TypeError
  /-- A call traps in the module. -/
  | RuntimeError
  deriving DecidableEq

/-- An object made by a VM call. -/
structure VmObject where
  /-- The number of the call that made it. -/
  call : ℕ
  /-- The module it lives in. -/
  vm : ℕ
  objId : ℤ
  cls : ManagedClass
  /-- What it was made from, by the calls that made these: the argument first. -/
  sources : List ℕ
  deriving DecidableEq

/-- The fields of the class, and what happened in the modules it has loaded. -/
structure Instance where
  vm : Option ℕ
  vmStatus : String
  vmObjIds : List ℤ
  currentGifBuilderId : ℤ
  currentGifBuilderWidth : ℤ
  currentGifBuilderHeight : ℤ
  currentInputStreamBufferId : ℤ
  currentInputStreamId : ℤ
  currentVideoStreamId : ℤ
  /-- The calls of `init` whose module is not there yet. -/
  loading : ℕ
  /-- The modules loaded so far; they are numbered from zero. -/
  modules : ℕ
  /-- The VM calls made so far; they are numbered from zero. -/
  calls : ℕ
  created : List VmObject
  live : List VmObject
  /-- The objects `objectFree` was called for, one entry for a call. -/
  passed : List ℕ

abbrev Method := EStateM JsError Instance

def invalidObjId : ℤ := 0

def isValidObj (objId : ℤ) : Bool := 0 < objId

@[simp] lemma isValidObj_iff {objId : ℤ} : isValidObj objId = true ↔ 0 < objId := by
  simp [isValidObj]

def assert (cond : Bool) (msg : String) : Method Unit :=
  if cond then pure () else throw (.GifToolsValidationError msg)

/-- Whether an object is the one an id stands for in a module. -/
def VmObject.IsAt (vm : ℕ) (objId : ℤ) (o : VmObject) : Prop := o.vm = vm ∧ o.objId = objId

instance (vm : ℕ) (objId : ℤ) : DecidablePred (VmObject.IsAt vm objId) :=
  fun o => inferInstanceAs (Decidable (o.vm = vm ∧ o.objId = objId))

/-- The live object under an id. -/
def Instance.find (s : Instance) (vm : ℕ) (objId : ℤ) : Option VmObject :=
  s.live.find? (VmObject.IsAt vm objId)

/-! ### Calls -/

/-- The answer of a call that makes an object: the words of its id are the module's choice, its
type is not. -/
inductive Creation where
  | throws
  | refuses
  | object (identifier : BitVec 20) (generation : BitVec 8)

/-- The answers of the module, by the number of the call. -/
structure Vm where
  create : ℕ → Creation
  /-- Whether `objectFree` returns. -/
  frees : ℕ → Bool
  int : ℕ → Option ℤ
  double : ℕ → Option ℚ
  bool : ℕ → Option Bool
  bytes : ℕ → Option (List UInt8)

/-- `this.vm.f`: the module that is called and the number of the call. -/
def callVm : Method (ℕ × ℕ) := do
  let s ← get
  match s.vm with
  | none => throw .TypeError
  | some vm =>
    modify fun s => { s with calls := s.calls + 1 }
    pure (vm, s.calls)

/-- A call that only returns a value. -/
def ask {A : Type} (answer : ℕ → Option A) : Method A := do
  let call ← callVm
  match answer call.2 with
  | none => throw .RuntimeError
  | some a => pure a

/-- The `int32_t` a binding returns for an object of class `T` with these words. -/
def newObjId (T : ManagedClass) (identifier : BitVec 20) (generation : BitVec 8) : ℤ :=
  (ManagedObjId.mk identifier generation (typeNibble T)).composite.toInt

def Instance.newObject (s : Instance) (T : ManagedClass) (source : Option ℤ) (vm call : ℕ)
    (objId : ℤ) : VmObject where
  call := call
  vm := vm
  objId := objId
  cls := T
  sources :=
    match source.bind (s.find vm) with
    | none => []
    | some o => o.call :: o.sources

namespace Vm

variable (vm : Vm)

/-- A call that makes an object of class `T`. No two live objects of a module have the same id. -/
def make (T : ManagedClass) (source : Option ℤ) : Method ℤ := do
  let call ← callVm
  match vm.create call.2 with
  | .throws => throw .RuntimeError
  | .refuses => pure invalidObjId
  | .object identifier generation =>
    let s ← get
    let o := s.newObject T source call.1 call.2 (newObjId T identifier generation)
    if (s.find call.1 o.objId).isSome then
      pure invalidObjId
    else
      modify fun s => { s with created := s.created ++ [o], live := s.live ++ [o] }
      pure o.objId

/-- The call is recorded under the live object whose id it is given, also when it traps. -/
def objectFree (objId : ℤ) : Method Unit := do
  let call ← callVm
  modify fun s => { s with passed := s.passed ++ ((s.find call.1 objId).map (·.call)).toList }
  if vm.frees call.2 then
    modify fun s => { s with live := s.live.filter fun o => ¬ o.IsAt call.1 objId }
  else
    throw .RuntimeError

def bufferFromUint8Array (_arr : List UInt8) : Method ℤ := vm.make .buffer none

/-- Exported as `bufferToStringBase64`: a module without this name throws. -/
def bufferToBase64 (bufferId : ℤ) : Method ℤ := vm.make .buffer (some bufferId)

def bufferToUint8Array (_bufferId : ℤ) : Method (List UInt8) := ask vm.bytes

def imageLoadFromBuffer (bufferId : ℤ) : Method ℤ := vm.make .image (some bufferId)

def imageResizeOrClone (imageId _width _height : ℤ) : Method ℤ := vm.make .image (some imageId)

def imageWidth (_imageId : ℤ) : Method ℤ := ask vm.int

def imageHeight (_imageId : ℤ) : Method ℤ := ask vm.int

def ffmpegInputStreamLoadFromBuffer (bufferId : ℤ) : Method ℤ :=
  vm.make .ffmpegInputStream (some bufferId)

def ffmpegVideoStreamOpen (inputStreamId : ℤ) : Method ℤ :=
  vm.make .ffmpegVideoStream (some inputStreamId)

def ffmpegVideoStreamWidth (_videoStreamId : ℤ) : Method ℤ := ask vm.int

def ffmpegVideoStreamHeight (_videoStreamId : ℤ) : Method ℤ := ask vm.int

def ffmpegVideoStreamDurationSeconds (_videoStreamId : ℤ) : Method ℚ := ask vm.double

def ffmpegVideoStreamFrameDurationSeconds (_videoStreamId : ℤ) : Method ℚ := ask vm.double

def ffmpegVideoStreamPrepareAllFrames (_videoStreamId : ℤ) : Method ℤ := ask vm.int

def ffmpegVideoStreamPrepareFrames (_videoStreamId : ℤ) (_framesPerSecond : ℚ) : Method ℤ :=
  ask vm.int

def ffmpegVideoStreamPickBestPreparedFrame (videoStreamId : ℤ) (_sampleTime : ℚ) : Method ℤ :=
  vm.make .ffmpegVideoFrame (some videoStreamId)

def ffmpegVideoStreamPickBestFrame (videoStreamId : ℤ) (_sampleTime : ℚ) : Method ℤ :=
  vm.make .ffmpegVideoFrame (some videoStreamId)

def ffmpegVideoFrameImage (_frameId : ℤ) : Method ℤ := ask vm.int

def ffmpegVideoFrameTimeSeconds (_frameId : ℤ) : Method ℚ := ask vm.double

def gifBuilderInitialize (_width _height _delay : ℤ) : Method ℤ := vm.make .gifBuilder none

def gifBuilderAddImage (_gifBuilderId _imageId _delay : ℤ) : Method Bool := ask vm.bool

def gifBuilderFinalize (gifBuilderId : ℤ) : Method ℤ := vm.make .buffer (some gifBuilderId)

end Vm

end GifTools.Web
