import GifTools.Base64.RoundTrip
import GifTools.Bindings.Exports
import GifTools.Web.Methods

/-!
# The TypeScript class over its module

`this.vm` is an object with a property for each function of `EMSCRIPTEN_BINDINGS`, which works on
the objects of the module. The names of the properties are text: one the module has not is
`undefined`, and calling it throws a `TypeError` before the module is entered. `bufferToBase64` asks
for a name the module has not.
-/

namespace GifTools.Web

open Throws

/-- An instance with the module it has loaded. -/
structure Linked where
  mem : Memory
  vmObjIds : List ℤ

abbrev LinkedMethod := EStateM JsError Linked

/-! ### The table of exports -/

inductive Export where
  /-- A function of one id. -/
  | takesId (f : BitVec 32 → Call)
  | takesOther

/-- The functions in `EMSCRIPTEN_BINDINGS(GifToolsBindings)`, in this order. -/
def bindings : List (String × Export) := [
  ("objectFree", .takesId .objectFree),
  ("bufferWithSize", .takesOther),
  ("bufferCopyFromMemory", .takesOther),
  ("bufferMutableData", .takesId .bufferMutableData),
  ("bufferData", .takesId .bufferData),
  ("bufferSize", .takesId .bufferSize),
  ("bufferResize", .takesOther),
  ("bufferReserve", .takesOther),
  ("bufferFree", .takesId .bufferFree),
  ("bufferZeroTerminated", .takesId .bufferZeroTerminated),
  ("bufferEmpty", .takesId .bufferEmpty),
  ("bufferToStringBase64", .takesId .bufferToStringBase64),
  ("bufferFromStringBase64", .takesId .bufferFromStringBase64),
  ("pixelFormatByteWidth", .takesOther),
  ("imageWidth", .takesId .imageWidth),
  ("imageHeight", .takesId .imageHeight),
  ("imageFormat", .takesId .imageFormat),
  ("imageClone", .takesId .imageClone),
  ("imageLoadFromFileBuffer", .takesOther),
  ("imageLoadFromBuffer", .takesId .imageLoadFromBuffer),
  ("imageResizeOrClone", .takesOther),
  ("imageExportToPngFileMemory", .takesId .imageExportToPngFileMemory),
  ("gifBuilderInitialize", .takesOther),
  ("gifBuilderAddImage", .takesOther),
  ("gifBuilderFinalize", .takesId .gifBuilderFinalize),
  ("bufferFromUint8Array", .takesOther),
  ("bufferToUint8Array", .takesId .bufferToUint8Array),
  ("ffmpegInputStreamLoadFromBuffer", .takesId .ffmpegInputStreamLoadFromBuffer),
  ("ffmpegVideoStreamOpen", .takesOther),
  ("ffmpegVideoStreamWidth", .takesId .ffmpegVideoStreamWidth),
  ("ffmpegVideoStreamHeight", .takesId .ffmpegVideoStreamHeight),
  ("ffmpegVideoStreamDurationSeconds", .takesId .ffmpegVideoStreamDurationSeconds),
  ("ffmpegVideoStreamFrameDurationSeconds", .takesId .ffmpegVideoStreamFrameDurationSeconds),
  ("ffmpegVideoStreamPrepareAllFrames", .takesOther),
  ("ffmpegVideoStreamPrepareFrames", .takesOther),
  ("ffmpegVideoStreamClearPreparedFrames", .takesId .ffmpegVideoStreamClearPreparedFrames),
  ("ffmpegVideoStreamPickBestFrame", .takesOther),
  ("ffmpegVideoStreamPickBestPreparedFrame", .takesOther),
  ("ffmpegVideoFrameTimeSeconds", .takesId .ffmpegVideoFrameTimeSeconds),
  ("ffmpegVideoFrameImage", .takesId .ffmpegVideoFrameImage),
  ("ffmpegVideoStreamClose", .takesId .ffmpegVideoStreamClose)]

/-! ### Calls by name -/

variable (stb : Stb) (exports : List (String × Export))

/-- A call in the module. -/
def enter (call : Call) : LinkedMethod Value := do
  let s ← get
  match (Bindings.exec stb call).run s.mem with
  | .ok value mem => do
    set { s with mem := mem }
    pure value
  | .error _ mem => do
    set { s with mem := mem }
    throw .RuntimeError

/-- `this.vm[name](id)`, for a function of one id; the id becomes an `int`. -/
def callVmWithId (name : String) (id : ℤ) : LinkedMethod Value :=
  match exports.lookup name with
  | some (.takesId f) => enter stb (f (BitVec.ofInt 32 id))
  | _ => throw .TypeError

/-- An `int` is a number in TypeScript; nothing else is compared with numbers here. -/
def toNumber : Value → ℤ
  | .int n => n.toInt
  | _ => invalidObjId

/-- What `TextDecoder` is given: the bytes that are in the view when it reads them. -/
def toBytes : Value → List UInt8
  | .view bytes => bytes
  | _ => []

/-! ### The method -/

namespace Linked

def internalAddObjId (objId : ℤ) : LinkedMethod PUnit :=
  modify fun s =>
    if objId ∈ s.vmObjIds then s else { s with vmObjIds := s.vmObjIds ++ [objId] }

def internalFreeObjId (objId : ℤ) : LinkedMethod PUnit :=
  if ¬ isValidObj objId then
    pure ⟨⟩
  else do
    modify fun s => { s with vmObjIds := s.vmObjIds.erase objId }
    let _ ← callVmWithId stb exports "objectFree" objId

/-- The bytes of the text; base64 is ASCII. -/
def bufferToBase64 (bufferId : ℤ) : LinkedMethod (List UInt8) :=
  if ¬ isValidObj bufferId then
    pure []
  else do
    let base64BufferId ← toNumber <$> callVmWithId stb exports "bufferToBase64" bufferId
    if ¬ isValidObj base64BufferId then
      pure []
    else do
      internalAddObjId base64BufferId
      let bufferArray ← toBytes <$> callVmWithId stb exports "bufferToUint8Array" base64BufferId
      internalFreeObjId stb exports base64BufferId
      pure bufferArray

end Linked

/-! ### The text of a buffer -/

/-- The id is that of a live buffer with these contents. -/
def IsBuffer (mem : Memory) (id : ℤ) (contents : List UInt8) : Prop :=
  ∃ a, mem.storage.getAs .buffer (BitVec.ofInt 32 id) = .ok (some a) ∧ mem.contents a = contents

variable {stb exports} {s : Linked} {id : ℤ}

lemma run_bufferToBase64_invalid (h : ¬ isValidObj id) :
    (Linked.bufferToBase64 stb exports id).run s = .ok [] s := by
  rw [Linked.bufferToBase64, if_pos h]
  rfl

/-- The name is looked up before anything else happens. -/
lemma run_bufferToBase64_undefined (h : isValidObj id)
    (hname : exports.lookup "bufferToBase64" = none) :
    (Linked.bufferToBase64 stb exports id).run s = .error .TypeError s := by
  have hcall : callVmWithId stb exports "bufferToBase64" id = throw .TypeError := by
    rw [callVmWithId, hname]
  rw [Linked.bufferToBase64, if_neg (not_not.mpr h), hcall]
  rfl

lemma lookup_bufferToBase64 : bindings.lookup "bufferToBase64" = none := by
  decide +kernel

/-- What `bufferToBase64` is for. -/
structure ToBase64 (stb : Stb) (s : Linked) (id : ℤ) : Prop where
  /-- The text of a buffer that is not empty is returned; no object is left behind or lost. -/
  text : ∀ b, b ≠ [] → IsBuffer s.mem id b →
    ∃ s', (Linked.bufferToBase64 stb bindings id).run s = .ok (base64Text b) s' ∧
      (∀ a, s'.mem.storage.Live a ↔ s.mem.storage.Live a) ∧ s'.vmObjIds = s.vmObjIds
  /-- Nothing comes of an id that is none. -/
  invalid : ¬ isValidObj id → (Linked.bufferToBase64 stb bindings id).run s = .ok [] s

/-- For no buffer that is not empty. -/
theorem bufferToBase64_undefined (stb : Stb) (s : Linked) (id : ℤ) :
    ToBase64 stb s id ↔ ¬ ∃ b, b ≠ [] ∧ IsBuffer s.mem id b := by
  constructor
  · rintro ⟨htext, -⟩ ⟨b, hne, hbuffer⟩
    obtain ⟨s', hrun, -⟩ := htext b hne hbuffer
    by_cases hid : isValidObj id = true
    · rw [run_bufferToBase64_undefined hid lookup_bufferToBase64] at hrun
      cases hrun
    · rw [run_bufferToBase64_invalid hid] at hrun
      injection hrun with hempty
      have hlength := length_base64Text b
      have hpos := List.length_pos_iff.mpr hne
      rw [← hempty, List.length_nil] at hlength
      omega
  · intro hnone
    exact ⟨fun b hne hbuffer => absurd ⟨b, hne, hbuffer⟩ hnone, run_bufferToBase64_invalid⟩

/-- A module that was given one buffer of one byte. -/
theorem bufferToBase64_undefined_one :
    ∃ mem, Bindings.step .none .init (.bufferFromUint8Array [0x4d]) = .ok mem ∧
      IsBuffer mem 0x10100000 [0x4d] ∧
      (Linked.bufferToBase64 .none bindings 0x10100000).run ⟨mem, []⟩ =
        .error .TypeError ⟨mem, []⟩ ∧
      ¬ ToBase64 .none ⟨mem, []⟩ 0x10100000 := by
  have hundefined : ∀ s, (Linked.bufferToBase64 .none bindings 0x10100000).run s =
      .error .TypeError s :=
    fun s => run_bufferToBase64_undefined (by decide) lookup_bufferToBase64
  have hbuffer : ∀ {mem}, Bindings.step .none .init (.bufferFromUint8Array [0x4d]) = .ok mem →
      IsBuffer mem 0x10100000 [0x4d] := by
    intro mem hmem
    cases hmem
    exact ⟨0, by rfl, by rfl⟩
  obtain ⟨mem, hmem⟩ : ∃ mem, Bindings.step .none .init (.bufferFromUint8Array [0x4d]) = .ok mem :=
    ⟨_, rfl⟩
  refine ⟨mem, hmem, hbuffer hmem, hundefined _, fun h => ?_⟩
  obtain ⟨s', hrun, -⟩ := h.text [0x4d] (by simp) (hbuffer hmem)
  rw [hundefined] at hrun
  cases hrun

end GifTools.Web
