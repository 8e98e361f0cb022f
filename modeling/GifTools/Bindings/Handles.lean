import GifTools.Bindings.Exports
import GifTools.Bindings.Keep

/-!
# Handles in live objects

A frame holds the handle of its image, a stream those of its prepared frames. The exported functions
keep these handles the only ones of objects that exist, as long as `objectFree` is not called with
the id of an object that another object owns. Such ids are given away: `ffmpegVideoFrameImage`
returns the id of an image that stays the frame's.
-/

namespace GifTools

open Throws Runs ManagedObjStorage Binding

variable {O : Set Addr} {mem : Memory} {stb : Stb} {A : Type} {P : ConcreteImage → Prop}
  {I : Memory → Prop}

namespace Bindings

/-! ### The exported functions -/

lemma preserves_objectReleaseAndReturnId (object : Option Addr) :
    Preserves I (objectReleaseAndReturnId object) := by
  refine .bind ?_ fun _ => .pure
  cases object with
  | none => exact .pure
  | some a => exact .bind (preserves_deref a) fun _ => .pure

/-- A function on objects whose object is given out by its id. -/
lemma preserves_exported {m : Binding (Option Addr)} (hm : Preserves I m) :
    Preserves I (m >>= objectReleaseAndReturnId) :=
  .bind hm preserves_objectReleaseAndReturnId

lemma ends_of_preserves {m : Binding A} (hm : Preserves (Holding O []) m)
    (h : Holding O [] mem) :
    Ends m mem (fun _ => Holding ∅ []) fun _ => Holding ∅ [] :=
  (hm mem h).imp (fun _ _ h => h.forget) fun _ _ h => h.forget

/-- A stream that was found is open while the function runs. -/
lemma preserves_find_stream {f : Option Addr → Binding A} {id : BitVec 32}
    (hnone : Preserves (Holding ∅ []) (f none))
    (hsome : ∀ s mem, Holding {s} [] mem →
      Ends (f (some s)) mem (fun _ => Holding ∅ []) fun _ => Holding ∅ []) :
    Preserves (Holding ∅ []) (find .ffmpegVideoStream id >>= f) := by
  intro mem h
  rw [ends_bind]
  refine (ends_find_stream h id).imp (fun r mem h => ?_) fun _ _ h => h
  cases r with
  | none => exact hnone mem h.1
  | some s => exact hsome s mem (h.2 s rfl)

/-- Reading a member, if there is an object. -/
lemma preserves_find_read {T : ManagedClass} {id : BitVec 32} {default : Value}
    (read : Addr → Memory → Value) :
    Preserves I (do
      let object ← find T id
      match object with
      | none => return default
      | some a => do
        let mem ← get
        return read a mem) := by
  apply Preserves.bind (preserves_find T id)
  intro object
  cases object with
  | none => exact .pure
  | some a => exact .get_bind fun _ _ => .pure

/-- A function on objects that is called with what was found. -/
lemma preserves_find_exported {T : ManagedClass} {id : BitVec 32}
    {f : Option Addr → Binding (Option Addr)} (hf : ∀ r, Preserves I (f r)) :
    Preserves I (do
      let object ← find T id
      let result ← f object
      objectReleaseAndReturnId result) :=
  .bind (preserves_find T id) fun r => preserves_exported (hf r)

/-- A pointer that is used without a test. -/
lemma preserves_find_nonNull {T : ManagedClass} {id : BitVec 32}
    {f : Addr → Binding A} (hf : ∀ a, Preserves I (f a)) :
    Preserves I (do
      let object ← find T id
      let a ← nonNull object
      f a) :=
  .bind (preserves_find T id) fun object => .bind (preserves_nonNull object) hf

lemma preserves_imageMember (member : ConcreteImage → BitVec 32) (imageId : BitVec 32) :
    Preserves I (imageMember member imageId) :=
  preserves_find_nonNull fun _ => .get_bind fun _ _ => .pure

lemma preserves_bufferResize (hI : KeepsMembers P I) (bufferId value : BitVec 32) :
    Preserves I (bufferResize bufferId value) := by
  apply Preserves.bind (preserves_find .buffer bufferId)
  intro bufferObj
  apply Preserves.ite
  · intro _
    apply Preserves.bind (preserves_nonNull bufferObj)
    intro a
    exact .get_bind fun _ _ => .bind (hI.setContents a _) fun _ => .pure
  · intro _
    exact .pure

lemma preserves_bufferReserve (bufferId value : BitVec 32) :
    Preserves I (bufferReserve bufferId value) := by
  apply Preserves.bind (preserves_find .buffer bufferId)
  intro bufferObj
  apply Preserves.ite
  · intro _
    exact .bind (preserves_nonNull bufferObj) fun _ => .pure
  · intro _
    exact .pure

lemma preserves_bufferFree (hI : KeepsMembers P I) (bufferId : BitVec 32) :
    Preserves I (bufferFree bufferId) := by
  apply Preserves.bind (preserves_find .buffer bufferId)
  intro bufferObj
  cases bufferObj with
  | none => exact .pure
  | some a => exact .bind (hI.setContents a []) fun _ => .pure

lemma preserves_bufferZeroTerminated (bufferId : BitVec 32) :
    Preserves I (bufferZeroTerminated bufferId) := by
  apply Preserves.bind (preserves_find .buffer bufferId)
  intro bufferObj
  cases bufferObj with
  | none => exact .pure
  | some a =>
    apply Preserves.get_bind
    intro mem _
    split
    · exact .throw
    · exact .pure

lemma preserves_gifBuilderAddImage (hI : KeepsMembers P I) (gifBuilderId imageId delay : BitVec 32)
    (env : Uninit) : Preserves I (gifBuilderAddImage gifBuilderId imageId delay env) := by
  apply Preserves.bind (preserves_find .gifBuilder gifBuilderId)
  intro gifBuilderObj
  apply Preserves.bind (preserves_find .image imageId)
  intro imageObj
  exact .bind (Objects.preserves_gifBuilderAddImage hI gifBuilderObj imageObj _ env) fun _ => .pure

/-- Handing out the id of the image does not change anything yet. -/
lemma preserves_ffmpegVideoFrameImage (ffmpegVideoFrameId : BitVec 32) :
    Preserves I (ffmpegVideoFrameImage ffmpegVideoFrameId) :=
  preserves_find_nonNull fun a =>
    .bind (preserves_deref a) fun _ => preserves_objectReleaseAndReturnId _

/-- The functions that make an object at most, and do not resize an image. -/
def MakesAtMost : Call → Prop
  | .objectFree _ | .imageResizeOrClone _ _ _ | .ffmpegVideoStreamOpen _ _
  | .ffmpegVideoStreamPrepareAllFrames _ _ | .ffmpegVideoStreamPrepareFrames _ _ _
  | .ffmpegVideoStreamPickBestFrame _ _ _ | .ffmpegVideoStreamPickBestPreparedFrame _ _
  | .ffmpegVideoStreamClearPreparedFrames _ | .ffmpegVideoStreamClose _ => False
  | _ => True

lemma preserves_exec_of_makesAtMost (hI : KeepsMembers P I)
    (hload : ∀ bytes pixels x y, stb.stbi_load_from_memory bytes = .ok (some pixels, x, y) →
      P ⟨.r8g8b8a8Unorm, x, y, pixels⟩) {call : Call} (hcall : MakesAtMost call) :
    Preserves I (exec stb call) := by
  cases call
  case objectFree | imageResizeOrClone | ffmpegVideoStreamOpen | ffmpegVideoStreamPrepareAllFrames |
      ffmpegVideoStreamPrepareFrames | ffmpegVideoStreamPickBestFrame |
      ffmpegVideoStreamPickBestPreparedFrame | ffmpegVideoStreamClearPreparedFrames |
      ffmpegVideoStreamClose => exact hcall.elim
  -- functions that read
  case bufferMutableData id | bufferData id => exact .bind (preserves_find _ _) fun _ => .pure
  case bufferSize id | bufferEmpty id | ffmpegVideoFrameTimeSeconds id =>
    exact preserves_find_read _
  case ffmpegVideoStreamWidth id | ffmpegVideoStreamHeight id |
      ffmpegVideoStreamDurationSeconds id | ffmpegVideoStreamFrameDurationSeconds id =>
    exact preserves_find_read _
  case imageWidth id =>
    exact preserves_imageMember (fun image => BitVec.ofNat 32 image.width) id
  case imageHeight id =>
    exact preserves_imageMember (fun image => BitVec.ofNat 32 image.height) id
  case imageFormat id => exact preserves_imageMember (fun image => pixelFormatInt image.format) id
  case ffmpegVideoFrameImage id => exact preserves_ffmpegVideoFrameImage id
  case bufferToUint8Array id => exact preserves_find_nonNull fun _ => .get_bind fun _ _ => .pure
  case bufferZeroTerminated id => exact preserves_bufferZeroTerminated id
  -- functions that write to an object
  case bufferResize id value => exact preserves_bufferResize hI id value
  case bufferReserve id value => exact preserves_bufferReserve id value
  case bufferFree id => exact preserves_bufferFree hI id
  case gifBuilderAddImage id imageId delay env =>
    exact preserves_gifBuilderAddImage hI id imageId delay env
  -- functions that make an object
  case bufferWithSize size =>
    exact .ite (fun _ => .pure) fun _ => preserves_exported (Objects.preserves_bufferWithSize hI _)
  case bufferCopyFromMemory ptr size =>
    exact preserves_exported (Objects.preserves_bufferCopyFromMemory hI ptr size.toNat)
  case bufferFromUint8Array arr =>
    exact preserves_exported (Objects.preserves_bufferFromVector hI arr)
  case imageLoadFromFileBuffer ptr size =>
    exact preserves_exported (Objects.preserves_imageLoadFromFileBytes hI _ hload)
  case gifBuilderInitialize garbage width height delay =>
    exact preserves_exported (Objects.preserves_gifBuilderInitialize hI garbage _ _ _)
  case bufferToStringBase64 id =>
    exact preserves_find_exported (Objects.preserves_bufferToStringBase64 hI)
  case bufferFromStringBase64 id =>
    exact preserves_find_exported (Objects.preserves_bufferFromStringBase64 hI)
  case imageClone id => exact preserves_find_exported (Objects.preserves_imageClone hI)
  case imageLoadFromBuffer id =>
    exact preserves_find_exported fun r => Objects.preserves_imageLoadFromFileBuffer hI r hload
  case imageExportToPngFileMemory id =>
    exact preserves_find_exported (Objects.preserves_imageExportToPngFileMemory hI)
  case gifBuilderFinalize id =>
    exact preserves_find_exported (Objects.preserves_gifBuilderFinalize hI)
  case ffmpegInputStreamLoadFromBuffer id =>
    exact preserves_find_exported (Objects.preserves_ffmpegInputStreamLoadFromBuffer hI)

lemma preserves_ffmpegVideoStreamPrepareAllFrames (ffmpegVideoStreamId : BitVec 32)
    (outcome : LoopOutcome) :
    Preserves (Holding ∅ [])
      (ffmpegVideoStreamPrepareAllFrames ffmpegVideoStreamId outcome) := by
  refine preserves_find_stream .pure fun s mem h => ends_of_preserves ?_ h
  exact .bind (Objects.preserves_prepareFrames (Set.mem_singleton s) outcome) fun _ => .pure

lemma preserves_ffmpegVideoStreamPrepareFrames (ffmpegVideoStreamId : BitVec 32)
    (framesPerSecond : ℚ) (outcome : LoopOutcome) :
    Preserves (Holding ∅ [])
      (ffmpegVideoStreamPrepareFrames ffmpegVideoStreamId framesPerSecond outcome) := by
  refine preserves_find_stream .pure fun s mem h => ends_of_preserves ?_ h
  have hprepare := Objects.preserves_prepareFrames (Set.mem_singleton s)
  exact .bind (Objects.preserves_ffmpegVideoStreamPrepareFrames (hprepare outcome)
    (hprepare outcome.scaled) framesPerSecond) fun _ => .pure

lemma preserves_ffmpegVideoStreamClearPreparedFrames (ffmpegVideoStreamId : BitVec 32) :
    Preserves (Holding ∅ []) (ffmpegVideoStreamClearPreparedFrames ffmpegVideoStreamId) := by
  refine preserves_find_stream .pure fun s mem h => ends_of_preserves ?_ h
  exact .bind (Objects.preserves_clearPreparedFrames (Set.mem_singleton s)) fun _ => .pure

lemma preserves_ffmpegVideoStreamClose (ffmpegVideoStreamId : BitVec 32) :
    Preserves (Holding ∅ []) (ffmpegVideoStreamClose ffmpegVideoStreamId) := by
  refine preserves_find_stream .pure fun s mem h => ?_
  rw [ends_bind]
  exact (Objects.ends_ffmpegVideoStreamClose h).imp (fun _ _ h => h) fun _ _ h => h

/-- Every function but `objectFree`. -/
lemma preserves_exec (call : Call) (hcall : ∀ id, call ≠ .objectFree id) :
    Preserves (Holding ∅ []) (exec stb call) := by
  cases call
  case objectFree id => exact absurd rfl (hcall id)
  case imageResizeOrClone id width height =>
    exact preserves_find_exported fun r mem h =>
      Objects.ends_imageResizeOrClone keepsMembers_holding h r _ _ fun _ _ _ _ _ _ _ _ _ => trivial
  case ffmpegVideoStreamOpen id answers =>
    exact preserves_find_exported fun r => Objects.preserves_ffmpegVideoStreamOpen r answers
  case ffmpegVideoStreamPickBestFrame id sampleTime outcome =>
    exact preserves_find_exported fun r =>
      Objects.preserves_ffmpegVideoStreamPickBestFrame r sampleTime outcome
  case ffmpegVideoStreamPickBestPreparedFrame id sampleTime =>
    exact preserves_find_exported fun r =>
      Objects.preserves_ffmpegVideoStreamPickBestPreparedFrame r sampleTime
  -- functions that move and release the frames of a stream
  case ffmpegVideoStreamPrepareAllFrames id outcome =>
    exact preserves_ffmpegVideoStreamPrepareAllFrames id outcome
  case ffmpegVideoStreamPrepareFrames id framesPerSecond outcome =>
    exact preserves_ffmpegVideoStreamPrepareFrames id framesPerSecond outcome
  case ffmpegVideoStreamClearPreparedFrames id =>
    exact preserves_ffmpegVideoStreamClearPreparedFrames id
  case ffmpegVideoStreamClose id => exact preserves_ffmpegVideoStreamClose id
  all_goals
    exact preserves_exec_of_makesAtMost keepsMembers_holding (fun _ _ _ _ _ => trivial) trivial

/-! ### Runs of calls -/

/-- `objectFree` does not get the id of an object that a live object owns. -/
def FreesUnowned (mem : Memory) : Call → Prop
  | .objectFree id => ∀ a, mem.storage.get id = .ok (some a) → ∀ c, ¬ mem.storage.Owns c a
  | _ => True

lemma holding_objectFree {st : ManagedObjStorage} {id : BitVec 32} (h : Holding ∅ [] mem)
    (hcall : FreesUnowned mem (.objectFree id)) (hst : mem.storage.objectFree id = .ok st) :
    Holding ∅ [] { mem with storage := st } := by
  obtain ⟨r, hr, hst⟩ := bind_ok.mp hst
  cases r with
  | none =>
    cases hst
    exact h
  | some a =>
    have hshrinks := free_shrinks hst
    refine ⟨h.sound.free_of_get hr (hcall a hr) hst, fun c obj hobj => ?_, fun s hs => ?_,
      fun x hx => ?_, List.nodup_nil⟩
    · exact h.entries c obj (hshrinks.heap c obj hobj)
    · exact absurd hs (Set.notMem_empty s)
    · cases hx

lemma step_objectFree_ok {id : BitVec 32} {mem' : Memory} :
    step stb mem (.objectFree id) = .ok mem' ↔
      ∃ st, mem.storage.objectFree id = .ok st ∧ mem' = { mem with storage := st } := by
  have hexec : exec stb (.objectFree id) = objectFree id := rfl
  rw [step, hexec, run_objectFree]
  cases mem.storage.objectFree id <;> simp [eq_comm]

/-- What holds however a function ends holds after a call of it. -/
lemma of_step {mem' : Memory} {call : Call}
    (h : Ends (exec stb call) mem (fun _ => I) fun _ => I)
    (hstep : step stb mem call = .ok mem') : I mem' := by
  unfold step at hstep
  cases hrun : (exec stb call).run mem with
  | error trap mem'' =>
    rw [hrun] at hstep
    cases hstep
  | ok value mem'' =>
    rw [hrun] at hstep
    cases hstep
    exact h.of_ok hrun

/-- Every call keeps the handles in objects the only ones, under the condition. -/
lemma holding_step {mem' : Memory} {call : Call} (h : Holding ∅ [] mem)
    (hcall : FreesUnowned mem call) (hstep : step stb mem call = .ok mem') :
    Holding ∅ [] mem' := by
  by_cases hfree : ∃ id, call = .objectFree id
  · obtain ⟨id, rfl⟩ := hfree
    obtain ⟨st, hst, rfl⟩ := step_objectFree_ok.mp hstep
    exact holding_objectFree h hcall hst
  · exact of_step (preserves_exec call (fun id hid => hfree ⟨id, hid⟩) mem h) hstep

lemma throughout_holding {calls : List Call} (h : Along (step stb) FreesUnowned .init calls) :
    Throughout (step stb) (Holding ∅ []) .init calls :=
  .of_invariant (fun _ _ _ hmem hcall hstep => holding_step hmem hcall hstep) (fun _ => id)
    holding_init h

/-- FFmpeg opens a stream of five frames. -/
def fiveFrames : OpenAnswers := ⟨true, true, true, true, 0, 1, 1 / 10, 5, 50, true, 1, 1, true⟩

end Bindings

end GifTools
