import GifTools.Bindings.Holding
import Mathlib.Data.List.ReduceOption

/-!
# What the functions on objects keep

Every function on objects keeps `Holding`. Most make one object and give it to the caller; these
keep whatever making objects and setting their members keeps. A stream that changes is one that was
found, so it is open; closing it ends that.
-/

namespace GifTools

open Throws Runs ManagedObjStorage Binding

variable {O : Set Addr} {L : List (ManagedClass × Addr)} {mem : Memory} {a s : Addr} {stb : Stb}
  {P : ConcreteImage → Prop} {I : Memory → Prop}

/-- An invariant of making objects and setting members, as long as images are set to such as
satisfy `P`. -/
structure KeepsMembers (P : ConcreteImage → Prop) (I : Memory → Prop) : Prop where
  images : ∀ mem, I mem → ∀ a, P (mem.images a)
  make : ∀ T, Preserves I (make T)
  setContents : ∀ a contents, Preserves I (setContents a contents)
  setImage : ∀ a image, P image → Preserves I (setImage a image)
  setGifBuilder : ∀ a builder, Preserves I (setGifBuilder a builder)
  setBufferObj : ∀ a b, Preserves I (setBufferObj a b)

lemma keepsMembers_holding : KeepsMembers (fun _ => True) (Holding O []) where
  images _ _ _ := trivial
  make := preserves_make
  setContents _ := preserves_setContents
  setImage _ image _ := preserves_setImage image
  setGifBuilder _ := preserves_setGifBuilder
  setBufferObj _ _ := preserves_setBufferObj

lemma KeepsMembers.makeNew (hI : KeepsMembers P I) (T : ManagedClass) : Preserves I (makeNew T) :=
  .bind (hI.make T) preserves_nonNull

/-- The frame the loop returns. -/
def PickOutcome.frames : PickOutcome → List (Option FFmpegVideoFrameImpl)
  | .notStarted => []
  | .returned frame => [frame]

/-- The frames the loop emits. -/
def LoopOutcome.frames : LoopOutcome → List (Option FFmpegVideoFrameImpl)
  | .notStarted => []
  | .interrupted frames => frames
  | .completed frames => frames

namespace Objects

/-! ### Functions that make an object at most -/

section

variable (hI : KeepsMembers P I)

include hI

lemma preserves_bufferFromVector (buffer : List UInt8) : Preserves I (bufferFromVector buffer) := by
  unfold bufferFromVector
  apply Preserves.ite
  · intro _
    exact .pure
  · intro _
    apply Preserves.bind (hI.make .buffer)
    intro bufferObj
    cases bufferObj with
    | none => exact .pure
    | some a => exact .bind (hI.setContents a buffer) fun _ => .pure

lemma preserves_bufferCopyFromMemory (bufferPtr : Option (Nat → UInt8)) (bufferSize : Nat) :
    Preserves I (bufferCopyFromMemory bufferPtr bufferSize) := by
  cases bufferPtr with
  | none => exact .pure
  | some bytes =>
    apply Preserves.ite
    · intro _
      exact .pure
    · intro _
      apply Preserves.bind (hI.make .buffer)
      intro bufferObj
      cases bufferObj with
      | none => exact .pure
      | some a =>
        apply Preserves.ite
        · intro _
          exact .throw
        · intro _
          exact .bind (hI.setContents a _) fun _ => .pure

lemma preserves_bufferToStringBase64 (bufferObj : Option Addr) :
    Preserves I (bufferToStringBase64 bufferObj) := by
  apply Preserves.bind (preserves_nonNull bufferObj)
  intro a
  apply Preserves.get_bind
  intro mem _
  refine .ite (fun _ => .pure) fun _ => .bind (preserves_ofBase64 _) fun _ => ?_
  exact .ite (fun _ => .pure) fun _ => preserves_bufferFromVector hI _

lemma preserves_bufferFromStringBase64 (bufferObj : Option Addr) :
    Preserves I (bufferFromStringBase64 bufferObj) := by
  apply Preserves.bind (preserves_nonNull bufferObj)
  intro a
  apply Preserves.get_bind
  intro mem _
  refine .ite (fun _ => .pure) fun _ => .bind (preserves_ofBase64 _) fun _ => ?_
  exact .ite (fun _ => .pure) fun _ => preserves_bufferFromVector hI _

lemma preserves_bufferWithSize (size : Nat) : Preserves I (bufferWithSize size) := by
  apply Preserves.ite
  · intro _
    exact .pure
  · intro _
    apply Preserves.bind (hI.makeNew .buffer)
    intro a
    exact .bind (hI.setContents a _) fun _ => .pure

/-- A new image. -/
lemma preserves_newImage {image : ConcreteImage} (h : P image) :
    Preserves I (do
      let a ← makeNew .image
      setImage a image
      return some a) := by
  apply Preserves.bind (hI.makeNew .image)
  intro a
  exact .bind (hI.setImage a image h) fun _ => .pure

lemma preserves_imageClone (imageObj : Option Addr) : Preserves I (imageClone imageObj) := by
  cases imageObj with
  | none => exact .pure
  | some a => exact .get_bind fun mem hmem => preserves_newImage hI (hI.images mem hmem a)

/-- What is asked of the new image depends on the memory the function finds. -/
lemma ends_imageResizeOrClone (hmem : I mem) (imageObj : Option Addr) (width height : Nat)
    (h : ∀ a, imageObj = some a → width ≠ 0 → height ≠ 0 →
      ¬ ((mem.images a).width = width ∧ (mem.images a).height = height) →
        let size := width * height * pixelFormatByteWidth (mem.images a).format % 2 ^ 32
        size ≤ maxSize → ∀ resized,
          stb.stbir_resize_uint8 (mem.images a) width height = .ok resized →
            resized.length ≤ size →
              P ⟨(mem.images a).format, width, height, resized.takeD size 0⟩) :
    Ends (imageResizeOrClone stb imageObj width height) mem (fun _ => I) fun _ => I := by
  cases imageObj with
  | none => exact hmem
  | some a =>
    unfold imageResizeOrClone
    rw [ends_get_bind, ends_ite, ends_ite]
    refine ⟨fun _ => preserves_imageClone hI _ mem hmem, fun hextents => ?_⟩
    refine ⟨fun _ => preserves_imageClone hI _ mem hmem, fun hother => ?_⟩
    rw [not_or] at hextents
    unfold imageResize
    rw [ends_get_bind, ends_bind]
    refine (hI.makeNew .image mem hmem).imp (fun b mem' hmem' => ?_) fun _ _ h => h
    rw [ends_ite]
    refine ⟨fun _ => hmem', fun hsize => ?_⟩
    cases hresized : stb.stbir_resize_uint8 (mem.images a) width height with
    | error failure => exact hmem'
    | ok resized =>
      dsimp only
      rw [ends_ite]
      refine ⟨fun _ => hmem', fun hlength => ?_⟩
      have hP := h a rfl hextents.1 hextents.2 hother (Nat.le_of_not_lt hsize) resized hresized
        (Nat.le_of_not_lt hlength)
      exact Preserves.bind (hI.setImage b _ hP) (fun _ => .pure) mem' hmem'

lemma preserves_imageLoadFromFileBytes (bufferPtr : Option (List UInt8))
    (h : ∀ bytes pixels x y, stb.stbi_load_from_memory bytes = .ok (some pixels, x, y) →
      P ⟨.r8g8b8a8Unorm, x, y, pixels⟩) :
    Preserves I (imageLoadFromFileBytes stb bufferPtr) := by
  cases bufferPtr with
  | none => exact .pure
  | some bytes =>
    refine .ite (fun _ => .pure) fun _ => ?_
    cases hload : stb.stbi_load_from_memory bytes with
    | error failure => exact .throw
    | ok loaded =>
      obtain ⟨imgBuffer, x, y⟩ := loaded
      refine .ite (fun _ => .pure) fun _ => ?_
      cases imgBuffer with
      | none => exact .pure
      | some pixels => exact preserves_newImage hI (h bytes pixels x y hload)

lemma preserves_imageLoadFromFileBuffer (bufferObj : Option Addr)
    (h : ∀ bytes pixels x y, stb.stbi_load_from_memory bytes = .ok (some pixels, x, y) →
      P ⟨.r8g8b8a8Unorm, x, y, pixels⟩) :
    Preserves I (imageLoadFromFileBuffer stb bufferObj) := by
  cases bufferObj with
  | none => exact .pure
  | some a => exact .get_bind fun _ _ => preserves_imageLoadFromFileBytes hI _ h

lemma preserves_imageExportToPngFileMemory (imageObj : Option Addr) :
    Preserves I (imageExportToPngFileMemory stb imageObj) := by
  cases imageObj with
  | none => exact .pure
  | some a =>
    apply Preserves.get_bind
    intro mem _
    cases hbuffer : stb.stbi_write_png_to_func (mem.images a) with
    | error failure => exact .throw
    | ok buffer => exact preserves_bufferFromVector hI buffer

lemma preserves_gifBuilderInitialize (garbage : Pixels) (width height delay : Nat) :
    Preserves I (gifBuilderInitialize garbage width height delay) := by
  apply Preserves.bind (hI.make .gifBuilder)
  intro gifBuilderObj
  cases gifBuilderObj with
  | none => exact .pure
  | some a => exact .bind (hI.setGifBuilder a _) fun _ => .pure

lemma preserves_gifBuilderAddImage (gifBuilderObj imageObj : Option Addr) (delay : Nat)
    (env : Uninit) : Preserves I (gifBuilderAddImage gifBuilderObj imageObj delay env) := by
  cases gifBuilderObj with
  | none => exact .pure
  | some a =>
    apply Preserves.get_bind
    intro mem _
    dsimp only
    split
    · exact .throw
    · exact .bind (hI.setGifBuilder a _) fun _ => .pure

lemma preserves_gifBuilderFinalize (gifBuilderObj : Option Addr) :
    Preserves I (gifBuilderFinalize gifBuilderObj) := by
  cases gifBuilderObj with
  | none => exact .pure
  | some a =>
    apply Preserves.get_bind
    intro mem _
    rcases GifTools.gifBuilderFinalize (mem.gifBuilders a) with ⟨contents, builder⟩
    apply Preserves.bind (hI.setGifBuilder a builder)
    intro _
    cases contents with
    | none => exact .pure
    | some contents => exact preserves_bufferFromVector hI contents

lemma preserves_ffmpegInputStreamLoadFromBuffer (bufferObj : Option Addr) :
    Preserves I (ffmpegInputStreamLoadFromBuffer bufferObj) := by
  apply Preserves.bind (hI.makeNew .ffmpegInputStream)
  intro streamObj
  apply Preserves.bind (preserves_nonNull bufferObj)
  intro a
  exact .bind (hI.setBufferObj streamObj a) fun _ => .pure

end

/-! ### Opening a stream -/

lemma ends_keepOpened {T : ManagedClass} (h : Holding O [(T, a)] mem)
    (opened : Except OpenFault (Option FFmpegVideoStreamImpl)) :
    Ends (keepOpened a opened) mem (fun _ => Holding O []) fun _ => Holding O [] := by
  cases opened with
  | error fault => exact h.dropped
  | ok videoStream =>
    cases videoStream with
    | none =>
      unfold keepOpened
      rw [ends_bind]
      exact (ends_release h).imp (fun _ _ h' => h') fun _ _ h' => h'
    | some videoStream =>
      unfold keepOpened
      rw [ends_bind]
      exact (preserves_setVideoStream _ mem h.dropped).imp (fun _ _ h' => h') fun _ _ h' => h'

lemma preserves_ffmpegVideoStreamOpen (ffmpegInputStream : Option Addr) (answers : OpenAnswers) :
    Preserves (Holding O []) (ffmpegVideoStreamOpen ffmpegInputStream answers) := by
  cases ffmpegInputStream with
  | none => exact .pure
  | some streamObj =>
    intro mem h
    unfold ffmpegVideoStreamOpen
    rw [ends_bind]
    refine (ends_makeNew h .ffmpegVideoStream).imp (fun a mem h => ?_) fun _ _ h => h
    rw [ends_bind]
    refine (preserves_setStreamObj mem h).imp (fun _ mem h => ?_) fun _ _ h => h.dropped
    rw [ends_get_bind, ends_deref]
    exact ⟨fun _ _ => ends_keepOpened h _, fun _ _ => h.dropped⟩

/-! ### Frames -/

lemma ends_videoFrame (h : Holding O L mem) (frame : FFmpegVideoFrameImpl) :
    Ends (videoFrame frame) mem (fun a => Holding O ((.ffmpegVideoFrame, a) :: L))
      fun _ => Holding O [] := by
  unfold videoFrame
  rw [ends_bind]
  refine (ends_makeNew h .ffmpegVideoFrame).imp (fun a mem h => ?_) fun _ _ h => h.dropped
  rw [ends_bind]
  refine (preserves_setTimeSecondsEst frame.timeSecondsEst mem h).imp (fun _ mem h => ?_)
    fun _ _ h => h.dropped
  cases frame.imageObj with
  | none => exact h
  | some image =>
    rw [ends_bind]
    refine (ends_makeNew h .image).imp (fun b mem h => ?_) fun _ _ h => h.dropped
    rw [ends_bind]
    refine (preserves_setImage image mem h).imp (fun _ mem h => ?_) fun _ _ h => h.dropped
    rw [ends_bind]
    exact (ends_setImageObj h).imp (fun _ _ h => h) fun _ _ h => h

lemma preserves_videoFrameOf (frame : Option FFmpegVideoFrameImpl) :
    Preserves (Holding O []) (videoFrameOf frame) := by
  cases frame with
  | none => exact .pure
  | some frame =>
    intro mem h
    unfold videoFrameOf
    rw [ends_bind]
    exact (ends_videoFrame h frame).imp (fun _ _ h => h.tail) fun _ _ h => h

lemma preserves_ffmpegVideoStreamPickBestFrameFromPrepared (a : Addr) (sampleTime tolerance : ℚ) :
    Preserves (Holding O [])
      (ffmpegVideoStreamPickBestFrameFromPrepared a sampleTime tolerance) := by
  apply Preserves.get_bind
  intro mem _
  apply Preserves.bind (preserves_ofExcept _)
  intro videoStream
  apply Preserves.bind (preserves_ofExcept _)
  intro frame
  exact preserves_videoFrameOf frame

/-- Only pointers are followed. -/
lemma preserves_readInputStream (a : Addr) : Preserves I (readInputStream a) := by
  apply Preserves.get_bind
  intro mem _
  refine .bind (preserves_nonNull _) fun streamObj => ?_
  refine .bind (preserves_deref _) fun _ => .bind (preserves_deref _) fun _ => ?_
  exact .ite (fun _ => .throw) fun _ => .pure

/-- A prepared frame is returned, or the one that was decoded. -/
lemma preserves_ffmpegVideoStreamPickBestFrame_of {outcome : PickOutcome}
    (hprepared : ∀ a sampleTime tolerance,
      Preserves I (ffmpegVideoStreamPickBestFrameFromPrepared a sampleTime tolerance))
    (hdecoded : ∀ frame, outcome = .returned frame → Preserves I (videoFrameOf frame))
    (videoStream : Option Addr) (sampleTime : ℚ) :
    Preserves I (ffmpegVideoStreamPickBestFrame videoStream sampleTime outcome) := by
  cases videoStream with
  | none => exact .pure
  | some a =>
    apply Preserves.get_bind
    intro mem _
    apply Preserves.bind (hprepared a _ _)
    intro preparedFrame
    cases preparedFrame with
    | none =>
      cases outcome with
      | notStarted => exact .pure
      | returned frame =>
        exact .bind (preserves_readInputStream a) fun _ => hdecoded frame rfl
    | some frame => exact .pure

lemma preserves_ffmpegVideoStreamPickBestFrame (videoStream : Option Addr) (sampleTime : ℚ)
    (outcome : PickOutcome) :
    Preserves (Holding O []) (ffmpegVideoStreamPickBestFrame videoStream sampleTime outcome) :=
  preserves_ffmpegVideoStreamPickBestFrame_of preserves_ffmpegVideoStreamPickBestFrameFromPrepared
    (fun frame _ => preserves_videoFrameOf frame) videoStream sampleTime

lemma preserves_ffmpegVideoStreamPickBestPreparedFrame (videoStream : Option Addr)
    (sampleTime : ℚ) :
    Preserves (Holding O []) (ffmpegVideoStreamPickBestPreparedFrame videoStream sampleTime) := by
  cases videoStream with
  | none => exact .pure
  | some a => exact preserves_ffmpegVideoStreamPickBestFrameFromPrepared a _ _

/-! ### Prepared frames -/

lemma ends_clearPreparedFrames (h : Holding O [] mem) (ha : a ∈ O) :
    Ends (clearPreparedFrames a) mem (fun _ => Holding O []) fun _ => Holding O [] := by
  unfold clearPreparedFrames
  rw [ends_bind, ends_updateStorage]
  refine ⟨fun st hst => ?_, fun _ _ => h⟩
  rw [ends_modify]
  obtain ⟨hsound, obj, hobj, hshrinks⟩ := h.sound.clearPreparedFrames (h.streams a ha) hst
  refine ⟨hsound, fun c objc hobjc hcls => ?_, fun s hs => ?_, fun x hx => ?_, List.nodup_nil⟩
  · have hobjc := hshrinks.heap c objc hobjc
    change objc.owned = (Function.update mem.preparedFrames a [] c).reduceOption
    by_cases hc : c = a
    · subst hc
      rw [setObj_heap_self] at hobjc
      cases hobjc
      rw [Function.update_self]
      rfl
    · rw [setObj_heap_ne hc] at hobjc
      rw [Function.update_of_ne hc]
      exact h.entries c objc hobjc hcls
  · exact ((h.streams s hs).setOwned hobj []).shrinks hshrinks
  · cases hx

/-- A new frame is nobody's until the stream has it. -/
lemma preserves_emplaceBack_videoFrameOf (ha : a ∈ O) (frame : Option FFmpegVideoFrameImpl) :
    Preserves (Holding O []) (videoFrameOf frame >>= fun handle => emplaceBack a handle) := by
  intro mem h
  rw [ends_bind]
  cases frame with
  | none =>
    change Ends (emplaceBack a none) mem _ _
    unfold emplaceBack
    rw [ends_get_bind]
    apply ends_setPreparedFrames h ha
    intro obj _ howned
    rw [List.reduceOption_append, List.reduceOption_singleton, ← howned, Option.toList_none,
      List.append_nil]
    exact ⟨id, fun b hb => .inl hb⟩
  | some frame =>
    unfold videoFrameOf
    rw [ends_bind]
    refine (ends_videoFrame h frame).imp (fun b mem h => ?_) fun _ _ h => h
    rw [ends_pure]
    unfold emplaceBack
    rw [ends_get_bind]
    apply ends_setPreparedFrames h.tail ha
    intro obj hobj howned
    have hb := h.loose (.ffmpegVideoFrame, b) (by simp)
    rw [List.reduceOption_append, List.reduceOption_singleton, ← howned, Option.toList_some]
    constructor
    · exact hb.nodup_append hobj
    · intro c hc
      rcases List.mem_append.mp hc with hc | hc
      · exact .inl hc
      · rw [List.mem_singleton.mp hc]
        exact .inr ⟨.ffmpegVideoFrame, by decide, hb⟩

lemma preserves_emplaceFrames (ha : a ∈ O) (frames : List (Option FFmpegVideoFrameImpl)) :
    Preserves (Holding O []) (emplaceFrames a frames) :=
  .forM fun frame _ => preserves_emplaceBack_videoFrameOf ha frame

lemma reduceOption_of_mapM {entries : List (Option Addr)} {frames : List Addr}
    (h : entries.mapM id = some frames) : entries.reduceOption = frames := by
  induction entries generalizing frames with
  | nil =>
    cases h
    rfl
  | cons entry entries ih =>
    rw [List.mapM_cons] at h
    cases entry with
    | none => cases h
    | some b =>
      change ((entries.mapM id).bind fun frames' => some (b :: frames')) = some frames at h
      obtain ⟨frames', hframes', hcons⟩ := Option.bind_eq_some_iff.mp h
      cases hcons
      rw [List.reduceOption_cons_of_some, ih hframes']

/-- Sorting only permutes the handles. -/
lemma preserves_sortPreparedFrames (ha : a ∈ O) :
    Preserves (Holding O []) (sortPreparedFrames a) := by
  intro mem h
  unfold sortPreparedFrames
  rw [ends_get_bind]
  cases hframes : (mem.preparedFrames a).mapM id with
  | none => exact Preserves.ite (fun _ => .pure) (fun _ => .throw) mem h
  | some frames =>
    apply ends_setPreparedFrames h ha
    intro obj _ howned
    rw [reduceOption_of_mapM hframes] at howned
    have hperm := frames.mergeSort_perm fun lhs rhs =>
      decide (mem.timeSecondsEst lhs ≤ mem.timeSecondsEst rhs)
    have hsorted : ∀ l : List Addr, (l.map some).reduceOption = l := by
      intro l
      simp [List.reduceOption]
    rw [howned, hsorted]
    exact ⟨hperm.nodup_iff.mpr, fun b hb => .inl (hperm.mem_iff.mp hb)⟩

lemma preserves_clearPreparedFrames (ha : a ∈ O) :
    Preserves (Holding O []) (clearPreparedFrames a) := fun _ h => ends_clearPreparedFrames h ha

/-- The loop is left out if `av_image_fill_arrays` fails, and sorting if FFmpeg fails. -/
lemma preserves_prepareFrames_of {outcome : LoopOutcome}
    (hclear : Preserves I (clearPreparedFrames a))
    (hemplace : Preserves I (emplaceFrames a outcome.frames))
    (hsort : Preserves I (sortPreparedFrames a)) : Preserves I (prepareFrames a outcome) := by
  cases outcome with
  | notStarted => exact .pure
  | interrupted frames =>
    apply Preserves.bind (preserves_readInputStream a)
    intro _
    apply Preserves.bind hclear
    intro _
    exact .bind hemplace fun _ => .pure
  | completed frames =>
    apply Preserves.bind (preserves_readInputStream a)
    intro _
    apply Preserves.bind hclear
    intro _
    apply Preserves.bind hemplace
    intro _
    apply Preserves.bind hsort
    intro _
    exact .get_bind fun _ _ => .pure

lemma preserves_prepareFrames (ha : a ∈ O) (outcome : LoopOutcome) :
    Preserves (Holding O []) (prepareFrames a outcome) :=
  preserves_prepareFrames_of (preserves_clearPreparedFrames ha) (preserves_emplaceFrames ha _)
    (preserves_sortPreparedFrames ha)

lemma preserves_ffmpegVideoStreamPrepareFrames {outcome : LoopOutcome}
    (h : Preserves I (prepareFrames a outcome))
    (hscaled : Preserves I (prepareFrames a outcome.scaled)) (framesPerSecond : ℚ) :
    Preserves I (ffmpegVideoStreamPrepareFrames a framesPerSecond outcome) := by
  apply Preserves.get_bind
  intro mem _
  refine .ite (fun _ => h) fun _ => ?_
  exact .ite (fun _ => h) fun _ => hscaled

/-- A closed stream is not open any more. -/
lemma ends_ffmpegVideoStreamClose (h : Holding {s} [] mem) :
    Ends (ffmpegVideoStreamClose (some s)) mem (fun _ => Holding ∅ []) fun _ => Holding ∅ [] := by
  unfold ffmpegVideoStreamClose
  rw [ends_bind, ends_updateStorage]
  refine ⟨fun st hst => ?_, fun _ _ => h.forget⟩
  rw [ends_modify]
  obtain ⟨hsound, st₁, hclear, rfl⟩ := h.sound.close (h.streams s rfl) hst
  obtain ⟨-, obj, hobj, hshrinks⟩ := h.sound.clearPreparedFrames (h.streams s rfl) hclear
  refine ⟨hsound, fun c objc hobjc hcls => ?_, fun s hs => ?_, fun x hx => ?_, List.nodup_nil⟩
  · change (st₁.setObj s _).heap c = some objc at hobjc
    change objc.owned = (Function.update mem.preparedFrames s [] c).reduceOption
    by_cases hc : c = s
    · subst hc
      rw [setObj_heap_self] at hobjc
      cases hobjc
      rw [Function.update_self]
      rfl
    · rw [setObj_heap_ne hc] at hobjc
      have hobjc := hshrinks.heap c objc hobjc
      rw [setObj_heap_ne hc] at hobjc
      rw [Function.update_of_ne hc]
      exact h.entries c objc hobjc hcls
  · exact absurd hs (Set.notMem_empty s)
  · cases hx

end Objects

end GifTools
