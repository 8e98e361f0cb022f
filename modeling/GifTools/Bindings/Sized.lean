import GifTools.Bindings.Handles
import GifTools.FFmpeg.Decoded

/-!
# The sizes of images

An image is expected to have as many bytes as its extents and its format say. What is loaded, cloned
or decoded has; so has what is resized, unless the product of the new extents and the width of a
pixel exceeds a `size_t`. The resizer then writes behind the buffer, or gets no memory and writes
nothing, and an image with too small a buffer is returned.
-/

namespace GifTools

open Throws Runs Binding

/-- `bufferSize()`; `alloc` and `acquire` set it to the number of bytes behind `bufferPtr`. -/
def ConcreteImage.bufferSize (image : ConcreteImage) : Nat := image.contents.length

/-- The buffer is that of the extents, computed without a limit. -/
def ConcreteImage.Sized (image : ConcreteImage) : Prop :=
  image.bufferSize = image.width * image.height * pixelFormatByteWidth image.format

/-- `stbi_load_from_memory` returns four bytes for each pixel, in all not more than an `int`. -/
def Stb.LoadsWhole (stb : Stb) : Prop :=
  ∀ bytes pixels x y, stb.stbi_load_from_memory bytes = .ok (some pixels, x, y) →
    pixels.length = x * y * 4 ∧ x * y * 4 < 2 ^ 31

/-- The frames that are decoded in a call. -/
def Call.decodedFrames : Call → List (Option FFmpegVideoFrameImpl)
  | .ffmpegVideoStreamPickBestFrame _ _ outcome => outcome.frames
  | .ffmpegVideoStreamPrepareAllFrames _ outcome => outcome.frames
  | .ffmpegVideoStreamPrepareFrames _ _ outcome => outcome.frames
  | _ => []

namespace Bindings

/-- Every image is sized. -/
def ImagesSized (mem : Memory) : Prop :=
  ∀ a obj, mem.storage.heap a = some obj → obj.cls = .image → (mem.images a).Sized

/-- An image that is resized, and not cloned, has less than 4 GiB, or the call does not return:
`alloc` throws, or the resizer writes behind what is allocated. -/
def SizeFits (stb : Stb) (mem : Memory) : Call → Prop
  | .imageResizeOrClone id width height =>
    ∀ a, mem.storage.getAs .image id = .ok (some a) → width.toNat ≠ 0 → height.toNat ≠ 0 →
      ¬ ((mem.images a).width = width.toNat ∧ (mem.images a).height = height.toNat) →
        let size := width.toNat * height.toNat * pixelFormatByteWidth (mem.images a).format
        size < 2 ^ 32 ∨ maxSize < size % 2 ^ 32 ∨
          ∀ resized, stb.stbir_resize_uint8 (mem.images a) width.toNat height.toNat = .ok resized →
            size % 2 ^ 32 < resized.length
  | _ => True

/-! ### What keeps images sized -/

/-- The images of destroyed objects too. -/
def AllSized (mem : Memory) : Prop := ∀ a, (mem.images a).Sized

variable {mem mem' : Memory} {a : Addr} {stb : Stb} {image : ConcreteImage}

lemma allSized_setImage (h : AllSized mem) (himage : image.Sized) :
    AllSized { mem with images := Function.update mem.images a image } := by
  intro b
  change (Function.update mem.images a image b).Sized
  by_cases hb : b = a
  · rw [hb, Function.update_self]
    exact himage
  · rw [Function.update_of_ne hb]
    exact h b

lemma allSized_construct (h : AllSized mem) : AllSized (mem.construct a) :=
  allSized_setImage h rfl

lemma preserves_updateStorage_allSized (f : ManagedObjStorage → Except Fault ManagedObjStorage) :
    Preserves AllSized (updateStorage f) :=
  .get_bind fun _ _ => .bind (preserves_ofExcept _) fun _ => .modify fun _ h => h

lemma preserves_make_allSized (T : ManagedClass) : Preserves AllSized (make T) := by
  refine .get_bind fun mem _ => .bind (preserves_ofExcept _) ?_
  rintro ⟨storage, handle⟩
  refine .modify_bind (fun _ h => h) ?_
  cases handle with
  | none => exact .pure
  | some a => exact .modify_bind (fun _ h => allSized_construct h) .pure

lemma preserves_setImage_allSized (h : image.Sized) : Preserves AllSized (setImage a image) :=
  .modify fun _ hmem => allSized_setImage hmem h

lemma keepsMembers_allSized : KeepsMembers ConcreteImage.Sized AllSized where
  images _ h := h
  make := preserves_make_allSized
  setContents _ _ := .modify fun _ h => h
  setImage _ _ := preserves_setImage_allSized
  setGifBuilder _ _ := .modify fun _ h => h
  setBufferObj _ _ := .modify fun _ h => h

/-! ### Frames -/

/-- The image of a frame, if it has one. -/
def FrameSized (frame : FFmpegVideoFrameImpl) : Prop :=
  ∀ image, frame.imageObj = some image → image.Sized

lemma frameSized_of_isDecoded {frame : FFmpegVideoFrameImpl} (h : frame.IsDecoded) :
    FrameSized frame := by
  obtain ⟨videoStream, time, imageByteBuffer, hlength, rfl⟩ := h
  rintro image ⟨⟩
  exact hlength

lemma frameSized_ffmpegCloneFrame {frame : FFmpegVideoFrameImpl} (h : FrameSized frame) :
    FrameSized (ffmpegCloneFrame frame) := by
  rintro image himage
  cases hframe : frame.imageObj with
  | none =>
    rw [ffmpegCloneFrame, hframe] at himage
    cases himage
  | some targetImage =>
    rw [ffmpegCloneFrame, hframe] at himage
    cases himage
    exact h targetImage hframe

lemma frameSized_videoFrame (h : AllSized mem) {frame : FFmpegVideoFrameImpl}
    (hframe : mem.videoFrame a = .ok frame) : FrameSized frame := by
  obtain ⟨obj, -, hframe⟩ := bind_ok.mp hframe
  split at hframe
  next =>
    cases hframe
    rintro image ⟨⟩
  next imageObj _ _ =>
    obtain ⟨_, -, hframe⟩ := bind_ok.mp hframe
    cases hframe
    rintro image ⟨⟩
    exact h imageObj

/-- The frames a stream has prepared are objects of the storage. -/
lemma frameSized_videoStream (h : AllSized mem) {videoStream : FFmpegVideoStreamImpl}
    (hstream : mem.videoStream a = .ok videoStream) {frame : FFmpegVideoFrameImpl}
    (hframe : some frame ∈ videoStream.preparedFrames) : FrameSized frame := by
  obtain ⟨preparedFrames, hprepared, hstream⟩ := bind_ok.mp hstream
  cases hstream
  obtain ⟨entry, -, hentry⟩ := exists_of_mem_mapM_ok hprepared hframe
  cases entry with
  | none => cases hentry
  | some b =>
    cases hb : mem.videoFrame b with
    | error fault => simp [hb] at hentry
    | ok target =>
      simp only [hb, Except.map_ok] at hentry
      cases hentry
      exact frameSized_videoFrame h hb

lemma preserves_videoFrame_allSized {frame : FFmpegVideoFrameImpl} (h : FrameSized frame) :
    Preserves AllSized (Objects.videoFrame frame) := by
  refine .bind (keepsMembers_allSized.makeNew _) fun a => .modify_bind (fun _ h => h) ?_
  cases himage : frame.imageObj with
  | none => exact .pure
  | some image =>
    refine .bind (keepsMembers_allSized.makeNew _) fun imageObj => ?_
    refine .bind (preserves_setImage_allSized (h image himage)) fun _ => ?_
    exact .bind (preserves_updateStorage_allSized _) fun _ => .pure

lemma preserves_videoFrameOf_allSized {frame : Option FFmpegVideoFrameImpl}
    (h : ∀ target, frame = some target → FrameSized target) :
    Preserves AllSized (Objects.videoFrameOf frame) := by
  cases frame with
  | none => exact .pure
  | some frame => exact .bind (preserves_videoFrame_allSized (h frame rfl)) fun _ => .pure

lemma preserves_pickBestFrameFromPrepared_allSized (a : Addr) (sampleTime tolerance : ℚ) :
    Preserves AllSized
      (Objects.ffmpegVideoStreamPickBestFrameFromPrepared a sampleTime tolerance) := by
  intro mem hmem
  unfold Objects.ffmpegVideoStreamPickBestFrameFromPrepared
  rw [ends_get_bind, ends_bind, ends_ofExcept]
  refine ⟨fun videoStream hstream => ?_, fun _ _ => hmem⟩
  rw [ends_bind, ends_ofExcept]
  refine ⟨fun frame hframe => ?_, fun _ _ => hmem⟩
  refine preserves_videoFrameOf_allSized ?_ mem hmem
  rintro target rfl
  obtain ⟨targetFrame, hmember, rfl⟩ :=
    FFmpegVideoStreamImpl.pickBestFrameFromPrepared_mem hframe
  exact frameSized_ffmpegCloneFrame (frameSized_videoStream hmem hstream hmember)

lemma preserves_setPreparedFrames_allSized (entries : List (Option Addr)) :
    Preserves AllSized (setPreparedFrames a entries) :=
  .bind (preserves_deref a) fun _ => .modify fun _ h => h

lemma preserves_clearPreparedFrames_allSized (a : Addr) :
    Preserves AllSized (Objects.clearPreparedFrames a) :=
  .bind (preserves_updateStorage_allSized _) fun _ => .modify fun _ h => h

lemma preserves_emplaceFrames_allSized {frames : List (Option FFmpegVideoFrameImpl)}
    (h : ∀ frame, some frame ∈ frames → FrameSized frame) :
    Preserves AllSized (Objects.emplaceFrames a frames) := by
  refine .forM fun frame hframe => .bind (preserves_videoFrameOf_allSized ?_) fun handle => ?_
  · rintro target rfl
    exact h target hframe
  · exact .get_bind fun _ _ => preserves_setPreparedFrames_allSized _

lemma preserves_sortPreparedFrames_allSized (a : Addr) :
    Preserves AllSized (Objects.sortPreparedFrames a) := by
  apply Preserves.get_bind
  intro mem _
  split
  · exact preserves_setPreparedFrames_allSized _
  · exact .ite (fun _ => .pure) fun _ => .throw

lemma preserves_prepareFrames_allSized (a : Addr) {outcome : LoopOutcome}
    (h : ∀ frame, some frame ∈ outcome.frames → FrameSized frame) :
    Preserves AllSized (Objects.prepareFrames a outcome) :=
  Objects.preserves_prepareFrames_of (preserves_clearPreparedFrames_allSized a)
    (preserves_emplaceFrames_allSized h) (preserves_sortPreparedFrames_allSized a)

lemma mem_frames_scaled {outcome : LoopOutcome} {frame : Option FFmpegVideoFrameImpl}
    (h : frame ∈ outcome.scaled.frames) : frame ∈ outcome.frames := by
  cases outcome with
  | notStarted => exact h
  | interrupted frames => exact (List.mem_filter.mp h).1
  | completed frames => exact (List.mem_filter.mp h).1

lemma preserves_ffmpegVideoStreamPrepareFrames_allSized (a : Addr) (framesPerSecond : ℚ)
    {outcome : LoopOutcome} (h : ∀ frame, some frame ∈ outcome.frames → FrameSized frame) :
    Preserves AllSized (Objects.ffmpegVideoStreamPrepareFrames a framesPerSecond outcome) :=
  Objects.preserves_ffmpegVideoStreamPrepareFrames (preserves_prepareFrames_allSized a h)
    (preserves_prepareFrames_allSized a fun frame hframe => h frame (mem_frames_scaled hframe))
    framesPerSecond

lemma preserves_ffmpegVideoStreamOpen_allSized (ffmpegInputStream : Option Addr)
    (answers : OpenAnswers) :
    Preserves AllSized (Objects.ffmpegVideoStreamOpen ffmpegInputStream answers) := by
  cases ffmpegInputStream with
  | none => exact .pure
  | some streamObj =>
    refine .bind (keepsMembers_allSized.makeNew _) fun a => .modify_bind (fun _ h => h) ?_
    refine .get_bind fun mem _ => .bind (preserves_deref _) fun _ => ?_
    rcases FFmpegVideoStreamImpl.ffmpegVideoStreamOpen _ answers with fault | _ | videoStream
    · exact .throw
    · exact .bind (preserves_updateStorage_allSized _) fun _ => .pure
    · exact .modify_bind (fun _ h => h) .pure

/-! ### Resizing -/

/-- What `alloc` has allocated is enough if and only if the size did not wrap around. -/
lemma sized_resized_iff {format : PixelFormat} {width height size : Nat} {bytes : List UInt8}
    (hsize : size = width * height * pixelFormatByteWidth format) :
    (⟨format, width, height, bytes.takeD (size % 2 ^ 32) 0⟩ : ConcreteImage).Sized ↔
      size < 2 ^ 32 := by
  change (bytes.takeD (size % 2 ^ 32) 0).length = _ ↔ _
  rw [List.takeD_length, ← hsize]
  constructor
  · intro h
    rw [← h]
    exact Nat.mod_lt size (by norm_num)
  · exact Nat.mod_eq_of_lt

lemma ends_imageResizeOrClone_allSized {imageId width height : BitVec 32} (hmem : AllSized mem)
    (h : SizeFits stb mem (.imageResizeOrClone imageId width height)) :
    Ends (imageResizeOrClone stb imageId width height) mem (fun _ => AllSized)
      fun _ => AllSized := by
  unfold imageResizeOrClone find
  rw [ends_bind, ends_get_bind, ends_ofExcept]
  refine ⟨fun imageObj hfound => ?_, fun _ _ => hmem⟩
  rw [ends_bind]
  refine (Objects.ends_imageResizeOrClone keepsMembers_allSized hmem imageObj _ _ ?_).imp
    (fun object mem' hmem' => preserves_objectReleaseAndReturnId object mem' hmem') fun _ _ h => h
  rintro a rfl hwidth hheight hother size hle resized hresized hlength
  refine (sized_resized_iff rfl).mpr ?_
  rcases h a hfound hwidth hheight hother with hsize | hthrows | hwrites
  · exact hsize
  · exact absurd hle (Nat.not_le_of_lt hthrows)
  · exact absurd hlength (Nat.not_le_of_lt (hwrites resized hresized))

/-! ### Runs of calls -/

lemma sized_loaded (hstb : stb.LoadsWhole) (bytes pixels : List UInt8) (x y : Nat)
    (h : stb.stbi_load_from_memory bytes = .ok (some pixels, x, y)) :
    (⟨.r8g8b8a8Unorm, x, y, pixels⟩ : ConcreteImage).Sized :=
  (hstb bytes pixels x y h).1

/-- One case for each function that makes images or frames. -/
lemma ends_exec_allSized (hstb : stb.LoadsWhole) {call : Call} (hmem : AllSized mem)
    (hframes : ∀ frame, some frame ∈ call.decodedFrames → FrameSized frame)
    (h : SizeFits stb mem call) :
    Ends (exec stb call) mem (fun _ => AllSized) fun _ => AllSized := by
  cases call
  case objectFree id =>
    exact Preserves.bind (preserves_updateStorage_allSized _) (fun _ => .pure) mem hmem
  case imageResizeOrClone id width height => exact ends_imageResizeOrClone_allSized hmem h
  case ffmpegVideoStreamOpen id answers =>
    exact preserves_find_exported
      (fun r => preserves_ffmpegVideoStreamOpen_allSized r answers) mem hmem
  case ffmpegVideoStreamPickBestFrame id sampleTime outcome =>
    have hdecoded : ∀ frame, outcome = .returned frame →
        Preserves AllSized (Objects.videoFrameOf frame) := by
      rintro frame rfl
      apply preserves_videoFrameOf_allSized
      rintro target rfl
      exact hframes target (List.mem_singleton_self _)
    exact preserves_find_exported
      (fun r => Objects.preserves_ffmpegVideoStreamPickBestFrame_of
        preserves_pickBestFrameFromPrepared_allSized hdecoded r sampleTime) mem hmem
  case ffmpegVideoStreamPickBestPreparedFrame id sampleTime =>
    refine preserves_find_exported (fun r => ?_) mem hmem
    cases r with
    | none => exact .pure
    | some a => exact preserves_pickBestFrameFromPrepared_allSized a _ _
  case ffmpegVideoStreamPrepareAllFrames id outcome =>
    refine Preserves.bind (preserves_find _ _) (fun r => ?_) mem hmem
    cases r with
    | none => exact .pure
    | some a => exact .bind (preserves_prepareFrames_allSized a hframes) fun _ => .pure
  case ffmpegVideoStreamPrepareFrames id framesPerSecond outcome =>
    refine Preserves.bind (preserves_find _ _) (fun r => ?_) mem hmem
    cases r with
    | none => exact .pure
    | some a =>
      exact .bind (preserves_ffmpegVideoStreamPrepareFrames_allSized a _ hframes) fun _ => .pure
  case ffmpegVideoStreamClearPreparedFrames id =>
    refine Preserves.bind (preserves_find _ _) (fun r => .bind ?_ fun _ => .pure) mem hmem
    cases r with
    | none => exact .pure
    | some a => exact preserves_clearPreparedFrames_allSized a
  case ffmpegVideoStreamClose id =>
    refine Preserves.bind (preserves_find _ _) (fun r => .bind ?_ fun _ => .pure) mem hmem
    cases r with
    | none => exact .pure
    | some a =>
      exact .bind (preserves_updateStorage_allSized _) fun _ =>
        .modify fun _ h => allSized_construct h
  all_goals
    exact preserves_exec_of_makesAtMost keepsMembers_allSized (sized_loaded hstb) (by trivial) mem
      hmem

lemma allSized_step (hstb : stb.LoadsWhole) {call : Call} (hmem : AllSized mem)
    (hframes : ∀ frame, some frame ∈ call.decodedFrames → FrameSized frame)
    (h : SizeFits stb mem call) (hstep : step stb mem call = .ok mem') : AllSized mem' :=
  of_step (ends_exec_allSized hstb hmem hframes h) hstep

/-- In every run in which an image that is resized and returned is smaller than 4 GiB, every image
has the size that its extents and its format say. -/
theorem imagesSized_of_sizeFits (stb : Stb) (hstb : stb.LoadsWhole)
    (calls : List Call)
    (hdecoded : ∀ call ∈ calls, ∀ frame, some frame ∈ call.decodedFrames → frame.IsDecoded)
    (h : Along (step stb) (SizeFits stb) .init calls) :
    Throughout (step stb) ImagesSized .init calls := by
  have hcalls : Along (step stb) (fun mem call => SizeFits stb mem call ∧
      ∀ frame, some frame ∈ call.decodedFrames → FrameSized frame) .init calls := by
    intro pre call mem hpre hrun
    refine ⟨h pre call mem hpre hrun, fun frame hframe => ?_⟩
    have hcall : call ∈ calls := hpre.subset (by simp)
    exact frameSized_of_isDecoded (hdecoded call hcall frame hframe)
  exact .of_invariant
    (fun _ _ _ hmem hcall hstep => allSized_step hstb hmem hcall.2 hcall.1 hstep)
    (fun _ hmem a _ _ _ => hmem a) (fun _ => rfl) hcalls

/-- A PNG file of one white pixel. -/
def whiteFile : List UInt8 :=
  [137, 80, 78, 71, 13, 10, 26, 10,
    0, 0, 0, 13, 73, 72, 68, 82, 0, 0, 0, 1, 0, 0, 0, 1, 8, 6, 0, 0, 0, 31, 21, 196, 137,
    0, 0, 0, 11, 73, 68, 65, 84, 120, 218, 99, 248, 15, 4, 0, 9, 251, 3, 253, 104, 250, 28, 204,
    0, 0, 0, 0, 73, 69, 78, 68, 174, 66, 96, 130]

/-- A library that loads this file. What it resizes to is white, but extents that are negative as an
`int` ask for more memory than there is. -/
def whitePixel : Stb where
  stbi_load_from_memory bytes :=
    .ok (if bytes = whiteFile then (some [255, 255, 255, 255], 1, 1) else (none, 0, 0))
  stbir_resize_uint8 _ width height :=
    if width < 2 ^ 31 ∧ height < 2 ^ 31 then .ok (List.replicate (width * height * 4) 255)
    else .ok []
  stbi_write_png_to_func _ := .ok []

lemma loadsWhole_whitePixel : whitePixel.LoadsWhole := by
  intro bytes pixels x y h
  have hload : (if bytes = whiteFile then (some [255, 255, 255, 255], 1, 1) else (none, 0, 0)) =
      (some pixels, x, y) := Except.ok.inj h
  split_ifs at hload
  · cases hload
    exact ⟨rfl, by norm_num⟩
  · cases hload

/-- An image is resized to two by three pixels and cloned; a frame of one pixel is decoded. -/
def sixPixels : List Call :=
  [.bufferFromUint8Array whiteFile,
    .imageLoadFromBuffer 0x10100000#32,
    .imageResizeOrClone 0x30100001#32 2#32 3#32,
    .imageClone 0x30100002#32,
    .bufferWithSize 4096,
    .ffmpegInputStreamLoadFromBuffer 0x10100004#32,
    .ffmpegVideoStreamOpen 0x50100005#32 fiveFrames,
    .ffmpegVideoStreamPickBestFrame 0x70100006#32 0
      (.returned (some ⟨0, some ⟨.r8g8b8a8Unorm, 1, 1, [1, 2, 3, 255]⟩⟩))]

theorem imagesSized_sixPixels : Throughout (step whitePixel) ImagesSized .init sixPixels := by
  apply imagesSized_of_sizeFits whitePixel loadsWhole_whitePixel
  · intro call hcall frame hframe
    have hframe : frame = ⟨0, some ⟨.r8g8b8a8Unorm, 1, 1, [1, 2, 3, 255]⟩⟩ := by
      simp only [sixPixels, List.mem_cons, List.not_mem_nil, or_false] at hcall
      rcases hcall with rfl | rfl | rfl | rfl | rfl | rfl | rfl | rfl <;>
        simp [Call.decodedFrames, PickOutcome.frames] at hframe
      exact hframe
    rw [hframe]
    exact ⟨⟨[], 0, 5, 5, 1, 1 / 10, 1, 1⟩, 0, [1, 2, 3, 255], rfl, rfl⟩
  · intro pre call mem hpre _
    have hcall : call ∈ sixPixels := hpre.subset (by simp)
    simp only [sixPixels, List.mem_cons, List.not_mem_nil, or_false] at hcall
    rcases hcall with rfl | rfl | rfl | rfl | rfl | rfl | rfl | rfl
    case inr.inr.inl =>
      intro a _ _ _ _
      left
      cases (mem.images a).format <;> decide
    all_goals trivial

/-- Both extents are -1 as an `int`. -/
def minusOne : List Call :=
  [.bufferFromUint8Array whiteFile,
    .imageLoadFromBuffer 0x10100000#32,
    .imageResizeOrClone 0x30100001#32 0xFFFFFFFF#32 0xFFFFFFFF#32]

/-- The image that is returned has four bytes. -/
theorem not_imagesSized : whitePixel.LoadsWhole ∧
    ∃ mem, run (step whitePixel) .init minusOne = .ok mem ∧ ¬ ImagesSized mem := by
  obtain ⟨mem, hrun, ⟨obj, hobj, hcls⟩, hproduct, hsize⟩ : ∃ mem,
      run (step whitePixel) .init minusOne = .ok mem ∧
      (∃ obj, mem.storage.heap 2 = some obj ∧ obj.cls = .image) ∧
      (mem.images 2).width * (mem.images 2).height * pixelFormatByteWidth (mem.images 2).format =
        (2 ^ 32 - 1) * (2 ^ 32 - 1) * 4 ∧ (mem.images 2).bufferSize = 4 :=
    ⟨_, rfl, ⟨_, rfl, rfl⟩, rfl, rfl⟩
  refine ⟨loadsWhole_whitePixel, mem, hrun, fun h => ?_⟩
  have hsized := h 2 obj hobj hcls
  rw [ConcreteImage.Sized, hproduct, hsize] at hsized
  cases hsized

end Bindings

end GifTools
