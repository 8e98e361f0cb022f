import GifTools.FFmpeg.Prepare

/-!
# The images of decoded frames

The loops make every frame they emit in one way, from the buffer of a staging frame. The buffer is
as large as `av_image_get_buffer_size` says when it is allocated, and stays so when the scaler
writes it.
-/

namespace GifTools

open Runs

/-- The image is made of the buffer of a staging frame. -/
def FFmpegVideoFrameImpl.IsDecoded (frame : FFmpegVideoFrameImpl) : Prop :=
  ∃ (videoStream : FFmpegVideoStreamImpl) (time : ℚ) (imageByteBuffer : List UInt8),
    imageByteBuffer.length = videoStream.imgBufferSize ∧
      frame = videoStream.scaledFrame time imageByteBuffer

/-- All prepared frames are decoded, empty handles apart. -/
def FFmpegVideoStreamImpl.PreparesDecoded (videoStream : FFmpegVideoStreamImpl) : Prop :=
  ∀ frame, some frame ∈ videoStream.preparedFrames → frame.IsDecoded

/-- Sorting only changes the order. -/
lemma perm_of_sortPreparedFrames {videoStream videoStream' : FFmpegVideoStreamImpl}
    (h : videoStream.sortPreparedFrames = .ok videoStream') : ∃ preparedFrames,
      preparedFrames.Perm videoStream.preparedFrames ∧
        videoStream' = { videoStream with preparedFrames := preparedFrames } := by
  by_cases hnonNull : videoStream.NonNull
  · obtain ⟨frames, hframes⟩ := FFmpegVideoStreamImpl.exists_map_some hnonNull
    rw [FFmpegVideoStreamImpl.sortPreparedFrames_eq hframes] at h
    cases h
    refine ⟨_, ?_, rfl⟩
    rw [hframes]
    exact (List.mergeSort_perm frames _).map some
  · rw [FFmpegVideoStreamImpl.eq_of_sortPreparedFrames hnonNull h]
    exact ⟨_, .rfl, rfl⟩

namespace DecodeLoop

variable {f : DecodeFunction} {s s' s₁ : DecodeLoop} {answer : Answer} {answers : List Answer}
  {time : ℚ} {sws_scale : Option (List UInt8 → List UInt8)}

/-- What the scaler writes is as large as the buffer. -/
def FillsBuffer (s : DecodeLoop) (sws_scale : Option (List UInt8 → List UInt8)) : Prop :=
  ∀ scale, sws_scale = some scale →
    ∀ picture, (scale picture).length = s.videoStream.imgBufferSize

/-- In every round. -/
def ScalesWhole (s : DecodeLoop) (answer : Answer) : Prop :=
  ∀ data timestamp buffers sws_scale, answer = .decoded data timestamp buffers sws_scale →
    s.FillsBuffer sws_scale

/-- Both staging frames have their buffers. -/
def Allocated (s : DecodeLoop) : Prop :=
  ∀ staging, (s.stagingFrame staging).imageByteBuffer.length = s.videoStream.imgBufferSize

lemma Allocated.congr (h : s.Allocated) (hstream : s'.videoStream = s.videoStream)
    (hbuffers : ∀ staging,
      (s'.stagingFrame staging).imageByteBuffer = (s.stagingFrame staging).imageByteBuffer) :
    s'.Allocated := by
  intro staging
  rw [hbuffers, hstream]
  exact h staging

/-- The frames that were prepared or returned are decoded. -/
structure EmitsDecoded (s : DecodeLoop) : Prop where
  prepared : s.videoStream.PreparesDecoded
  allocated : s.Allocated
  returned : ∀ frame, s.request = .returned (.frame (some frame)) → frame.IsDecoded

lemma length_scaled {stagingFrame : FFmpegStagingVideoFrame} {codec : AVCodecInternal}
    {imageByteBuffer : List UInt8} (hfills : s.FillsBuffer sws_scale)
    (hallocated : stagingFrame.imageByteBuffer.length = s.videoStream.imgBufferSize)
    (h : stagingFrame.scaled codec sws_scale = some imageByteBuffer) :
    imageByteBuffer.length = s.videoStream.imgBufferSize := by
  rw [FFmpegStagingVideoFrame.scaled] at h
  split at h
  · cases h
    exact hallocated
  · obtain ⟨scale, hscale, rfl⟩ := Option.map_eq_some_iff.mp h
    exact hfills scale hscale _

lemma isDecoded_frameOf {staging : Staging} {frame : FFmpegVideoFrameImpl}
    (hfills : s.FillsBuffer sws_scale) (hallocated :
      (s.stagingFrame staging).imageByteBuffer.length = s.videoStream.imgBufferSize)
    (h : s.frameOf sws_scale staging = some frame) : frame.IsDecoded := by
  obtain ⟨imageByteBuffer, hscaled, rfl⟩ := Option.map_eq_some_iff.mp h
  exact ⟨s.videoStream, _, imageByteBuffer, length_scaled hfills hallocated hscaled, rfl⟩

/-- What a body adds to the prepared frames is made of a staging frame. -/
lemma exists_of_mem_entries {frame : FFmpegVideoFrameImpl}
    (h : some frame ∈ s.entries time sws_scale f) :
    ∃ staging, s.frameOf sws_scale staging = some frame := by
  cases f with
  | pickBestFrame => cases h
  | prepareAllFrames =>
    rw [entries] at h
    split at h
    · cases h
    · exact ⟨.current, (List.mem_singleton.mp h).symm⟩
  | prepareFrames desired =>
    obtain ⟨target, htarget, ⟨⟩⟩ := List.mem_map.mp h
    obtain ⟨staging, -, hframe⟩ := Option.bind_eq_some_iff.mp (Option.mem_toList.mp htarget)
    exact ⟨staging, hframe⟩

lemma Turns.decoded (turns : Turns f time sws_scale s s₁) (h : s.videoStream.PreparesDecoded)
    (hallocated : s.Allocated) (hfills : s.FillsBuffer sws_scale) :
    s₁.videoStream.PreparesDecoded ∧ s₁.Allocated := by
  have hlength : ∀ {stagingFrame stagingFrame' : FFmpegStagingVideoFrame},
      FFmpegStagingVideoFrame.Scales s.codec sws_scale stagingFrame stagingFrame' →
        stagingFrame.imageByteBuffer.length = s.videoStream.imgBufferSize →
          stagingFrame'.imageByteBuffer.length = s.videoStream.imgBufferSize := by
    intro stagingFrame stagingFrame' hscales hallocated
    rcases hscales.imageByteBuffer with hsame | hscaled
    · rw [hsame, hallocated]
    · exact length_scaled hfills hallocated hscaled
  constructor
  · rw [turns.videoStream]
    intro frame hframe
    rcases List.mem_append.mp hframe with hframe | hframe
    · exact h frame hframe
    · obtain ⟨staging, hstaging⟩ := exists_of_mem_entries hframe
      exact isDecoded_frameOf hfills (hallocated staging) hstaging
  · have hcurrent := hallocated .current
    have hprevious := hallocated .previous
    intro staging
    rw [turns.videoStream]
    by_cases hswaps : s.Swaps time f
    · obtain ⟨hprev, hcurr⟩ := turns.swapped hswaps
      cases staging with
      | current => exact hlength hcurr hprevious
      | previous => exact hlength hprev hcurrent
    · obtain ⟨hprev, hcurr⟩ := turns.kept hswaps
      cases staging with
      | current => exact hlength hcurr hcurrent
      | previous => exact hlength hprev hprevious

lemma search_stagingFrame (s : DecodeLoop) (staging : Staging) :
    s.search.stagingFrame staging = s.stagingFrame staging := by
  cases h : s.endOfStream <;> cases staging <;> simp [search, decode, stagingFrame, h]

lemma emitsDecoded_search (h : s.videoStream.PreparesDecoded) (hallocated : s.Allocated) :
    s.search.EmitsDecoded where
  prepared := by
    rw [search_videoStream]
    exact h
  allocated staging := by
    rw [search_stagingFrame, search_videoStream]
    exact hallocated staging
  returned _ hframe := absurd hframe (search_request s _)

lemma emitsDecoded_leave (h : s.videoStream.PreparesDecoded) (hallocated : s.Allocated)
    (hleave : s.leave f = .ok s') : s'.EmitsDecoded := by
  have hsort : s.sortAndCount = .ok s' → s'.EmitsDecoded := by
    intro hsort
    obtain ⟨videoStream, hsorted, hs'⟩ := bind_ok.mp hsort
    cases hs'
    obtain ⟨preparedFrames, hperm, rfl⟩ := perm_of_sortPreparedFrames hsorted
    refine ⟨fun frame hframe => h frame (hperm.mem_iff.mp hframe), fun staging => ?_, nofun⟩
    have hsize := hallocated staging
    cases staging <;> exact hsize
  cases f with
  | pickBestFrame =>
    cases hleave
    exact ⟨h, hallocated.congr rfl fun staging => by cases staging <;> rfl, nofun⟩
  | prepareAllFrames => exact hsort hleave
  | prepareFrames desired => exact hsort hleave

lemma EmitsDecoded.receives {data : Option Nat} {timestamp : Int} {buffers : Nat → List UInt8}
    (h : s.EmitsDecoded) (hfills : s.FillsBuffer sws_scale)
    (hs' : Receives f s data timestamp buffers sws_scale s') : s'.EmitsDecoded := by
  have hallocated : (s.atBody data timestamp buffers).Allocated :=
    h.allocated.congr rfl fun staging => by cases staging <;> rfl
  have hturns {s₁ : DecodeLoop} (turns : Turns f
      (timestamp * s.videoStream.primaryStreamTimeBase) sws_scale
        (s.atBody data timestamp buffers) s₁) : s₁.videoStream.PreparesDecoded ∧ s₁.Allocated :=
    turns.decoded h.prepared hallocated hfills
  cases hs' with
  | quiet _ _ =>
    exact emitsDecoded_search h.prepared
      (h.allocated.congr rfl fun staging => by cases staging <;> rfl)
  | goesOn _ _ turns => exact emitsDecoded_search (hturns turns).1 (hturns turns).2
  | leaves _ turns left => exact emitsDecoded_leave (hturns turns).1 (hturns turns).2 left
  | @returns s₁ staging _ turns _ =>
    obtain ⟨hprepared, hallocated₁⟩ := hturns turns
    refine ⟨hprepared, hallocated₁.congr rfl fun staging => by cases staging <;> rfl, ?_⟩
    intro frame hframe
    exact isDecoded_frameOf (s := s.atBody data timestamp buffers) hfills (hallocated staging)
      (DecodeResult.frame.inj (Request.returned.inj hframe))

lemma EmitsDecoded.step (h : s.EmitsDecoded) (hscales : s.ScalesWhole answer)
    (hstep : step f s answer = .ok s') : s'.EmitsDecoded := by
  have hfail : (s.freePacket.fail f).EmitsDecoded ∧ (s.fail f).EmitsDecoded := by
    constructor
    all_goals
      cases f <;>
        exact ⟨h.prepared, h.allocated.congr rfl fun staging => by cases staging <;> rfl, nofun⟩
  obtain ⟨-, -, rfl⟩ | ⟨-, -, rfl⟩ | ⟨packet, -, -, -, rfl⟩ | ⟨packet, -, -, -, rfl⟩ |
    ⟨-, -, rfl⟩ | ⟨data, timestamp, buffers, sws_scale, -, rfl, hpicture⟩ := step_cases hstep
  · exact hfail.1
  · exact ⟨h.prepared, h.allocated.congr rfl fun staging => by cases staging <;> rfl, nofun⟩
  · exact ⟨h.prepared, h.allocated.congr rfl fun staging => by cases staging <;> rfl, nofun⟩
  · exact emitsDecoded_search h.prepared
      (h.allocated.congr rfl fun staging => by cases staging <;> rfl)
  · exact hfail.2
  · exact h.receives (hscales data timestamp buffers sws_scale rfl)
      (receives_of_receivePicture hpicture)

lemma emitsDecoded_start {videoStream : FFmpegVideoStreamImpl} (sampleTime : ℚ)
    (h : videoStream.PreparesDecoded) : (start videoStream sampleTime).EmitsDecoded where
  prepared := h
  allocated staging := by cases staging <;> exact List.length_replicate
  returned _ := nofun

end DecodeLoop

/-- All frames that a loop prepares or returns are decoded. -/
theorem isDecoded_of_finish {videoStream videoStream' : FFmpegVideoStreamImpl} {sampleTime : ℚ}
    {f : DecodeFunction} {answers : List Answer} {result : DecodeResult}
    (h : videoStream.PreparesDecoded)
    (hscales : Along (DecodeLoop.step f) DecodeLoop.ScalesWhole
      (.start videoStream sampleTime) answers)
    (hfinish : FFmpegVideoStreamImpl.finish f (.start videoStream sampleTime) answers =
      .ok (videoStream', result)) :
    videoStream'.PreparesDecoded ∧ ∀ frame, result = .frame (some frame) → frame.IsDecoded := by
  obtain ⟨s', hrun, hreturned, rfl⟩ := FFmpegVideoStreamImpl.finish_ok hfinish
  have hs' : s'.EmitsDecoded := Throughout.last
    (.of_invariant (fun _ _ _ hs hscales hstep => hs.step hscales hstep) (fun _ => id)
      (DecodeLoop.emitsDecoded_start sampleTime h) hscales) hrun
  exact ⟨hs'.prepared, fun frame hframe => hs'.returned frame (hreturned.trans (by rw [hframe]))⟩

end GifTools
