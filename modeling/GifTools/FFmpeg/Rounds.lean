import GifTools.Core.Runs
import GifTools.FFmpeg.Sampler

/-!
# The rounds of a loop

In a round the decoder returns and the body of the loop runs. A body makes one staging frame into a
frame at most, and swaps the two or not; which of this it does is decided by times.
-/

namespace GifTools

open Runs

/-! ### Staging frames -/

/-- The frame that is made of a scaled picture. -/
def FFmpegVideoStreamImpl.scaledFrame (videoStream : FFmpegVideoStreamImpl) (time : ℚ)
    (imageByteBuffer : List UInt8) : FFmpegVideoFrameImpl :=
  ⟨time, some ⟨.r8g8b8a8Unorm, videoStream.width, videoStream.height, imageByteBuffer⟩⟩

namespace FFmpegStagingVideoFrame

variable {codec : AVCodecInternal} {sws_scale : Option (List UInt8 → List UInt8)}
  {stagingFrame stagingFrame' : FFmpegStagingVideoFrame}

/-- The staging frame before and after it may have been scaled. -/
structure Scales (codec : AVCodecInternal) (sws_scale : Option (List UInt8 → List UInt8))
    (stagingFrame stagingFrame' : FFmpegStagingVideoFrame) : Prop where
  timeSecondsEst : stagingFrame'.timeSecondsEst = stagingFrame.timeSecondsEst
  decodedFrame : stagingFrame'.decodedFrame = stagingFrame.decodedFrame
  packet : stagingFrame'.packet = stagingFrame.packet
  imageByteBuffer : stagingFrame'.imageByteBuffer = stagingFrame.imageByteBuffer ∨
    stagingFrame.scaled codec sws_scale = some stagingFrame'.imageByteBuffer

lemma Scales.refl (stagingFrame : FFmpegStagingVideoFrame) :
    Scales codec sws_scale stagingFrame stagingFrame := ⟨rfl, rfl, rfl, .inl rfl⟩

lemma scales_ffmpegVideoFrameFromStaging (videoStream : FFmpegVideoStreamImpl) :
    Scales codec sws_scale stagingFrame
      (ffmpegVideoFrameFromStaging videoStream codec sws_scale stagingFrame).2 := by
  rw [ffmpegVideoFrameFromStaging]
  split
  · exact .refl stagingFrame
  · rename_i imageByteBuffer hscaled
    exact ⟨rfl, rfl, rfl, .inr hscaled⟩

lemma ffmpegVideoFrameFromStaging_fst (videoStream : FFmpegVideoStreamImpl) :
    (ffmpegVideoFrameFromStaging videoStream codec sws_scale stagingFrame).1 =
      (stagingFrame.scaled codec sws_scale).map
        (videoStream.scaledFrame stagingFrame.timeSecondsEst) := by
  rw [ffmpegVideoFrameFromStaging]
  split
  · rename_i hscaled
    rw [hscaled]
    rfl
  · rename_i hscaled
    rw [hscaled]
    rfl

/-- Without a picture nothing is written. -/
lemma scaled_of_none (h : stagingFrame.decodedFrame.data = none) :
    stagingFrame.scaled codec sws_scale = some stagingFrame.imageByteBuffer := by
  rw [scaled, h]

lemma scaled_of_some {buffer : Nat} (h : stagingFrame.decodedFrame.data = some buffer) :
    stagingFrame.scaled codec sws_scale =
      sws_scale.map fun scale => scale (codec.buffers buffer) := by
  rw [scaled, h]

lemma Scales.imageByteBuffer_of_none (h : Scales codec sws_scale stagingFrame stagingFrame')
    (hnone : stagingFrame.decodedFrame.data = none) :
    stagingFrame'.imageByteBuffer = stagingFrame.imageByteBuffer := by
  rcases h.imageByteBuffer with hsame | hscaled
  · exact hsame
  · rw [scaled_of_none hnone] at hscaled
    exact (Option.some.inj hscaled).symm

end FFmpegStagingVideoFrame

/-! ### Bodies -/

namespace DecodeLoop

open FFmpegStagingVideoFrame

variable {f : DecodeFunction} {s s' : DecodeLoop} {time : ℚ}
  {sws_scale : Option (List UInt8 → List UInt8)} {staging : Staging}

/-- The staging frames of a loop. -/
def stagingFrame (s : DecodeLoop) : Staging → FFmpegStagingVideoFrame
  | .current => s.currFrame
  | .previous => s.prevFrame

/-- The frame that is made of a staging frame. -/
def frameOf (s : DecodeLoop) (sws_scale : Option (List UInt8 → List UInt8)) (staging : Staging) :
    Option FFmpegVideoFrameImpl :=
  ((s.stagingFrame staging).scaled s.codec sws_scale).map
    (s.videoStream.scaledFrame (s.stagingFrame staging).timeSecondsEst)

/-- The entries that the body adds to the prepared frames. -/
def entries (s : DecodeLoop) (time : ℚ) (sws_scale : Option (List UInt8 → List UInt8)) :
    DecodeFunction → List (Option FFmpegVideoFrameImpl)
  | .pickBestFrame => []
  | .prepareAllFrames => if time < 0 then [] else [s.frameOf sws_scale .current]
  | .prepareFrames _ => ((s.branch time).emits.bind (s.frameOf sws_scale)).toList.map some

/-- Whether the body swaps the staging frames. -/
def Swaps (s : DecodeLoop) (time : ℚ) : DecodeFunction → Prop
  | .pickBestFrame => s.branch time = .nextFrame
  | .prepareAllFrames => False
  | .prepareFrames _ => s.branch time ≠ .currentGood

/-- The times that decide what the body does. -/
def sampler (s : DecodeLoop) : Sampler := ⟨s.sampleTime, s.prevFrame.timeSecondsEst⟩

/-- A loop before and after its body. -/
structure Turns (f : DecodeFunction) (time : ℚ) (sws_scale : Option (List UInt8 → List UInt8))
    (s s' : DecodeLoop) : Prop where
  videoStream : s'.videoStream = { s.videoStream with
    preparedFrames := s.videoStream.preparedFrames ++ s.entries time sws_scale f }
  codec : s'.codec = s.codec
  endOfStream : s'.endOfStream = s.endOfStream
  calls : s'.calls = s.calls
  packets : s'.packets = s.packets
  swapped : s.Swaps time f → Scales s.codec sws_scale s.currFrame s'.prevFrame ∧
    Scales s.codec sws_scale s.prevFrame s'.currFrame
  kept : ¬ s.Swaps time f → Scales s.codec sws_scale s.prevFrame s'.prevFrame ∧
    Scales s.codec sws_scale s.currFrame s'.currFrame
  samples : ∀ desired, f = .prepareFrames desired →
    s'.sampler = s.sampler.next s.videoStream.frameDurationSeconds desired time

/-- A staging frame is made into a frame, and nothing but the staging frames changes. -/
lemma fromStaging_eq (s : DecodeLoop) (sws_scale : Option (List UInt8 → List UInt8))
    (staging : Staging) : ∃ prevFrame currFrame, s.fromStaging sws_scale staging =
        (s.frameOf sws_scale staging, { s with prevFrame := prevFrame, currFrame := currFrame }) ∧
      Scales s.codec sws_scale s.prevFrame prevFrame ∧
      Scales s.codec sws_scale s.currFrame currFrame := by
  cases staging with
  | current =>
    refine ⟨_, _, ?_, .refl _, scales_ffmpegVideoFrameFromStaging s.videoStream⟩
    exact Prod.ext (ffmpegVideoFrameFromStaging_fst s.videoStream) rfl
  | previous =>
    refine ⟨_, _, ?_, scales_ffmpegVideoFrameFromStaging s.videoStream, .refl _⟩
    exact Prod.ext (ffmpegVideoFrameFromStaging_fst s.videoStream) rfl

lemma emplaceFrame_eq (frame : Option FFmpegVideoFrameImpl) : s.emplaceFrame frame = { s with
    videoStream := { s.videoStream with
      preparedFrames := s.videoStream.preparedFrames ++ frame.toList.map some } } := by
  cases frame with
  | none => simp [emplaceFrame]
  | some frame => rfl

/-- A staging frame is made into a frame, which is prepared. -/
lemma emplaceFrom_eq (s : DecodeLoop) (sws_scale : Option (List UInt8 → List UInt8))
    (staging : Staging) : ∃ prevFrame currFrame, s.emplaceFrom sws_scale staging =
        { s with
          prevFrame := prevFrame
          currFrame := currFrame
          videoStream := { s.videoStream with
            preparedFrames := s.videoStream.preparedFrames ++
              (s.frameOf sws_scale staging).toList.map some } } ∧
      Scales s.codec sws_scale s.prevFrame prevFrame ∧
      Scales s.codec sws_scale s.currFrame currFrame := by
  obtain ⟨prevFrame, currFrame, heq, hprev, hcurr⟩ := s.fromStaging_eq sws_scale staging
  refine ⟨prevFrame, currFrame, ?_, hprev, hcurr⟩
  rw [emplaceFrom, heq]
  exact emplaceFrame_eq _

/-- The body of `ffmpegVideoStreamPickBestFrame` returns a staging frame. -/
lemma pickBestFrameBody_emits (sws_scale : Option (List UInt8 → List UInt8))
    (h : (s.branch time).emits = some staging) :
    ∃ s', s.pickBestFrameBody time sws_scale = .ret s' (.frame (s.frameOf sws_scale staging)) ∧
      Turns .pickBestFrame time sws_scale s s' := by
  obtain ⟨prevFrame, currFrame, heq, hprev, hcurr⟩ := s.fromStaging_eq sws_scale staging
  refine ⟨{ s with prevFrame := prevFrame, currFrame := currFrame }, ?_, ?_⟩
  · rw [pickBestFrameBody]
    cases hbranch : s.branch time <;> rw [hbranch] at h <;> cases h <;> simp only [returnFrom, heq]
  · refine ⟨by simp [entries], rfl, rfl, rfl, rfl, fun hswaps => ?_, fun _ => ⟨hprev, hcurr⟩,
      fun _ => nofun⟩
    rw [Swaps] at hswaps
    rw [hswaps] at h
    cases h

/-- Or it passes the picture over. -/
lemma pickBestFrameBody_nextFrame (sws_scale : Option (List UInt8 → List UInt8))
    (h : s.branch time = .nextFrame) : s.pickBestFrameBody time sws_scale = .next s.swap ∧
      Turns .pickBestFrame time sws_scale s s.swap := by
  constructor
  · simp only [pickBestFrameBody, h, if_pos (Branch.nonneg_of_nextFrame h)]
  · exact ⟨by simp [entries, swap], rfl, rfl, rfl, rfl, fun _ => ⟨.refl _, .refl _⟩,
      fun hswaps => absurd h hswaps, fun _ => nofun⟩

lemma prepareAllFramesBody_of_neg (sws_scale : Option (List UInt8 → List UInt8)) (h : time < 0) :
    s.prepareAllFramesBody time sws_scale = .leave s ∧
      Turns .prepareAllFrames time sws_scale s s := by
  constructor
  · exact if_pos h
  · exact ⟨by simp [entries, h], rfl, rfl, rfl, rfl, False.elim, fun _ => ⟨.refl _, .refl _⟩,
      fun _ => nofun⟩

lemma prepareAllFramesBody_of_nonneg (sws_scale : Option (List UInt8 → List UInt8))
    (h : 0 ≤ time) :
    ∃ s', s.prepareAllFramesBody time sws_scale = .next s' ∧
      Turns .prepareAllFrames time sws_scale s s' := by
  obtain ⟨prevFrame, currFrame, heq, hprev, hcurr⟩ := s.fromStaging_eq sws_scale .current
  refine ⟨DecodeLoop.emplaceBack { s with prevFrame := prevFrame, currFrame := currFrame }
    (s.frameOf sws_scale .current), ?_, ?_⟩
  · rw [prepareAllFramesBody, if_neg (not_lt.mpr h), heq]
  · refine ⟨?_, rfl, rfl, rfl, rfl, False.elim, fun _ => ⟨hprev, hcurr⟩, fun _ => nofun⟩
    simp [entries, not_lt.mpr h, DecodeLoop.emplaceBack, FFmpegVideoStreamImpl.emplaceBack]

/-- A body that samples goes on as the sampler does. -/
lemma prepareFramesBody_eq (desired : ℚ) (sws_scale : Option (List UInt8 → List UInt8))
    (hcurrent : s.currFrame.timeSecondsEst = time) :
    ∃ s', s.prepareFramesBody desired time sws_scale = .next s' ∧
      Turns (.prepareFrames desired) time sws_scale s s' := by
  have hbranch : s.sampler.branch s.videoStream.frameDurationSeconds time = s.branch time := rfl
  have hemplaced : ∀ staging, (s.branch time).emits = some staging →
      s.branch time ≠ .currentGood →
        s.sampler.next s.videoStream.frameDurationSeconds desired time =
          ⟨s.sampleTime + desired, time⟩ → Turns (.prepareFrames desired) time sws_scale s
          ((s.emplaceFrom sws_scale staging).swap.nextSample desired) := by
    intro staging hemits hgood hnext
    obtain ⟨prevFrame, currFrame, heq, hprev, hcurr⟩ := s.emplaceFrom_eq sws_scale staging
    refine ⟨?_, ?_, ?_, ?_, ?_, fun _ => ?_, fun hswaps => ?_, ?_⟩
    all_goals simp only [heq, entries, hemits]
    · rfl
    · rfl
    · rfl
    · rfl
    · rfl
    · exact ⟨hcurr, hprev⟩
    · exact absurd hgood hswaps
    · rintro _ ⟨⟩
      rw [hnext, sampler, swap, nextSample, ← hcurrent, ← hcurr.timeSecondsEst]
  rw [prepareFramesBody]
  cases h : s.branch time with
  | currentGood =>
    obtain ⟨prevFrame, currFrame, heq, hprev, hcurr⟩ := s.emplaceFrom_eq sws_scale .current
    refine ⟨_, rfl, ?_, ?_, ?_, ?_, ?_, fun hswaps => ?_, fun _ => ?_, ?_⟩
    all_goals simp only [heq, entries, h, Branch.emits]
    · rfl
    · rfl
    · rfl
    · rfl
    · rfl
    · exact absurd h hswaps
    · exact ⟨hprev, hcurr⟩
    · rintro _ ⟨⟩
      rw [Sampler.next, hbranch, h]
      simp only [sampler, nextSample, hprev.timeSecondsEst]
  | previousOnly =>
    refine ⟨_, rfl, hemplaced .previous (by rw [h]; rfl) (by simp [h]) ?_⟩
    rw [Sampler.next, hbranch, h]
    rfl
  | previousCloser =>
    refine ⟨_, rfl, hemplaced .previous (by rw [h]; rfl) (by simp [h]) ?_⟩
    rw [Sampler.next, hbranch, h]
    rfl
  | currentCloser =>
    refine ⟨_, rfl, hemplaced .current (by rw [h]; rfl) (by simp [h]) ?_⟩
    rw [Sampler.next, hbranch, h]
    rfl
  | nextFrame =>
    refine ⟨s.swap, if_pos (Branch.nonneg_of_nextFrame h), ?_, rfl, rfl, rfl, rfl,
      fun _ => ⟨.refl _, .refl _⟩, fun hswaps => ?_, ?_⟩
    · simp [entries, h, Branch.emits, swap]
    · simp [Swaps, h] at hswaps
    · rintro _ ⟨⟩
      rw [Sampler.next, hbranch, h]
      simp only [sampler, swap, hcurrent]

/-- How a body ends. -/
inductive BodyEnds (f : DecodeFunction) (time : ℚ) (sws_scale : Option (List UInt8 → List UInt8))
    (s : DecodeLoop) : Exit → Prop
  | next {s' : DecodeLoop} (turns : Turns f time sws_scale s s') :
    BodyEnds f time sws_scale s (.next s')
  | leave {s' : DecodeLoop} (turns : Turns f time sws_scale s s')
    (function : f = .prepareAllFrames) (negative : time < 0) :
    BodyEnds f time sws_scale s (.leave s')
  | ret {s' : DecodeLoop} {staging : Staging} (turns : Turns f time sws_scale s s')
    (function : f = .pickBestFrame) (emits : (s.branch time).emits = some staging) :
    BodyEnds f time sws_scale s (.ret s' (.frame (s.frameOf sws_scale staging)))

lemma body_ends (f : DecodeFunction) (hcurrent : s.currFrame.timeSecondsEst = time) :
    BodyEnds f time sws_scale s (s.body time sws_scale f) := by
  cases f with
  | pickBestFrame =>
    rw [body]
    cases h : (s.branch time).emits with
    | none =>
      obtain ⟨hbody, hturns⟩ := pickBestFrameBody_nextFrame sws_scale (Branch.emits_eq_none.mp h)
      rw [hbody]
      exact .next hturns
    | some staging =>
      obtain ⟨s', hbody, hturns⟩ := pickBestFrameBody_emits sws_scale h
      rw [hbody]
      exact .ret hturns rfl h
  | prepareAllFrames =>
    rw [body]
    rcases lt_or_ge time 0 with hneg | h0
    · obtain ⟨hbody, hturns⟩ := prepareAllFramesBody_of_neg sws_scale hneg
      rw [hbody]
      exact .leave hturns rfl hneg
    · obtain ⟨s', hbody, hturns⟩ := prepareAllFramesBody_of_nonneg sws_scale h0
      rw [hbody]
      exact .next hturns
  | prepareFrames desired =>
    obtain ⟨s', hbody, hturns⟩ := prepareFramesBody_eq desired sws_scale hcurrent
    rw [body, hbody]
    exact .next hturns

/-! ### One answer of the decoder -/

/-- The loop when its body runs. -/
def atBody (s : DecodeLoop) (data : Option Nat) (timestamp : Int) (buffers : Nat → List UInt8) :
    DecodeLoop :=
  (s.receiveFrame data timestamp buffers).setTime (timestamp * s.videoStream.primaryStreamTimeBase)

@[simp] lemma atBody_videoStream (data : Option Nat) (timestamp : Int)
    (buffers : Nat → List UInt8) : (s.atBody data timestamp buffers).videoStream = s.videoStream :=
  rfl

/-- What a loop does when the decoder returned. -/
inductive Receives (f : DecodeFunction) (s : DecodeLoop) (data : Option Nat) (timestamp : Int)
    (buffers : Nat → List UInt8) (sws_scale : Option (List UInt8 → List UInt8)) : DecodeLoop → Prop
  /-- Without a picture the search goes on. -/
  | quiet (noPicture : data = none) (reading : s.endOfStream = false) :
    Receives f s data timestamp buffers sws_scale (s.receiveFrame data timestamp buffers).search
  | goesOn {s₁ : DecodeLoop} (again : s.endOfStream = false ∨ data.isSome)
    (round : data.isSome ∨ s.endOfStream = true)
    (turns : Turns f (timestamp * s.videoStream.primaryStreamTimeBase) sws_scale
      (s.atBody data timestamp buffers) s₁) :
    Receives f s data timestamp buffers sws_scale s₁.search
  | leaves {s₁ s' : DecodeLoop} (round : data.isSome ∨ s.endOfStream = true)
    (turns : Turns f (timestamp * s.videoStream.primaryStreamTimeBase) sws_scale
      (s.atBody data timestamp buffers) s₁)
    (left : s₁.leave f = .ok s') : Receives f s data timestamp buffers sws_scale s'
  | returns {s₁ : DecodeLoop} {staging : Staging} (round : data.isSome ∨ s.endOfStream = true)
    (turns : Turns f (timestamp * s.videoStream.primaryStreamTimeBase) sws_scale
      (s.atBody data timestamp buffers) s₁) (function : f = .pickBestFrame) :
    Receives f s data timestamp buffers sws_scale
      (s₁.ret (.frame ((s.atBody data timestamp buffers).frameOf sws_scale staging)))

variable {data : Option Nat} {timestamp : Int} {buffers : Nat → List UInt8}

/-- The body runs if there is a picture, or none will come. -/
lemma receivePicture_eq (h : data.isSome ∨ s.endOfStream = true) :
    (s.receiveFrame data timestamp buffers).receivePicture f data.isSome sws_scale =
      match (s.atBody data timestamp buffers).body
        (timestamp * s.videoStream.primaryStreamTimeBase) sws_scale f with
      | .next s => s.loop f data.isSome
      | .leave s => s.leave f
      | .ret s result => .ok (s.ret result) := by
  have hbody : ¬ (!data.isSome && !s.endOfStream) = true := by
    rcases h with hdata | heos
    · simp [hdata]
    · simp [heos]
  exact if_neg hbody

lemma receives_of_receivePicture
    (h : (s.receiveFrame data timestamp buffers).receivePicture f data.isSome sws_scale = .ok s') :
    Receives f s data timestamp buffers sws_scale s' := by
  by_cases hround : data.isSome ∨ s.endOfStream = true
  · rw [receivePicture_eq hround] at h
    have hends : BodyEnds f (timestamp * s.videoStream.primaryStreamTimeBase) sws_scale
      (s.atBody data timestamp buffers) _ := body_ends f rfl
    generalize (s.atBody data timestamp buffers).body _ sws_scale f = exit at h hends
    cases hends with
    | @next s₁ turns =>
      simp only [loop] at h
      split at h
      · rename_i hagain
        cases h
        refine .goesOn ?_ hround turns
        rw [turns.endOfStream] at hagain
        simpa [atBody, setTime, receiveFrame] using hagain
      · exact .leaves hround turns h
    | leave turns _ _ => exact .leaves hround turns h
    | ret turns function _ =>
      cases h
      exact .returns hround turns function
  · rw [not_or, Bool.not_eq_true, Option.isSome_eq_false_iff, Option.isNone_iff_eq_none,
      Bool.not_eq_true] at hround
    obtain ⟨rfl, heos⟩ := hround
    have hquiet : (s.receiveFrame none timestamp buffers).receivePicture f
        (none : Option Nat).isSome sws_scale =
          .ok (s.receiveFrame none timestamp buffers).search :=
      if_pos (by simp [receiveFrame, heos])
    cases hquiet.symm.trans h
    exact .quiet rfl heos

end DecodeLoop

end GifTools
