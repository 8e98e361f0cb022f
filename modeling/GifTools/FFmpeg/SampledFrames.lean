import GifTools.FFmpeg.AllFrames

/-!
# The frames of a sampling loop

The loop of `ffmpegVideoStreamPrepareFrames` takes the previous staging frame when it is closer to
the sample, and at the end of the stream. That frame holds the picture before, which was not taken
yet, unless the current frame was taken for the sample before: if it was good, the staging frames
were not swapped, and the previous one was never decoded into or its picture has expired; if it was
closer, the previous frame holds the picture that was taken.
-/

namespace GifTools

open Runs DecodeLoop

/-! ### Branches -/

namespace Branch

/-- If the previous staging frame is taken, the branch before has kept a picture there. -/
def Follows (branch next : Branch) : Prop := next.emits = some .previous → branch.Keeps

instance (branch next : Branch) : Decidable (branch.Follows next) :=
  inferInstanceAs (Decidable (_ → _))

/-- The previous staging frame is only taken where a picture was kept there, and the current one is
not taken in the end. -/
def TakesKept (branches : List Branch) : Prop :=
  (currentGood :: branches).IsChain Follows ∧ currentGood ∉ branches.getLast?

instance (branches : List Branch) : Decidable (TakesKept branches) :=
  inferInstanceAs (Decidable (_ ∧ _))

end Branch

/-- The call after the last picture reports no timestamp. -/
def NoptsWithoutPicture (answers : List Answer) : Prop :=
  ∀ timestamp buffers sws_scale,
    .decoded none timestamp buffers sws_scale ∈ answers.getLast? → timestamp = AV_NOPTS_VALUE

namespace FFmpegVideoStreamImpl

variable (videoStream : FFmpegVideoStreamImpl)

/-- The time that is reported without a picture. -/
def noptsTime : ℚ := AV_NOPTS_VALUE * videoStream.primaryStreamTimeBase

def timesOf (timestamps : List Int) : List ℚ :=
  timestamps.map fun timestamp : Int => timestamp * videoStream.primaryStreamTimeBase

/-- The branches a loop takes that samples pictures with these times, and the branch for the call
after the last picture. -/
def branches (desiredFrameTimeSeconds : ℚ) (times : List ℚ) : List Branch :=
  Sampler.start.branches videoStream.frameDurationSeconds desiredFrameTimeSeconds
    (times ++ [videoStream.noptsTime])

end FFmpegVideoStreamImpl

namespace DecodeLoop

variable {s s' s₁ : DecodeLoop} {data : Option Nat} {timestamp : Int} {buffers : Nat → List UInt8}
  {scale : List UInt8 → List UInt8} {time desired : ℚ} {picture : List UInt8} {buffer : Nat}
  {videoStream : FFmpegVideoStreamImpl} {branch : Branch} {frames : List FFmpegVideoFrameImpl}
  {done pics : List (ℚ × List UInt8)}

/-! ### One answer -/

/-- The loop goes on after a picture. -/
lemma step_prepareFrames (desired : ℚ) (buffer : Nat) (timestamp : Int)
    (buffers : Nat → List UInt8) (scale : List UInt8 → List UInt8) (hdecode : s.request = .decode) :
    ∃ s₁, Turns (.prepareFrames desired) (timestamp * s.videoStream.primaryStreamTimeBase)
        (some scale) (s.atBody (some buffer) timestamp buffers) s₁ ∧
      step (.prepareFrames desired) s (.decoded (some buffer) timestamp buffers (some scale)) =
        .ok s₁.search ∧
      s₁.search.codec = s.codec.decode (some buffer) buffers ∧ s₁.search.Waits s.endOfStream := by
  obtain ⟨s₁, hbody, turns⟩ := prepareFramesBody_eq
    (s := s.atBody (some buffer) timestamp buffers) desired (some scale) rfl
  exact ⟨s₁, turns, step_next (f := .prepareFrames desired) hdecode hbody turns⟩

/-- What is known between two answers after a branch: the frames are made of different pictures, and
a picture that was kept in the previous staging frame is not among them. -/
structure Sampling (videoStream : FFmpegVideoStreamImpl) (scale : List UInt8 → List UInt8)
    (branch : Branch) (frames : List FFmpegVideoFrameImpl) (done : List (ℚ × List UInt8))
    (s : DecodeLoop) : Prop where
  sameStream : s.videoStream = { videoStream with preparedFrames := frames.map some }
  subperm : frames.Subperm (done.map (videoStream.frameOfPicture scale))
  kept : branch.Keeps → ∃ before picture, done = before ++ [picture] ∧
    frames.Subperm (before.map (videoStream.frameOfPicture scale)) ∧
    s.prevFrame.timeSecondsEst = picture.1 ∧ s.prevFrame.HoldsLast s.codec picture.2

lemma Sampling.of_sameChoice (h : Sampling videoStream scale branch frames done s)
    (hsame : SameChoice s s') : Sampling videoStream scale branch frames done s' := by
  refine ⟨hsame.videoStream.trans h.sameStream, h.subperm, fun hkeeps => ?_⟩
  obtain ⟨before, picture, hdone, hsubperm, htime, hlast⟩ := h.kept hkeeps
  rw [hsame.prevFrame]
  exact ⟨before, picture, hdone, hsubperm, htime, hlast.keepsLast hsame.codec⟩

lemma Sampling.frameOfPicture_eq (h : Sampling videoStream scale branch frames done s) :
    s.videoStream.frameOfPicture scale = videoStream.frameOfPicture scale := by
  rw [h.sameStream]
  rfl

/-- A previous frame that is taken is made of a picture that was not taken before. -/
lemma Sampling.previous (h : Sampling videoStream scale branch frames done s)
    (hkeeps : branch.Keeps) (data : Option Nat) (timestamp : Int) (buffers : Nat → List UInt8) :
    ∃ frame, (s.atBody data timestamp buffers).frameOf (some scale) .previous = some frame ∧
      (frames ++ [frame]).Subperm (done.map (videoStream.frameOfPicture scale)) := by
  obtain ⟨before, picture, rfl, hsubperm, htime, hlast⟩ := h.kept hkeeps
  refine ⟨_, frameOf_previous hlast data timestamp buffers scale, ?_⟩
  rw [h.frameOfPicture_eq, htime, List.map_append]
  exact (List.subperm_append_right _).mpr hsubperm

/-- The frames with the one a body adds. -/
lemma Sampling.entries (h : Sampling videoStream scale branch frames done s)
    (desired : ℚ) (htime : timestamp * s.videoStream.primaryStreamTimeBase = time)
    (hfollows : branch.Follows (s.branch time)) (buffer : Nat) (buffers : Nat → List UInt8) :
    ∃ frames', s.videoStream.preparedFrames ++ (s.atBody (some buffer) timestamp buffers).entries
        time (some scale) (.prepareFrames desired) = frames'.map some ∧
      ((s.branch time).emits = some .current → frames' = frames ++ [videoStream.frameOfPicture
        scale (time, (s.codec.decode (some buffer) buffers).buffers buffer)]) ∧
      ((s.branch time).Keeps → frames'.Subperm (done.map (videoStream.frameOfPicture scale))) := by
  have hframes : s.videoStream.preparedFrames = frames.map some := by rw [h.sameStream]
  have hbranch : (s.atBody (some buffer) timestamp buffers).branch time = s.branch time := rfl
  rw [DecodeLoop.entries, hbranch, hframes]
  cases hemits : (s.branch time).emits with
  | none => exact ⟨frames, by simp, by simp, fun _ => h.subperm⟩
  | some staging =>
    cases staging with
    | current =>
      refine ⟨_, ?_, fun _ => rfl, fun hkeeps => absurd hemits hkeeps⟩
      rw [Option.bind_some, frameOf_current, htime, h.frameOfPicture_eq, List.map_append]
      rfl
    | previous =>
      obtain ⟨frame, hframe, hsubperm⟩ :=
        h.previous (hfollows hemits) (some buffer) timestamp buffers
      refine ⟨frames ++ [frame], ?_, by simp, fun _ => hsubperm⟩
      rw [Option.bind_some, hframe, List.map_append]
      rfl

/-- A picture after which nothing is taken twice. -/
lemma Sampling.step_picture (h : Sampling videoStream scale branch frames done s)
    (hdecode : s.request = .decode)
    (hpicture : picture = (s.codec.decode (some buffer) buffers).buffers buffer)
    (htime : timestamp * videoStream.primaryStreamTimeBase = time)
    (hfollows : branch.Follows (s.sampler.branch videoStream.frameDurationSeconds time))
    (desired : ℚ) : ∃ s' frames', step (.prepareFrames desired) s
        (.decoded (some buffer) timestamp buffers (some scale)) = .ok s' ∧
      s'.codec = s.codec.decode (some buffer) buffers ∧ s'.Waits s.endOfStream ∧
      s'.sampler = s.sampler.next videoStream.frameDurationSeconds desired time ∧
      Sampling videoStream scale (s.sampler.branch videoStream.frameDurationSeconds time) frames'
        (done ++ [(time, picture)]) s' := by
  subst hpicture
  have htime' : timestamp * s.videoStream.primaryStreamTimeBase = time := by
    rw [h.sameStream, htime]
  have hbranch : s.sampler.branch videoStream.frameDurationSeconds time = s.branch time := by
    rw [DecodeLoop.branch, h.sameStream]
    rfl
  obtain ⟨s₁, turns, hstep, hcodec, hwaits⟩ :=
    step_prepareFrames desired buffer timestamp buffers scale hdecode
  rw [htime'] at turns
  rw [hbranch] at hfollows ⊢
  have hsampler := turns.samples desired rfl
  have hkept : (s.branch time).Keeps → s₁.search.prevFrame.timeSecondsEst = time ∧
      s₁.search.prevFrame.HoldsLast s₁.search.codec
        ((s.codec.decode (some buffer) buffers).buffers buffer) := by
    intro hkeeps
    have hswaps : (s.atBody (some buffer) timestamp buffers).Swaps time
        (.prepareFrames desired) := fun hgood => hkeeps (congrArg Branch.emits hgood)
    rw [search_prevFrame, search_codec]
    refine ⟨?_, turns.holdsLast hswaps⟩
    rw [(turns.swapped hswaps).1.timeSecondsEst]
    exact htime'
  have hweaken {frames : List FFmpegVideoFrameImpl} (hsubperm :
      frames.Subperm (done.map (videoStream.frameOfPicture scale))) : frames.Subperm
        ((done ++ [(time, (s.codec.decode (some buffer) buffers).buffers buffer)]).map
          (videoStream.frameOfPicture scale)) := by
    rw [List.map_append]
    exact hsubperm.trans (List.sublist_append_left _ _).subperm
  obtain ⟨frames', hframes, hcurrent, hkeeps⟩ :=
    h.entries desired htime' hfollows buffer buffers
  refine ⟨_, frames', hstep, hcodec, hwaits, ?_, ⟨?_, ?_, ?_⟩⟩
  · rw [search_sampler, hsampler, atBody_videoStream, h.sameStream]
    rfl
  · rw [search_videoStream, turns.videoStream, atBody_videoStream, hframes, h.sameStream]
  · by_cases hemits : (s.branch time).emits = some .current
    · rw [hcurrent hemits, List.map_append]
      exact (List.subperm_append_right _).mpr h.subperm
    · exact hweaken (hkeeps hemits)
  · intro hb
    obtain ⟨hprevTime, hlast⟩ := hkept hb
    exact ⟨done, _, rfl, hkeeps hb, hprevTime, hlast⟩

/-- The previous frame that is taken in the end. -/
lemma Sampling.step_drained (h : Sampling videoStream scale branch frames done s)
    (hs : s.Waits true) (hneg : videoStream.noptsTime < 0)
    (hfollows : branch.Follows
      (s.sampler.branch videoStream.frameDurationSeconds videoStream.noptsTime))
    (hgood : s.sampler.branch videoStream.frameDurationSeconds videoStream.noptsTime ≠
      .currentGood) (desired : ℚ) (buffers : Nat → List UInt8) :
    ∃ s' frames', step (.prepareFrames desired) s
        (.decoded none AV_NOPTS_VALUE buffers (some scale)) = .ok s' ∧ s'.Prepared frames' ∧
      frames'.Subperm (done.map (videoStream.frameOfPicture scale)) := by
  have honly : s.sampler.branch videoStream.frameDurationSeconds videoStream.noptsTime =
      .previousOnly := (Branch.of_neg hneg).resolve_left hgood
  rw [honly] at hfollows
  obtain ⟨frame, hframe, hsubperm⟩ := h.previous (hfollows rfl) none AV_NOPTS_VALUE buffers
  have hbranch : (s.atBody none AV_NOPTS_VALUE buffers).branch
      (AV_NOPTS_VALUE * s.videoStream.primaryStreamTimeBase) = .previousOnly := by
    rw [← honly, FFmpegVideoStreamImpl.noptsTime, DecodeLoop.branch, atBody_videoStream,
      h.sameStream]
    rfl
  obtain ⟨s', hstep, hprepared⟩ := DecodeLoop.step_drained (f := .prepareFrames desired)
    (frames ++ [frame]) (by simp) AV_NOPTS_VALUE buffers scale hs (by
      rw [DecodeLoop.entries, hbranch, Branch.emits, Option.bind_some, hframe, List.map_append,
        h.sameStream]
      rfl)
  exact ⟨s', _, hstep, hprepared, hsubperm⟩

end DecodeLoop

/-! ### Whole calls -/

namespace FFmpegVideoStreamImpl

variable (videoStream : FFmpegVideoStreamImpl)

/-- The call prepares pictures that were delivered to it, with their times, and none of them
twice. -/
def PreparesDelivered (scale : List UInt8 → List UInt8) (framesPerSecond : ℚ)
    (answers : List Answer) : Prop :=
  ∃ (pre : List Answer) (videoStream' : FFmpegVideoStreamImpl) (frames : List FFmpegVideoFrameImpl),
    pre <+: answers ∧ videoStream.ffmpegVideoStreamPrepareFrames framesPerSecond true pre =
      .ok (videoStream', .count frames.length) ∧
    videoStream'.preparedFrames = frames.map some ∧
    frames.Subperm ((videoStream.pictures pre).map (videoStream.frameOfPicture scale))

variable {videoStream} {answers : List Answer} {scale : List UInt8 → List UInt8} {desired : ℚ}

lemma returnsWith_delivered (h : WholeStream videoStream.primaryStreamIndex scale answers)
    (hnopts : NoptsWithoutPicture answers)
    (hbase : 0 < videoStream.primaryStreamTimeBase)
    (htakes : Branch.TakesKept (videoStream.branches desired (videoStream.times answers))) :
    ReturnsWith (.prepareFrames desired) videoStream.primaryStreamTimeBase
      (fun done s => ∃ frames, s.Prepared frames ∧
        frames.Subperm (done.map (videoStream.frameOfPicture scale)))
      [] (start videoStream.clearPreparedFrames 0) answers := by
  refine PictureRule.returnsWith (I := fun done pics s =>
    ∃ branch frames, Sampling videoStream scale branch frames done s ∧
      (branch :: s.sampler.branches videoStream.frameDurationSeconds desired
        (pics.map Prod.fst ++ [videoStream.noptsTime])).IsChain Branch.Follows ∧
      Branch.currentGood ∉ (s.sampler.branches videoStream.frameDurationSeconds desired
        (pics.map Prod.fst ++ [videoStream.noptsTime])).getLast?)
    ⟨?_, ?_, ?_, ?_⟩ h List.suffix_rfl ?_ ⟨rfl, rfl⟩
  · rintro done pics s ⟨branch, frames, hI, -⟩
    rw [hI.sameStream]
  · rintro done pics s s' ⟨branch, frames, hI, hchain, hgood⟩ hsame
    refine ⟨branch, frames, hI.of_sameChoice hsame, ?_⟩
    rw [sampler, hsame.sampleTime, hsame.prevFrame]
    exact ⟨hchain, hgood⟩
  · rintro buffer timestamp buffers done pics s picture hpicture
      ⟨branch, frames, hI, hchain, hgood⟩ hdecode
    rw [List.map_cons, List.cons_append, Sampler.branches, List.isChain_cons_cons] at hchain
    rw [List.map_cons, List.cons_append, Sampler.branches, Sampler.getLast?_cons_branches] at hgood
    obtain ⟨s', frames', hstep, hcodec, hwaits, hsampler, hI'⟩ :=
      hI.step_picture hdecode hpicture rfl hchain.1 desired
    refine ⟨s', hstep, hcodec, .inr ⟨hwaits, _, frames', hI', ?_⟩⟩
    rw [hsampler]
    exact ⟨hchain.2, hgood⟩
  · rintro timestamp buffers done s hlast ⟨branch, frames, hI, hchain, hgood⟩ hs
    obtain rfl := hnopts timestamp buffers (some scale) hlast
    have hneg : videoStream.noptsTime < 0 :=
      mul_neg_of_neg_of_pos (by norm_num [AV_NOPTS_VALUE]) hbase
    rw [List.map_nil, List.nil_append, Sampler.branches, List.isChain_cons_cons] at hchain
    obtain ⟨s', frames', hstep, hprepared, hsubperm⟩ :=
      hI.step_drained hs hneg hchain.1 (fun heq => hgood (by rw [← heq]; rfl)) desired buffers
    exact ⟨s', hstep, hprepared.returned, frames', hprepared, hsubperm⟩
  · refine ⟨.currentGood, [], ⟨rfl, List.nil_subperm, fun hkeeps => absurd rfl hkeeps⟩, ?_⟩
    rw [map_fst_picturesFrom]
    exact htakes

end FFmpegVideoStreamImpl

end GifTools
