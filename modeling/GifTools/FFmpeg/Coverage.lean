import GifTools.FFmpeg.SampledFrames

/-!
# The samples that are covered

`ffmpegVideoStreamPrepareFrames` serves at most one sample for each picture. If the samples are
further apart than the frames of the stream, that is enough: no picture overtakes the sample that
comes next, so the first picture that is less than a frame away from it is not missed.
-/

namespace GifTools

open Runs DecodeLoop

namespace DecodeLoop

variable {s s' : DecodeLoop} {desired time : ℚ} {timestamp : Int} {picture : List UInt8}
  {frames : List FFmpegVideoFrameImpl} {buffer : Nat} {buffers : Nat → List UInt8}
  {scale : List UInt8 → List UInt8}

/-- Where the scaler works no empty handle is added. -/
lemma exists_entries (s : DecodeLoop) (time : ℚ) (scale : List UInt8 → List UInt8)
    (f : DecodeFunction) :
    ∃ more : List FFmpegVideoFrameImpl, s.entries time (some scale) f = more.map some := by
  cases f with
  | pickBestFrame => exact ⟨[], rfl⟩
  | prepareAllFrames =>
    obtain ⟨imageByteBuffer, hframe⟩ := exists_frameOf s scale .current
    rw [entries, hframe]
    split
    · exact ⟨[], rfl⟩
    · exact ⟨[_], rfl⟩
  | prepareFrames desired => exact ⟨_, rfl⟩

/-- The frames prepared so far are still there when the loop returns after the last picture. -/
lemma step_drained_keeps {f : DecodeFunction} (hf : f ≠ .pickBestFrame) (timestamp : Int)
    (buffers : Nat → List UInt8) (scale : List UInt8 → List UInt8) (hs : s.Waits true)
    (hframes : s.videoStream.preparedFrames = frames.map some) :
    ∃ s' more, step f s (.decoded none timestamp buffers (some scale)) = .ok s' ∧
      s'.Prepared (frames ++ more) := by
  obtain ⟨more, hmore⟩ := exists_entries (s.atBody none timestamp buffers)
    (timestamp * s.videoStream.primaryStreamTimeBase) scale f
  obtain ⟨s', hstep, hprepared⟩ := step_drained (frames ++ more) hf timestamp buffers scale hs
    (by rw [hmore, hframes, List.map_append])
  exact ⟨s', more, hstep, hprepared⟩

lemma Prepared.mem {frame : FFmpegVideoFrameImpl} (h : s.Prepared frames)
    (hframe : frame ∈ frames) : some frame ∈ s.videoStream.preparedFrames := by
  obtain ⟨-, sorted, ⟨hsorted, -⟩, hperm⟩ := h
  rw [hsorted]
  exact List.mem_map_of_mem (hperm.mem_iff.mpr hframe)

/-! ### All pictures -/

/-- The timestamps start in the first frame, never decrease, and leave no gap of more than a
frame. -/
structure Gapless (frameDurationSeconds : ℚ) (times : List ℚ) : Prop where
  first : ∀ t ∈ times.head?, 0 ≤ t ∧ t < frameDurationSeconds
  gaps : times.IsChain fun earlier later => earlier ≤ later ∧ later - earlier ≤ frameDurationSeconds

lemma Gapless.nonneg {frameDurationSeconds t : ℚ} {times : List ℚ}
    (h : Gapless frameDurationSeconds times) (ht : t ∈ times) : 0 ≤ t := by
  cases times with
  | nil => cases ht
  | cons first rest =>
    have hsorted : (first :: rest).Pairwise (· ≤ ·) :=
      List.isChain_iff_pairwise.mp (h.gaps.imp fun _ _ hle => hle.1)
    rcases List.mem_cons.mp ht with rfl | ht
    · exact (h.first t rfl).1
    · exact (h.first first rfl).1.trans (List.rel_of_pairwise_cons hsorted ht)

/-- The samples before number `m` are covered, and no picture has overtaken sample `m`. -/
structure Covering (videoStream : FFmpegVideoStreamImpl) (desired : ℚ) (times : List ℚ)
    (done rest : List (ℚ × List UInt8)) (s : DecodeLoop) (frames : List FFmpegVideoFrameImpl)
    (m : Nat) : Prop where
  sameStream : s.videoStream = { videoStream with preparedFrames := frames.map some }
  all : done.map Prod.fst ++ rest.map Prod.fst = times
  sampleTime : s.sampleTime = m * desired
  notStarted : done = [] → m = 0
  notOvertaken : ∀ p ∈ done.getLast?, p.1 < m * desired
  covered : ∀ k < m, ∃ frame ∈ frames,
    |frame.timeSecondsEst - k * desired| < videoStream.frameDurationSeconds

section

variable {videoStream : FFmpegVideoStreamImpl} {times : List ℚ}
  {done rest : List (ℚ × List UInt8)} {m : Nat}

lemma Covering.of_sameChoice (h : Covering videoStream desired times done rest s frames m)
    (hsame : SameChoice s s') : Covering videoStream desired times done rest s' frames m := by
  refine ⟨?_, h.all, ?_, h.notStarted, h.notOvertaken, h.covered⟩
  · rw [hsame.videoStream, h.sameStream]
  · rw [hsame.sampleTime, h.sampleTime]

/-- The next picture is less than a frame behind the sample. -/
lemma Covering.lt_add
    (h : Covering videoStream desired times done ((time, picture) :: rest) s frames m)
    (hgapless : Gapless videoStream.frameDurationSeconds times) :
    time < m * desired + videoStream.frameDurationSeconds := by
  obtain ⟨hfirst, hgaps⟩ := hgapless
  rw [← h.all, List.map_cons] at hfirst hgaps
  rcases List.eq_nil_or_concat done with rfl | ⟨passed, last, rfl⟩
  · rw [h.notStarted rfl]
    have := (hfirst time rfl).2
    simpa using this
  · have hlt := h.notOvertaken last (by simp)
    have hgap := ((List.isChain_append.mp hgaps).2.2 last.1 (by simp) time rfl).2
    linarith

/-- A picture serves the sample, or comes before it by a frame at least. -/
lemma Covering.step_picture
    (h : Covering videoStream desired times done ((time, picture) :: rest) s frames m)
    (hdecode : s.request = .decode)
    (hpicture : picture = (s.codec.decode (some buffer) buffers).buffers buffer)
    (htime : timestamp * videoStream.primaryStreamTimeBase = time)
    (hgapless : Gapless videoStream.frameDurationSeconds times)
    (hduration : 0 < videoStream.frameDurationSeconds)
    (hdesired : videoStream.frameDurationSeconds < desired) (scale : List UInt8 → List UInt8) :
    ∃ s' frames' m', step (.prepareFrames desired) s
        (.decoded (some buffer) timestamp buffers (some scale)) = .ok s' ∧
      s'.codec = s.codec.decode (some buffer) buffers ∧ s'.Waits s.endOfStream ∧
      Covering videoStream desired times (done ++ [(time, picture)]) rest s' frames' m' := by
  have hlt := h.lt_add hgapless
  have h0 : 0 ≤ time := hgapless.nonneg (by rw [← h.all]; simp)
  have htime' : timestamp * s.videoStream.primaryStreamTimeBase = time := by
    rw [h.sameStream, htime]
  have hsameDuration : s.videoStream.frameDurationSeconds = videoStream.frameDurationSeconds := by
    rw [h.sameStream]
  obtain ⟨s₁, turns, hstep, hcodec, hwaits⟩ :=
    step_prepareFrames desired buffer timestamp buffers scale hdecode
  rw [htime'] at turns
  have hsample : s₁.search.sampleTime = (s.sampler.next videoStream.frameDurationSeconds desired
      time).sampleTime := by
    rw [← hsameDuration]
    exact (congrArg Sampler.sampleTime (search_sampler s₁)).trans
      (congrArg Sampler.sampleTime (turns.samples desired rfl))
  have hadded : ∀ more, (s.atBody (some buffer) timestamp buffers).entries time (some scale)
      (.prepareFrames desired) = more.map some → s₁.search.videoStream =
        { videoStream with preparedFrames := (frames ++ more).map some } := by
    intro more hmore
    rw [search_videoStream, turns.videoStream, hmore, atBody_videoStream, h.sameStream,
      List.map_append]
  have hall : (done ++ [(time, picture)]).map Prod.fst ++ rest.map Prod.fst = times := by
    rw [← h.all]
    simp
  have hbranch : s.branch time = s.sampler.branch videoStream.frameDurationSeconds time := by
    rw [← hsameDuration]
    rfl
  have hbody : (s.atBody (some buffer) timestamp buffers).branch time = s.branch time := rfl
  obtain ⟨hgood, hdiff⟩ | ⟨hfar, ⟨-, hneg⟩ | ⟨-, -, hafter, -⟩ | ⟨-, -, hafter, -⟩ |
    ⟨hnext, -, -⟩⟩ := Branch.of_cases s.videoStream.frameDurationSeconds s.sampleTime
      s.prevFrame.timeSecondsEst time
  · -- the sample is served
    rw [hsameDuration, h.sampleTime] at hdiff
    have hgood' : s.branch time = .currentGood := hgood
    have hentries : (s.atBody (some buffer) timestamp buffers).entries time (some scale)
        (.prepareFrames desired) =
          [s.videoStream.frameOfPicture scale (time, picture)].map some := by
      rw [entries, hbody, hgood', Branch.emits, Option.bind_some, frameOf_current, htime',
        ← hpicture]
      rfl
    refine ⟨_, _, m + 1, hstep, hcodec, hwaits, hadded _ hentries, hall, ?_, by simp, ?_, ?_⟩
    · rw [hsample, Sampler.next, ← hbranch, hgood']
      simp [sampler, h.sampleTime, add_mul]
    · simp only [List.getLast?_append, List.getLast?_singleton, Option.some_or, Option.mem_some_iff,
        forall_eq']
      push_cast
      linarith
    · intro k hk
      rcases Nat.lt_succ_iff_lt_or_eq.mp hk with hk | rfl
      · obtain ⟨frame, hframe, hnear⟩ := h.covered k hk
        exact ⟨frame, List.mem_append_left _ hframe, hnear⟩
      · exact ⟨_, List.mem_append_right _ (List.mem_singleton_self _), hdiff⟩
  · exact absurd h0 (not_le.mpr hneg)
  · rw [hsameDuration, h.sampleTime] at hfar
    rw [h.sampleTime] at hafter
    rw [abs_of_pos (sub_pos.mpr hafter)] at hfar
    linarith
  · rw [hsameDuration, h.sampleTime] at hfar
    rw [h.sampleTime] at hafter
    rw [abs_of_pos (sub_pos.mpr hafter)] at hfar
    linarith
  · -- the picture is passed over
    rw [hsameDuration, h.sampleTime] at hfar
    have hnext' : s.branch time = .nextFrame := hnext
    have hentries : (s.atBody (some buffer) timestamp buffers).entries time (some scale)
        (.prepareFrames desired) = ([] : List FFmpegVideoFrameImpl).map some := by
      rw [entries, hbody, hnext']
      rfl
    have hstream := hadded [] hentries
    rw [List.append_nil] at hstream
    refine ⟨_, frames, m, hstep, hcodec, hwaits, hstream, hall, ?_, by simp, ?_, h.covered⟩
    · rw [hsample, Sampler.next, ← hbranch, hnext']
      exact h.sampleTime
    · simp only [List.getLast?_append, List.getLast?_singleton, Option.some_or, Option.mem_some_iff,
        forall_eq']
      rcases le_abs.mp hfar with hfar | hfar
      · linarith
      · linarith

end

end DecodeLoop

namespace FFmpegVideoStreamImpl

variable {videoStream : FFmpegVideoStreamImpl} {answers : List Answer} {framesPerSecond : ℚ}
  {scale : List UInt8 → List UInt8}

/-- For every sample that is not behind the last picture, a frame less than a frame away is
prepared. -/
def CoversSamples (videoStream : FFmpegVideoStreamImpl) (framesPerSecond : ℚ)
    (answers : List Answer) : Prop :=
  ∃ pre videoStream' n, pre <+: answers ∧
    videoStream.ffmpegVideoStreamPrepareFrames framesPerSecond true pre =
      .ok (videoStream', .count n) ∧
    ∀ last ∈ (videoStream.times answers).getLast?, ∀ k : Nat, k / framesPerSecond ≤ last →
      ∃ frame, some frame ∈ videoStream'.preparedFrames ∧
        |frame.timeSecondsEst - k / framesPerSecond| < videoStream.frameDurationSeconds

/-- The sampling loop. -/
lemma returnsWith_covering {desired : ℚ}
    (h : WholeStream videoStream.primaryStreamIndex scale answers)
    (hgapless : Gapless videoStream.frameDurationSeconds (videoStream.times answers))
    (hduration : 0 < videoStream.frameDurationSeconds)
    (hdesired : videoStream.frameDurationSeconds < desired) :
    ReturnsWith (.prepareFrames desired) videoStream.primaryStreamTimeBase
      (fun _ s => ∃ n, s.request = .returned (.count n) ∧
        ∀ last ∈ (videoStream.times answers).getLast?, ∀ k : Nat, k * desired ≤ last →
          ∃ frame, some frame ∈ s.videoStream.preparedFrames ∧
            |frame.timeSecondsEst - k * desired| < videoStream.frameDurationSeconds)
      [] (start videoStream.clearPreparedFrames 0) answers := by
  refine PictureRule.returnsWith (I := fun done rest s => ∃ frames m,
    Covering videoStream desired (videoStream.times answers) done rest s frames m)
    ⟨?_, ?_, ?_, ?_⟩ h List.suffix_rfl ?_ ⟨rfl, rfl⟩
  · rintro done rest s ⟨frames, m, hI⟩
    rw [hI.sameStream]
  · rintro done rest s s' ⟨frames, m, hI⟩ hsame
    exact ⟨frames, m, hI.of_sameChoice hsame⟩
  · rintro buffer timestamp buffers done rest s picture hpicture ⟨frames, m, hI⟩ hdecode
    obtain ⟨s', frames', m', hstep, hcodec, hwaits, hI'⟩ :=
      hI.step_picture hdecode hpicture rfl hgapless hduration hdesired scale
    exact ⟨s', hstep, hcodec, .inr ⟨hwaits, frames', m', hI'⟩⟩
  · rintro timestamp buffers done s - ⟨frames, m, hI⟩ hs
    obtain ⟨s', more, hstep, hprepared⟩ := step_drained_keeps (f := .prepareFrames desired)
      (by simp) timestamp buffers scale hs (congrArg preparedFrames hI.sameStream)
    refine ⟨s', hstep, hprepared.returned, _, hprepared.1, ?_⟩
    intro last hlast k hk
    have hall := hI.all
    rw [List.map_nil, List.append_nil] at hall
    rw [← hall, List.getLast?_map] at hlast
    obtain ⟨p, hp, rfl⟩ := Option.map_eq_some_iff.mp hlast
    have hlt : (k : ℚ) * desired < m * desired := hk.trans_lt (hI.notOvertaken p hp)
    have hkm : k < m := by
      exact_mod_cast lt_of_mul_lt_mul_right hlt (hduration.trans hdesired).le
    obtain ⟨frame, hframe, hnear⟩ := hI.covered k hkm
    exact ⟨frame, hprepared.mem (List.mem_append_left more hframe), hnear⟩
  · refine ⟨[], 0, rfl, ?_, ?_, fun _ => rfl, by simp, by simp⟩
    · exact map_fst_picturesFrom _ _ _
    · rw [Nat.cast_zero, zero_mul]
      rfl

/-- The loop that prepares all frames. -/
lemma returnsWith_allFrames (h : WholeStream videoStream.primaryStreamIndex scale answers)
    (h0 : ∀ t ∈ videoStream.times answers, 0 ≤ t) :
    ReturnsWith .prepareAllFrames videoStream.primaryStreamTimeBase
      (fun _ s => ∃ more, s.Prepared
        ((videoStream.pictures answers).map (videoStream.frameOfPicture scale) ++ more))
      [] (start videoStream.clearPreparedFrames 0) answers := by
  rw [times, ← map_fst_picturesFrom _ .flushed, ← pictures] at h0
  refine PictureRule.returnsWith (I := fun done rest s =>
    done ++ rest = videoStream.pictures answers ∧ Keeping videoStream scale done s)
    ⟨?_, ?_, ?_, ?_⟩ h List.suffix_rfl ?_ ⟨rfl, rfl⟩
  · rintro done rest s ⟨-, hI⟩
    rw [hI.sameStream]
  · rintro done rest s s' ⟨hall, hI⟩ hsame
    exact ⟨hall, hI.of_sameChoice hsame⟩
  · rintro buffer timestamp buffers done rest s picture hpicture ⟨hall, hI⟩ hdecode
    have htime : 0 ≤ timestamp * videoStream.primaryStreamTimeBase :=
      h0 _ (by rw [← hall]; simp)
    obtain ⟨s', hstep, hcodec, hwaits, hI'⟩ := hI.step_nonneg hdecode hpicture htime
    exact ⟨s', hstep, hcodec, .inr ⟨hwaits, by simpa using hall, hI'⟩⟩
  · rintro timestamp buffers done s - ⟨hall, hI⟩ hs
    obtain ⟨s', more, hstep, hprepared⟩ := step_drained_keeps (f := .prepareAllFrames)
      (by simp) timestamp buffers scale hs (congrArg preparedFrames hI.sameStream)
    rw [List.append_nil] at hall
    rw [← hall]
    exact ⟨s', hstep, hprepared.returned, more, hprepared⟩
  · exact ⟨rfl, rfl, by simp⟩

/-- The pictures of a stream without gaps cover every time up to the last of them. -/
lemma exists_near_time {x last : ℚ}
    (hgapless : Gapless videoStream.frameDurationSeconds (videoStream.times answers))
    (hduration : 0 < videoStream.frameDurationSeconds)
    (hlast : last ∈ (videoStream.times answers).getLast?) (h0 : 0 ≤ x) (hx : x ≤ last) :
    ∃ t ∈ videoStream.times answers, |t - x| < videoStream.frameDurationSeconds := by
  cases htimes : videoStream.times answers with
  | nil => simp [htimes] at hlast
  | cons first rest =>
    rw [htimes] at hgapless hlast
    rw [List.getLast?_eq_some_getLast (List.cons_ne_nil first rest), Option.mem_some_iff] at hlast
    rcases le_or_gt first x with hle | hlt
    · exact Search.exists_near_of_isChain hduration hgapless.gaps hle (hlast ▸ hx)
    · refine ⟨first, List.mem_cons_self, ?_⟩
      rw [abs_of_pos (sub_pos.mpr hlt)]
      have := (hgapless.first first rfl).2
      linarith

/-- If the samples are further apart than the frames, and the pictures leave no gap of more than a
frame, then every sample up to the last picture is covered. -/
theorem coversSamples (h : WholeStream videoStream.primaryStreamIndex scale answers)
    (hgapless : Gapless videoStream.frameDurationSeconds (videoStream.times answers))
    (hduration : 0 < videoStream.frameDurationSeconds)
    (hrate : videoStream.frameDurationSeconds < 1 / framesPerSecond) :
    videoStream.CoversSamples framesPerSecond answers := by
  have hpos : 0 < framesPerSecond := by
    rw [← one_div_pos]
    exact hduration.trans hrate
  have hcall := fun pre => ffmpegVideoStreamPrepareFrames_eq videoStream framesPerSecond true pre
  simp only [Bool.not_true, Bool.false_eq_true, if_false] at hcall
  have hall : videoStream.prepareFunction framesPerSecond = .prepareAllFrames →
      videoStream.CoversSamples framesPerSecond answers := by
    intro hown
    obtain ⟨pre, s, hpre, hrun, -, more, hprepared⟩ :=
      returnsWith_allFrames h fun t ht => hgapless.nonneg ht
    have hfinish := finish_of_run hrun hprepared.1
    refine ⟨pre, s.videoStream, _, hpre, (hcall pre).trans (hown ▸ hfinish), ?_⟩
    intro last hlast k hk
    obtain ⟨t, ht, hnear⟩ := exists_near_time hgapless hduration hlast
      (div_nonneg (Nat.cast_nonneg k) hpos.le) hk
    rw [times, ← map_fst_picturesFrom _ .flushed, ← pictures] at ht
    obtain ⟨p, hp, rfl⟩ := List.mem_map.mp ht
    exact ⟨_, hprepared.mem (List.mem_append_left more (List.mem_map_of_mem hp)), hnear⟩
  by_cases hslow : framesPerSecond ≤ 1 / 10000
  · exact hall (if_pos hslow)
  by_cases hfast : videoStream.reachesMaxFramesPerSecond framesPerSecond = true
  · exact hall ((if_neg hslow).trans (if_pos hfast))
  · have hown : videoStream.prepareFunction framesPerSecond =
        .prepareFrames (1 / framesPerSecond) := (if_neg hslow).trans (if_neg hfast)
    obtain ⟨pre, s, hpre, hrun, -, n, hreturned, hcovers⟩ :=
      returnsWith_covering h hgapless hduration hrate
    refine ⟨pre, s.videoStream, n, hpre, ?_, ?_⟩
    · rw [hcall, hown]
      exact finish_of_run hrun hreturned
    · intro last hlast k hk
      rw [← mul_one_div] at hk ⊢
      exact hcovers last hlast k hk

/-- Pictures at 5 and 15 seconds, where a frame lasts 10 seconds. -/
def twoPictures : List Answer :=
  [.packet ⟨0, [7]⟩, .decoded (some 0) 5 (fun _ => [1, 1, 1, 255]) (some id), .packet ⟨0, [8]⟩,
    .decoded (some 1) 15 (fun _ => [2, 2, 2, 255]) (some id), .endOfFile,
    .decoded none AV_NOPTS_VALUE (fun _ => []) (some id)]

theorem coversSamples_twoPictures : opened.CoversSamples (1 / 11) twoPictures := by
  have htimes : opened.times twoPictures = [5, 15] := by
    norm_num [times, twoPictures, Answer.time, List.filterMap, opened]
  have hwhole : WholeStream opened.primaryStreamIndex id twoPictures :=
    .decoded rfl (.decoded rfl (.endOfFile (.drained AV_NOPTS_VALUE fun _ => [])))
  refine coversSamples hwhole ⟨?_, ?_⟩ ?_ ?_
  · rw [htimes]
    norm_num [opened]
  · rw [htimes]
    norm_num [opened]
  · norm_num [opened]
  · norm_num [opened]

end FFmpegVideoStreamImpl

end GifTools
