import GifTools.FFmpeg.Pictures
import Mathlib.Tactic.Linarith

/-!
# The frame that is decoded for a time

`ffmpegVideoStreamPickBestFrame` decodes until a picture is less than a frame away from the sample
time, or behind it. In the second case it compares the picture with the one before, and if there was
none, with a staging frame that was never decoded into and has the time 0.
-/

namespace GifTools

open Runs DecodeLoop

/-- The time is less than a frame away from the sample time, or no other is nearer. -/
def InReachOrNearest (times : List ℚ) (sampleTime frameDurationSeconds time : ℚ) : Prop :=
  |time - sampleTime| < frameDurationSeconds ∨
    ∀ t ∈ times, |time - sampleTime| ≤ |t - sampleTime|

namespace DecodeLoop

variable {s s' : DecodeLoop} {data : Option Nat} {timestamp : Int} {buffers : Nat → List UInt8}
  {scale : List UInt8 → List UInt8} {time : ℚ} {picture : List UInt8} {buffer : Nat}

/-! ### One answer -/

/-- A body that emits a staging frame returns it. -/
lemma step_pickBestFrame_emits {staging : Staging} (data : Option Nat)
    (buffers : Nat → List UInt8) (scale : List UInt8 → List UInt8) (hdecode : s.request = .decode)
    (hround : data.isSome ∨ s.endOfStream = true)
    (hemits : (s.branch (timestamp * s.videoStream.primaryStreamTimeBase)).emits = some staging) :
    ∃ s', step .pickBestFrame s (.decoded data timestamp buffers (some scale)) = .ok s' ∧
      s'.codec = s.codec.decode data buffers ∧ s'.request =
        .returned (.frame ((s.atBody data timestamp buffers).frameOf (some scale) staging)) := by
  obtain ⟨s₁, hbody, turns⟩ := pickBestFrameBody_emits (some scale)
    (s := s.atBody data timestamp buffers) hemits
  refine ⟨s₁.ret (.frame ((s.atBody data timestamp buffers).frameOf (some scale) staging)), ?_,
    turns.codec, rfl⟩
  rw [step_body hdecode hround, body, hbody]

/-- A picture that is passed over is kept in the previous staging frame. -/
lemma step_pickBestFrame_nextFrame (buffer : Nat) (buffers : Nat → List UInt8)
    (scale : List UInt8 → List UInt8) (hdecode : s.request = .decode)
    (hbranch : s.branch (timestamp * s.videoStream.primaryStreamTimeBase) = .nextFrame) :
    ∃ s', step .pickBestFrame s (.decoded (some buffer) timestamp buffers (some scale)) = .ok s' ∧
      s'.codec = s.codec.decode (some buffer) buffers ∧ s'.Waits s.endOfStream ∧
      s'.videoStream = s.videoStream ∧ s'.sampleTime = s.sampleTime ∧
      s'.prevFrame.timeSecondsEst = timestamp * s.videoStream.primaryStreamTimeBase ∧
      s'.prevFrame.HoldsLast s'.codec ((s.codec.decode (some buffer) buffers).buffers buffer) := by
  obtain ⟨hbody, turns⟩ := pickBestFrameBody_nextFrame (some scale)
    (s := s.atBody (some buffer) timestamp buffers) hbranch
  obtain ⟨hstep, hcodec, hwaits⟩ := step_next (f := .pickBestFrame) hdecode hbody turns
  refine ⟨_, hstep, hcodec, hwaits, search_videoStream _,
    congrArg Sampler.sampleTime (search_sampler _),
    congrArg Sampler.prevTime (search_sampler _), ?_⟩
  rw [search_codec, search_prevFrame]
  exact turns.holdsLast hbranch

/-! ### All pictures -/

/-- The loop has passed over all pictures so far, and keeps the last of them. -/
structure Searching (videoStream : FFmpegVideoStreamImpl) (sampleTime : ℚ) (times : List ℚ)
    (done pics : List (ℚ × List UInt8)) (s : DecodeLoop) : Prop where
  sameStream : s.videoStream = videoStream
  sameTime : s.sampleTime = sampleTime
  all : done.map Prod.fst ++ pics.map Prod.fst = times
  before : ∀ t ∈ done.map Prod.fst, t + videoStream.frameDurationSeconds ≤ sampleTime
  prev : (done = [] ∧ s.prevFrame.timeSecondsEst = 0) ∨
    ∃ passed last, done = passed ++ [last] ∧ s.prevFrame.timeSecondsEst = last.1 ∧
      s.prevFrame.HoldsLast s.codec last.2

/-- The loop returns the frame of a picture that was delivered, in reach or nearest. -/
def Finds (videoStream : FFmpegVideoStreamImpl) (scale : List UInt8 → List UInt8) (sampleTime : ℚ)
    (times : List ℚ) (done : List (ℚ × List UInt8)) (s : DecodeLoop) : Prop :=
  ∃ picture ∈ done,
    s.request = .returned (.frame (some (videoStream.frameOfPicture scale picture))) ∧
      InReachOrNearest times sampleTime videoStream.frameDurationSeconds picture.1

section

variable {videoStream : FFmpegVideoStreamImpl} {sampleTime : ℚ} {times : List ℚ}
  {done pics : List (ℚ × List UInt8)}

lemma searching_start (videoStream : FFmpegVideoStreamImpl) (sampleTime : ℚ)
    (pics : List (ℚ × List UInt8)) :
    Searching videoStream sampleTime (pics.map Prod.fst) [] pics (start videoStream sampleTime) :=
  ⟨rfl, rfl, rfl, by simp, .inl ⟨rfl, rfl⟩⟩

lemma Searching.of_sameChoice (h : Searching videoStream sampleTime times done pics s)
    (hsame : SameChoice s s') : Searching videoStream sampleTime times done pics s' := by
  refine ⟨?_, ?_, h.all, h.before, ?_⟩
  · rw [hsame.videoStream, h.sameStream]
  · rw [hsame.sampleTime, h.sameTime]
  · rw [hsame.prevFrame]
    refine h.prev.imp_right ?_
    rintro ⟨passed, last, hdone, htime, hlast⟩
    exact ⟨passed, last, hdone, htime, hlast.keepsLast hsame.codec⟩

/-- The last picture that was passed over is nearest among those before the sample time. -/
lemma abs_le_of_passed {passed : List ℚ} {last t : ℚ}
    (hsorted : (passed ++ [last]).Pairwise (· ≤ ·)) (hlast : last ≤ sampleTime)
    (ht : t ∈ passed ++ [last]) : |last - sampleTime| ≤ |t - sampleTime| := by
  have hle : t ≤ last := by
    rcases List.mem_append.mp ht with ht | ht
    · exact (List.pairwise_append.mp hsorted).2.2 t ht last (List.mem_singleton_self _)
    · exact (List.mem_singleton.mp ht).le
  rw [abs_of_nonpos (sub_nonpos.mpr hlast), abs_of_nonpos (sub_nonpos.mpr (hle.trans hlast))]
  linarith

/-- The first picture behind the sample time is nearest among those behind it. -/
lemma abs_le_of_coming {rest : List ℚ} {first t : ℚ}
    (hsorted : (first :: rest).Pairwise (· ≤ ·)) (hfirst : sampleTime ≤ first)
    (ht : t ∈ first :: rest) : |first - sampleTime| ≤ |t - sampleTime| := by
  have hle : first ≤ t := by
    rcases List.mem_cons.mp ht with rfl | ht
    · exact le_rfl
    · exact List.rel_of_pairwise_cons hsorted ht
  exact FFmpegVideoStreamImpl.lowerDiff_le hfirst hle

/-- A picture that ends the search is in reach or nearest, or the picture before is. -/
lemma Searching.step_picture
    (h : Searching videoStream sampleTime times done ((time, picture) :: pics) s)
    (scale : List UInt8 → List UInt8) (hdecode : s.request = .decode)
    (htime : timestamp * videoStream.primaryStreamTimeBase = time)
    (hpicture : picture = (s.codec.decode (some buffer) buffers).buffers buffer)
    (hduration : 0 < videoStream.frameDurationSeconds) (hsorted : times.Pairwise (· ≤ ·))
    (h0 : 0 ≤ time)
    (hfirst : done = [] →
      time - sampleTime < videoStream.frameDurationSeconds ∨ time ≤ 2 * sampleTime) :
    ∃ s', step .pickBestFrame s (.decoded (some buffer) timestamp buffers (some scale)) = .ok s' ∧
      s'.codec = s.codec.decode (some buffer) buffers ∧
      (Finds videoStream scale sampleTime times (done ++ [(time, picture)]) s' ∨
        s'.Waits s.endOfStream ∧
          Searching videoStream sampleTime times (done ++ [(time, picture)]) pics s') := by
  obtain ⟨rfl, rfl, rfl, hbefore, hprev⟩ := h
  subst hpicture htime
  rw [List.map_cons] at hsorted ⊢
  obtain ⟨hpassed, hcoming, -⟩ := List.pairwise_append.mp hsorted
  have hcurrent : (s.branch (timestamp * s.videoStream.primaryStreamTimeBase)).emits =
      some .current → InReachOrNearest (done.map Prod.fst ++
          timestamp * s.videoStream.primaryStreamTimeBase :: pics.map Prod.fst) s.sampleTime
        s.videoStream.frameDurationSeconds (timestamp * s.videoStream.primaryStreamTimeBase) →
      ∃ s', step .pickBestFrame s (.decoded (some buffer) timestamp buffers (some scale)) = .ok s' ∧
        s'.codec = s.codec.decode (some buffer) buffers ∧
        Finds s.videoStream scale s.sampleTime (done.map Prod.fst ++
            timestamp * s.videoStream.primaryStreamTimeBase :: pics.map Prod.fst)
          (done ++ [(timestamp * s.videoStream.primaryStreamTimeBase,
            (s.codec.decode (some buffer) buffers).buffers buffer)]) s' := by
    intro hemits hreach
    obtain ⟨s', hstep, hcodec, hreturned⟩ :=
      step_pickBestFrame_emits (some buffer) buffers scale hdecode (.inl rfl) hemits
    rw [frameOf_current] at hreturned
    exact ⟨s', hstep, hcodec, _, by simp, hreturned, hreach⟩
  obtain ⟨hbranch, hdiff⟩ | ⟨hfar, ⟨-, hneg⟩ | ⟨hbranch, -, hafter, hcloser⟩ |
    ⟨hbranch, -, hafter, hcloser⟩ | ⟨hbranch, -, hnot⟩⟩ :=
      Branch.of_cases s.videoStream.frameDurationSeconds s.sampleTime s.prevFrame.timeSecondsEst
        (timestamp * s.videoStream.primaryStreamTimeBase)
  · obtain ⟨s', hstep, hcodec, hfinds⟩ := hcurrent (congrArg Branch.emits hbranch) (.inl hdiff)
    exact ⟨s', hstep, hcodec, .inl hfinds⟩
  · exact absurd h0 (not_le.mpr hneg)
  · rw [abs_of_pos (sub_pos.mpr hafter)] at hfar hcloser
    obtain ⟨hnil, hzero⟩ | ⟨passed, last, rfl, htime, hlast⟩ := hprev
    · -- the previous frame was never decoded
      rw [hzero, zero_sub, abs_neg] at hcloser
      rcases hfirst hnil with hnear | htwice
      · exact absurd hfar (not_le.mpr hnear)
      · have := le_abs_self s.sampleTime
        linarith
    · obtain ⟨s', hstep, hcodec, hreturned⟩ := step_pickBestFrame_emits (some buffer) buffers scale
        hdecode (.inl rfl) (congrArg Branch.emits hbranch)
      rw [frameOf_previous hlast, htime] at hreturned
      refine ⟨s', hstep, hcodec, .inl ⟨last, by simp, hreturned, .inr fun t ht => ?_⟩⟩
      rw [List.map_append, List.map_singleton] at ht hpassed hbefore
      have hlast' := hbefore last.1 (by simp)
      rw [htime] at hcloser
      rcases List.mem_append.mp ht with ht | ht
      · exact abs_le_of_passed hpassed (by linarith) ht
      · have hle := abs_le_of_coming hcoming hafter.le ht
        rw [abs_of_pos (sub_pos.mpr hafter)] at hle
        exact hcloser.le.trans hle
  · -- behind the sample time, and not further than the previous picture
    obtain ⟨s', hstep, hcodec, hfinds⟩ := hcurrent (congrArg Branch.emits hbranch) (.inr (by
      intro t ht
      rcases List.mem_append.mp ht with ht | ht
      · obtain ⟨rfl, -⟩ | ⟨passed, last, rfl, htime, -⟩ := hprev
        · cases ht
        · rw [List.map_append, List.map_singleton] at ht hpassed hbefore
          have hlast' := hbefore last.1 (by simp)
          rw [htime] at hcloser
          exact hcloser.trans (abs_le_of_passed hpassed (by linarith) ht)
      · exact abs_le_of_coming hcoming hafter.le ht))
    exact ⟨s', hstep, hcodec, .inl hfinds⟩
  · obtain ⟨s', hstep, hcodec, hwaits, hstream, hsample, htime, hlast⟩ :=
      step_pickBestFrame_nextFrame buffer buffers scale hdecode hbranch
    refine ⟨s', hstep, hcodec, .inr ⟨hwaits, hstream, hsample, by simp, ?_, ?_⟩⟩
    · rw [List.map_append, List.map_singleton]
      intro t ht
      rcases List.mem_append.mp ht with ht | ht
      · exact hbefore t ht
      · rw [List.mem_singleton.mp ht]
        rw [abs_of_nonpos (sub_nonpos.mpr hnot)] at hfar
        linarith
    · exact .inr ⟨done, _, rfl, htime, hlast⟩

/-- After the last picture, the picture before is returned, and no other is nearer. -/
lemma Searching.step_drained (h : Searching videoStream sampleTime times done [] s)
    (scale : List UInt8 → List UInt8) (hs : s.Waits true)
    (htime : timestamp * videoStream.primaryStreamTimeBase < 0)
    (hduration : 0 < videoStream.frameDurationSeconds) (hne : times ≠ [])
    (hsorted : times.Pairwise (· ≤ ·)) (h0 : ∀ t ∈ times, 0 ≤ t) :
    ∃ s', step .pickBestFrame s (.decoded none timestamp buffers (some scale)) = .ok s' ∧
      Finds videoStream scale sampleTime times done s' := by
  obtain ⟨rfl, rfl, rfl, hbefore, hprev⟩ := h
  rw [List.map_nil, List.append_nil] at *
  obtain ⟨rfl, -⟩ | ⟨passed, last, rfl, hprevTime, hlast⟩ := hprev
  · exact absurd rfl hne
  rw [List.map_append, List.map_singleton] at hne hsorted h0 hbefore ⊢
  have hlast' := hbefore last.1 (by simp)
  have hlast0 := h0 last.1 (by simp)
  -- the sample time is at least a frame behind a time that is not negative
  have hbranch : s.branch (timestamp * s.videoStream.primaryStreamTimeBase) = .previousOnly :=
    Branch.of_eq_previousOnly htime (by linarith) (by linarith)
  obtain ⟨s', hstep, -, hreturned⟩ := step_pickBestFrame_emits none buffers scale hs.2 (.inr hs.1)
    (congrArg Branch.emits hbranch)
  rw [frameOf_previous hlast, hprevTime] at hreturned
  exact ⟨s', hstep, last, by simp, hreturned, .inr fun t ht =>
    abs_le_of_passed hsorted (by linarith) ht⟩

/-- Before the first picture, the previous frame is closer to the sample time: it holds none. -/
lemma Searching.step_late
    (h : Searching videoStream sampleTime times [] ((time, picture) :: pics) s)
    (scale : List UInt8 → List UInt8) (hdecode : s.request = .decode)
    (htime : timestamp * videoStream.primaryStreamTimeBase = time) (hsample : 0 ≤ sampleTime)
    (hfar : sampleTime + videoStream.frameDurationSeconds ≤ time) (htwice : 2 * sampleTime < time) :
    ∃ s', step .pickBestFrame s (.decoded (some buffer) timestamp buffers (some scale)) = .ok s' ∧
      s'.codec = s.codec.decode (some buffer) buffers ∧
      ∃ frame, s'.request = .returned (.frame (some frame)) ∧ frame.timeSecondsEst = 0 := by
  obtain ⟨rfl, rfl, rfl, -, hprev⟩ := h
  subst htime
  obtain ⟨-, hzero⟩ | ⟨passed, last, hdone, -⟩ := hprev
  · have hafter : s.sampleTime < timestamp * s.videoStream.primaryStreamTimeBase := by linarith
    have hbranch : s.branch (timestamp * s.videoStream.primaryStreamTimeBase) =
        .previousCloser := by
      obtain ⟨-, hdiff⟩ | ⟨-, ⟨-, hneg⟩ | ⟨hbranch, -⟩ | ⟨-, -, -, hcloser⟩ | ⟨-, -, hnot⟩⟩ :=
        Branch.of_cases s.videoStream.frameDurationSeconds s.sampleTime s.prevFrame.timeSecondsEst
          (timestamp * s.videoStream.primaryStreamTimeBase)
      · rw [abs_of_pos (sub_pos.mpr hafter)] at hdiff
        linarith
      · linarith
      · exact hbranch
      · rw [hzero, zero_sub, abs_neg, abs_of_nonneg hsample, abs_of_pos (sub_pos.mpr hafter)]
          at hcloser
        linarith
      · linarith
    obtain ⟨s', hstep, hcodec, hreturned⟩ := step_pickBestFrame_emits (some buffer) buffers scale
      hdecode (.inl rfl) (congrArg Branch.emits hbranch)
    obtain ⟨imageByteBuffer, hframe⟩ :=
      exists_frameOf (s.atBody (some buffer) timestamp buffers) scale .previous
    rw [hframe] at hreturned
    exact ⟨s', hstep, hcodec, _, hreturned, hzero⟩
  · simp at hdone

end

end DecodeLoop

namespace FFmpegVideoStreamImpl

variable (videoStream : FFmpegVideoStreamImpl)

/-- The call returns a picture that was delivered to it, with its time, which is less than a frame
away from the sample time unless no picture of the stream is nearer. -/
def PicksDelivered (scale : List UInt8 → List UInt8) (sampleTime : ℚ) (answers : List Answer) :
    Prop :=
  ∃ pre, pre <+: answers ∧ ∃ picture ∈ videoStream.pictures pre,
    videoStream.ffmpegVideoStreamPickBestFrame sampleTime true pre =
      .ok (videoStream, .frame (some (videoStream.frameOfPicture scale picture))) ∧
    InReachOrNearest (videoStream.times answers) sampleTime videoStream.frameDurationSeconds
      picture.1

/-- The first picture is less than a frame behind the sample time, or at most as far behind it as
the sample time is behind 0. -/
def StartsInReach (sampleTime : ℚ) (answers : List Answer) : Prop :=
  ∀ first ∈ (videoStream.times answers).head?,
    first < sampleTime + videoStream.frameDurationSeconds ∨ first ≤ 2 * sampleTime

variable {videoStream} {sampleTime : ℚ} {answers : List Answer} {scale : List UInt8 → List UInt8}

lemma returnsWith_finds (h : WholeStream videoStream.primaryStreamIndex scale answers)
    (hne : videoStream.times answers ≠ []) (h0 : ∀ t ∈ videoStream.times answers, 0 ≤ t)
    (hsorted : (videoStream.times answers).Pairwise (· ≤ ·))
    (hnegative : videoStream.NegativeWithoutPicture answers)
    (hduration : 0 < videoStream.frameDurationSeconds)
    (hfirst : videoStream.StartsInReach sampleTime answers) :
    ReturnsWith .pickBestFrame videoStream.primaryStreamTimeBase
      (Finds videoStream scale sampleTime (videoStream.times answers)) []
      (start videoStream sampleTime) answers := by
  refine PictureRule.returnsWith
    (I := Searching videoStream sampleTime (videoStream.times answers))
    ⟨?_, ?_, ?_, ?_⟩ h List.suffix_rfl ?_ ⟨rfl, rfl⟩
  · intro done pics s hI
    rw [hI.sameStream]
  · intro done pics s s' hI hsame
    exact hI.of_sameChoice hsame
  · intro buffer timestamp buffers done pics s picture hpicture hI hdecode
    have hall := hI.all
    rw [List.map_cons] at hall
    obtain ⟨s', hstep, hcodec, hfinds | hgoes⟩ := hI.step_picture scale hdecode rfl
      hpicture hduration hsorted (h0 _ (by rw [← hall]; simp)) (by
        rintro rfl
        rw [sub_lt_iff_lt_add']
        exact hfirst _ (by rw [← hall]; rfl))
    · obtain ⟨found, hmem, hreturned, hreach⟩ := hfinds
      exact ⟨s', hstep, hcodec, .inl ⟨⟨_, hreturned⟩, found, hmem, hreturned, hreach⟩⟩
    · exact ⟨s', hstep, hcodec, .inr hgoes⟩
  · intro timestamp buffers done s hlast hI hs
    obtain ⟨s', hstep, found, hmem, hreturned, hreach⟩ := hI.step_drained scale hs
      (hnegative timestamp buffers (some scale) hlast) hduration hne hsorted h0
    exact ⟨s', hstep, ⟨_, hreturned⟩, found, hmem, hreturned, hreach⟩
  · have hstart := searching_start videoStream sampleTime (videoStream.pictures answers)
    rw [pictures, map_fst_picturesFrom] at hstart
    exact hstart

/-- A first picture that is out of reach makes the loop return the undecoded frame. -/
lemma returnsWith_undecoded (h : WholeStream videoStream.primaryStreamIndex scale answers)
    (hsample : 0 ≤ sampleTime) (hfirst : ¬ videoStream.StartsInReach sampleTime answers) :
    ReturnsWith .pickBestFrame videoStream.primaryStreamTimeBase
      (fun _ s => ∃ frame, s.request = .returned (.frame (some frame)) ∧ frame.timeSecondsEst = 0)
      [] (start videoStream sampleTime) answers := by
  simp only [StartsInReach, not_forall, not_or, not_lt, not_le] at hfirst
  obtain ⟨first, hhead, hfar, htwice⟩ := hfirst
  refine PictureRule.returnsWith (I := fun done pics s =>
    done = [] ∧ Searching videoStream sampleTime (videoStream.times answers) done pics s)
    ⟨?_, ?_, ?_, ?_⟩ h List.suffix_rfl ?_ ⟨rfl, rfl⟩
  · rintro done pics s ⟨-, hI⟩
    rw [hI.sameStream]
  · rintro done pics s s' ⟨hnil, hI⟩ hsame
    exact ⟨hnil, hI.of_sameChoice hsame⟩
  · rintro buffer timestamp buffers _ pics s picture hpicture ⟨rfl, hI⟩ hdecode
    have hall := hI.all
    rw [List.map_cons] at hall
    rw [← hall, List.map_nil, List.nil_append, List.head?_cons, Option.mem_some_iff] at hhead
    subst hhead
    obtain ⟨s', hstep, hcodec, frame, hreturned, hzero⟩ :=
      hI.step_late scale hdecode rfl hsample hfar htwice
    exact ⟨s', hstep, hcodec, .inl ⟨⟨_, hreturned⟩, frame, hreturned, hzero⟩⟩
  · rintro timestamp buffers _ s - ⟨rfl, hI⟩ -
    rw [← hI.all] at hhead
    cases hhead
  · have hstart := searching_start videoStream sampleTime (videoStream.pictures answers)
    rw [pictures, map_fst_picturesFrom] at hstart
    exact ⟨rfl, hstart⟩

/-- Without prepared frames the call runs the loop. -/
lemma pickBestFrame_eq_finish (hempty : videoStream.preparedFrames = []) (sampleTime : ℚ)
    (pre : List Answer) : videoStream.ffmpegVideoStreamPickBestFrame sampleTime true pre =
      finish .pickBestFrame (DecodeLoop.start videoStream sampleTime) pre := by
  have hnone : videoStream.ffmpegVideoStreamPickBestFrameFromPrepared sampleTime
      (videoStream.frameDurationSeconds * (1 / 2)) = .ok none := by
    simp [ffmpegVideoStreamPickBestFrameFromPrepared, hempty]
  simp only [ffmpegVideoStreamPickBestFrame, hnone, Bool.not_true, Bool.false_eq_true, if_false]

/-- The call returns what the loop does. -/
lemma pickBestFrame_of_run (hempty : videoStream.preparedFrames = []) {pre : List Answer}
    {s : DecodeLoop} {result : DecodeResult}
    (h : run (DecodeLoop.step .pickBestFrame) (DecodeLoop.start videoStream sampleTime) pre =
      .ok s) (hresult : s.request = .returned result) :
    videoStream.ffmpegVideoStreamPickBestFrame sampleTime true pre = .ok (videoStream, result) := by
  have hcall : videoStream.ffmpegVideoStreamPickBestFrame sampleTime true pre =
      .ok (s.videoStream, result) := by
    rw [pickBestFrame_eq_finish hempty]
    exact finish_of_run h hresult
  rw [hcall, pickBestFrame_videoStream hcall]

lemma not_picksDelivered_of_late (hempty : videoStream.preparedFrames = [])
    (h : WholeStream videoStream.primaryStreamIndex scale answers)
    (hsorted : (videoStream.times answers).Pairwise (· ≤ ·))
    (hduration : 0 < videoStream.frameDurationSeconds)
    (hsample : 0 ≤ sampleTime) (hfirst : ¬ videoStream.StartsInReach sampleTime answers) :
    ¬ videoStream.PicksDelivered scale sampleTime answers := by
  rintro ⟨pre, hpre, picture, hpicture, hcall, -⟩
  rw [pickBestFrame_eq_finish hempty] at hcall
  obtain ⟨s, hrun, hreturned, -⟩ := finish_ok hcall
  obtain ⟨pre, s', hpre, -, -, ⟨hpicture, hreturned⟩, frame, hundecoded, hzero⟩ := Stops.and
    (Q := fun pre s => picture ∈ videoStream.pictures pre ∧
      s.request = .returned (.frame (some (videoStream.frameOfPicture scale picture))))
    step_ne_of_returned ⟨pre, s, hpre, hrun, ⟨_, hreturned⟩, hpicture, hreturned⟩
    (returnsWith_undecoded h hsample hfirst)
  -- the undecoded frame is before every picture
  have htime : picture.1 = 0 := by
    have hframe := DecodeResult.frame.inj (Request.returned.inj (hundecoded.symm.trans hreturned))
    rw [← hzero, Option.some.inj hframe]
    rfl
  have hmem : picture.1 ∈ videoStream.times answers := by
    have hpre' : picture.1 ∈ videoStream.times pre := by
      rw [times, ← map_fst_picturesFrom _ .flushed]
      exact List.mem_map_of_mem hpicture
    exact (hpre.filterMap _).subset hpre'
  simp only [StartsInReach, not_forall, not_or, not_lt, not_le] at hfirst
  obtain ⟨first, hhead, hfar, -⟩ := hfirst
  obtain ⟨rest, htimes⟩ := List.head?_eq_some_iff.mp (Option.mem_def.mp hhead)
  rw [htimes] at hmem hsorted
  rcases List.mem_cons.mp hmem with heq | hrest
  · linarith
  · have hle := List.rel_of_pairwise_cons hsorted hrest
    linarith

/-- The call returns a picture that is in reach or nearest, if and only if the first picture is in
reach or the sample time is at least half its time. -/
theorem picksDelivered_iff (hempty : videoStream.preparedFrames = [])
    (h : WholeStream videoStream.primaryStreamIndex scale answers)
    (hne : videoStream.times answers ≠ []) (h0 : ∀ t ∈ videoStream.times answers, 0 ≤ t)
    (hsorted : (videoStream.times answers).Pairwise (· ≤ ·))
    (hnegative : videoStream.NegativeWithoutPicture answers)
    (hduration : 0 < videoStream.frameDurationSeconds) (hsample : 0 ≤ sampleTime) :
    videoStream.PicksDelivered scale sampleTime answers ↔
      videoStream.StartsInReach sampleTime answers := by
  constructor
  · intro hpicks
    by_contra hfirst
    exact not_picksDelivered_of_late hempty h hsorted hduration hsample hfirst hpicks
  · intro hfirst
    obtain ⟨pre, s, hpre, hrun, -, picture, hpicture, hreturned, hreach⟩ :=
      returnsWith_finds h hne h0 hsorted hnegative hduration hfirst
    exact ⟨pre, hpre, picture, hpicture, pickBestFrame_of_run hempty hrun hreturned, hreach⟩

/-- A picture at 30 seconds, and the end of the stream. -/
def lateStart : List Answer :=
  [.packet ⟨0, [7]⟩, .decoded (some 0) 30 (fun _ => [1, 1, 1, 255]) (some id), .endOfFile,
    .decoded none (-1) (fun _ => []) (some id)]

lemma wholeStream_lateStart : WholeStream opened.primaryStreamIndex id lateStart :=
  .decoded rfl (.endOfFile (.drained (-1) fun _ => []))

lemma times_lateStart : opened.times lateStart = [30] := by
  norm_num [times, lateStart, Answer.time, List.filterMap, opened]

lemma negativeWithoutPicture_lateStart : opened.NegativeWithoutPicture lateStart := by
  intro timestamp buffers sws_scale hlast
  cases Option.mem_some_iff.mp hlast
  norm_num [opened]

theorem picksDelivered_lateStart :
    opened.PicksDelivered id 25 lateStart ↔ opened.StartsInReach 25 lateStart :=
  picksDelivered_iff rfl wholeStream_lateStart (by simp [times_lateStart])
    (by norm_num [times_lateStart]) (by simp [times_lateStart]) negativeWithoutPicture_lateStart
    (by norm_num [opened]) (by norm_num)

/-- Asked for the frame at 0 seconds, the loop returns the previous frame, which holds no
picture. -/
theorem not_picksDelivered :
    ¬ ∀ (videoStream : FFmpegVideoStreamImpl) (scale : List UInt8 → List UInt8) (sampleTime : ℚ)
      (answers : List Answer), videoStream.preparedFrames = [] →
        WholeStream videoStream.primaryStreamIndex scale answers →
          videoStream.times answers ≠ [] → (∀ t ∈ videoStream.times answers, 0 ≤ t) →
            (videoStream.times answers).Pairwise (· ≤ ·) →
              videoStream.NegativeWithoutPicture answers → 0 < videoStream.frameDurationSeconds →
                0 ≤ sampleTime → videoStream.PicksDelivered scale sampleTime answers := by
  intro h
  have hlate : ¬ opened.StartsInReach 0 lateStart := by
    rw [StartsInReach, times_lateStart]
    norm_num [opened]
  refine not_picksDelivered_of_late rfl wholeStream_lateStart (by simp [times_lateStart])
    (by norm_num [opened]) le_rfl hlate (h opened id 0 lateStart rfl wholeStream_lateStart ?_ ?_ ?_
      negativeWithoutPicture_lateStart ?_ le_rfl)
  · simp [times_lateStart]
  · norm_num [times_lateStart]
  · simp [times_lateStart]
  · norm_num [opened]

end FFmpegVideoStreamImpl

end GifTools
