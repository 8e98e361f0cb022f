import GifTools.FFmpeg.SampledFrames

/-!
# Expired pictures

Where a sampling loop takes a previous staging frame that holds no picture to take, the frame it
prepares is made of a buffer that was never written, of memory that was used again, or of a picture
a second time. Whether it shows depends on what is in the pictures and in the memory; for all
timestamps there is a stream in which it does.
-/

namespace GifTools

open Runs DecodeLoop

/-! ### Shades -/

/-- The first byte of the image. -/
def FFmpegVideoFrameImpl.shade (frame : FFmpegVideoFrameImpl) : Option UInt8 :=
  frame.imageObj.bind fun image => image.contents.head?

/-- A picture is of one shade, and this one of another. -/
def FFmpegVideoStreamImpl.pictureShade (special i : Nat) : List UInt8 :=
  if i = special then [3] else [1]

namespace FFmpegVideoStreamImpl

variable (videoStream : FFmpegVideoStreamImpl)

/-- The first byte of the picture everywhere. -/
def fill (picture : List UInt8) : List UInt8 :=
  List.replicate videoStream.imgBufferSize (picture.headD 0)

/-- What is in the memory when a picture with this number was decoded: it has memory of its own, and
all other is of a third shade. -/
def shadedBuffers (special i buffer : Nat) : List UInt8 :=
  if buffer = i then pictureShade special i else [2]

/-- A stream with these timestamps. -/
def shadedFrom (special : Nat) : Nat → List Int → List Answer
  | _, [] => [.endOfFile, .decoded none AV_NOPTS_VALUE (fun _ => [2]) (some videoStream.fill)]
  | i, timestamp :: timestamps =>
    .packet ⟨videoStream.primaryStreamIndex, []⟩ ::
      .decoded (some i) timestamp (shadedBuffers special i) (some videoStream.fill) ::
      shadedFrom special (i + 1) timestamps

variable {videoStream}

lemma length_fill (picture : List UInt8) :
    (videoStream.fill picture).length = videoStream.imgBufferSize := List.length_replicate

/-- The shade of a frame is that of the picture. -/
lemma shade_scaledFrame (hsize : 0 < videoStream.imgBufferSize) (time : ℚ)
    (picture : List UInt8) : (videoStream.scaledFrame time (videoStream.fill picture)).shade =
      some (picture.headD 0) := by
  obtain ⟨n, hn⟩ := Nat.exists_eq_add_of_lt hsize
  simp only [FFmpegVideoFrameImpl.shade, scaledFrame, fill, hn, Option.bind_some]
  rfl

lemma wholeStream_shadedFrom (special i : Nat) (timestamps : List Int) :
    WholeStream videoStream.primaryStreamIndex videoStream.fill
      (videoStream.shadedFrom special i timestamps) := by
  induction timestamps generalizing i with
  | nil => exact .endOfFile (.drained _ _)
  | cons timestamp timestamps ih => exact .decoded rfl (ih (i + 1))

lemma noptsWithoutPicture_shadedFrom (special i : Nat) (timestamps : List Int) :
    NoptsWithoutPicture (videoStream.shadedFrom special i timestamps) := by
  induction timestamps generalizing i with
  | nil =>
    rintro timestamp buffers sws_scale ⟨⟩
    rfl
  | cons timestamp timestamps ih =>
    intro nopts buffers sws_scale hlast
    refine ih (i + 1) nopts buffers sws_scale ?_
    cases timestamps with
    | nil => exact hlast
    | cons next timestamps => exact hlast

lemma times_shadedFrom (special i : Nat) (timestamps : List Int) :
    videoStream.times (videoStream.shadedFrom special i timestamps) =
      videoStream.timesOf timestamps := by
  induction timestamps generalizing i with
  | nil => rfl
  | cons timestamp timestamps ih => exact congrArg _ (ih (i + 1))

lemma decode_shadedBuffers (special : Nat) {i : Nat} {codec : AVCodecInternal}
    (hfresh : ∀ j, codec.to_free = some j → j < i) :
    (codec.decode (some i) (shadedBuffers special i)).buffers i = pictureShade special i := by
  have hfree : codec.to_free ≠ some i := fun h => Nat.lt_irrefl i (hfresh i h)
  rw [AVCodecInternal.decode_buffers_of_ne hfree, shadedBuffers, if_pos rfl]

/-- The pictures have their shades. -/
lemma picturesFrom_shadedFrom (special : Nat) (timestamps : List Int) {i : Nat}
    {codec : AVCodecInternal} (hfresh : ∀ j, codec.to_free = some j → j < i) :
    picturesFrom videoStream.primaryStreamTimeBase codec
        (videoStream.shadedFrom special i timestamps) =
      (timestamps.zipIdx i).map fun p =>
        (p.1 * videoStream.primaryStreamTimeBase, pictureShade special p.2) := by
  induction timestamps generalizing i codec with
  | nil => rfl
  | cons timestamp timestamps ih =>
    rw [shadedFrom, picturesFrom, picturesFrom_cons_picture, decode_shadedBuffers special hfresh,
      List.zipIdx_cons, List.map_cons, ih]
    rintro j ⟨⟩
    exact Nat.lt_succ_self i

/-- Frames that do not all come from different pictures of `shadedFrom`. -/
def Spoiled (videoStream : FFmpegVideoStreamImpl) (frames : List FFmpegVideoFrameImpl) : Prop :=
  (∃ frame ∈ frames, frame.shade ≠ some 1 ∧ frame.shade ≠ some 3) ∨
    2 ≤ frames.countP (fun frame => frame.shade = some 3) ∨
    ∃ frame ∈ frames, frame.timeSecondsEst = videoStream.noptsTime

lemma Spoiled.append {frames : List FFmpegVideoFrameImpl} (h : videoStream.Spoiled frames)
    (more : List FFmpegVideoFrameImpl) : videoStream.Spoiled (frames ++ more) := by
  obtain ⟨frame, hframe, hshade⟩ | hcount | ⟨frame, hframe, htime⟩ := h
  · exact .inl ⟨frame, List.mem_append_left _ hframe, hshade⟩
  · refine .inr (.inl ?_)
    rw [List.countP_append]
    exact hcount.trans (Nat.le_add_right _ _)
  · exact .inr (.inr ⟨frame, List.mem_append_left _ hframe, htime⟩)

lemma not_subperm_of_spoiled {frames : List FFmpegVideoFrameImpl} {timestamps : List Int}
    (special : Nat) (h : videoStream.Spoiled frames)
    (hsize : 0 < videoStream.imgBufferSize) (hbase : 0 < videoStream.primaryStreamTimeBase)
    (h0 : ∀ timestamp ∈ timestamps, 0 ≤ timestamp) :
    ¬ frames.Subperm ((videoStream.pictures (videoStream.shadedFrom special 0 timestamps)).map
      (videoStream.frameOfPicture videoStream.fill)) := by
  rw [pictures, picturesFrom_shadedFrom special timestamps (by rintro j ⟨⟩), List.map_map]
  intro hsubperm
  have hshade : ∀ p ∈ timestamps.zipIdx, (videoStream.frameOfPicture videoStream.fill
      (p.1 * videoStream.primaryStreamTimeBase, pictureShade special p.2)).shade =
        some (if p.2 = special then 3 else 1) := by
    intro p _
    rw [frameOfPicture, shade_scaledFrame hsize, pictureShade]
    split <;> rfl
  obtain ⟨frame, hframe, hother⟩ | hcount | ⟨frame, hframe, htime⟩ := h
  · obtain ⟨p, hp, rfl⟩ := List.mem_map.mp (hsubperm.subset hframe)
    rw [Function.comp_apply, hshade p hp] at hother
    split at hother
    · exact hother.2 rfl
    · exact hother.1 rfl
  · -- one picture has the special shade at most
    have hle := hcount.trans (hsubperm.countP_le _)
    rw [List.countP_map] at hle
    have hindex : timestamps.zipIdx.countP (fun p => p.2 == special) ≤ 1 := by
      have hnodup : (List.range' 0 timestamps.length).Nodup := List.nodup_range'
      have hcount := List.nodup_iff_count_le_one.mp hnodup special
      rw [← List.zipIdx_map_snd, List.count, List.countP_map] at hcount
      exact hcount
    have heq : timestamps.zipIdx.countP ((fun frame => decide (frame.shade = some 3)) ∘
        (videoStream.frameOfPicture videoStream.fill) ∘ fun p =>
          (p.1 * videoStream.primaryStreamTimeBase, pictureShade special p.2)) =
        timestamps.zipIdx.countP (fun p => p.2 == special) := by
      refine List.countP_congr fun p hp => ?_
      rw [Function.comp_apply, Function.comp_apply, hshade p hp]
      split <;> simp_all
    omega
  · obtain ⟨p, hp, rfl⟩ := List.mem_map.mp (hsubperm.subset hframe)
    have hnonneg : (0 : ℚ) ≤ p.1 := Int.cast_nonneg (h0 p.1 (List.fst_mem_of_mem_zipIdx hp))
    have hneg : videoStream.noptsTime < 0 :=
      mul_neg_of_neg_of_pos (by norm_num [AV_NOPTS_VALUE]) hbase
    rw [← htime] at hneg
    exact absurd hneg (not_lt.mpr (mul_nonneg hnonneg hbase.le))

end FFmpegVideoStreamImpl

/-! ### Spoiling runs -/

namespace DecodeLoop

open FFmpegVideoStreamImpl

variable {s s' s₁ : DecodeLoop} {videoStream : FFmpegVideoStreamImpl} {special i : Nat}
  {branch : Branch} {frames : List FFmpegVideoFrameImpl} {data : Option Nat} {timestamp : Int}
  {buffers : Nat → List UInt8} {desired : ℚ}

/-- What is known of the staging frames before the picture with this number, after a branch. -/
structure Spoiling (videoStream : FFmpegVideoStreamImpl) (special : Nat) (branch : Branch)
    (frames : List FFmpegVideoFrameImpl) (i : Nat) (s : DecodeLoop) : Prop where
  fresh : ∀ j, s.codec.to_free = some j → j < i
  old : ∀ j, s.prevFrame.decodedFrame.data = some j → j < i
  empty : s.prevFrame.decodedFrame.data = none →
    s.prevFrame.imageByteBuffer = List.replicate videoStream.imgBufferSize 0
  good : branch = .currentGood → ∀ j, s.prevFrame.decodedFrame.data = some j →
    s.codec.to_free ≠ some j
  closer : branch = .currentCloser → i = special + 1 →
    s.prevFrame.HoldsLast s.codec [3] ∧ ∃ frame ∈ frames, frame.shade = some 3

/-- All memory that was used before is used again. -/
def Overwrites (buffers : Nat → List UInt8) (i : Nat) : Prop := ∀ j < i, buffers j = [2]

/-- A previous frame that should not be taken spoils the frames. -/
lemma Spoiling.previous (h : Spoiling videoStream special branch frames i s)
    (hstream : s.videoStream = { videoStream with preparedFrames := frames.map some })
    (hsize : 0 < videoStream.imgBufferSize) (hkeeps : ¬ branch.Keeps)
    (hspecial : branch = .currentCloser → i = special + 1) (hbuffers : Overwrites buffers i)
    (data : Option Nat) (timestamp : Int) :
    ∃ frame, (s.atBody data timestamp buffers).frameOf (some videoStream.fill) .previous =
      some frame ∧ videoStream.Spoiled (frames ++ [frame]) := by
  have hframe : ∀ time imageByteBuffer, s.videoStream.scaledFrame time imageByteBuffer =
      videoStream.scaledFrame time imageByteBuffer := by
    intro time imageByteBuffer
    rw [hstream]
    rfl
  have hother : ∀ {frame : FFmpegVideoFrameImpl} {shade : UInt8}, frame.shade = some shade →
      shade ≠ 1 → shade ≠ 3 → videoStream.Spoiled (frames ++ [frame]) := by
    intro frame shade hshade h1 h3
    refine .inl ⟨frame, by simp, ?_⟩
    rw [hshade]
    exact ⟨fun heq => h1 (Option.some.inj heq), fun heq => h3 (Option.some.inj heq)⟩
  have hbranch : branch = .currentGood ∨ branch = .currentCloser := by
    rw [Branch.Keeps, not_not] at hkeeps
    cases branch <;> simp [Branch.emits] at hkeeps ⊢
  rcases hbranch with hgood | hcloser
  · cases hdata : s.prevFrame.decodedFrame.data with
    | none =>
      -- the buffer was never written
      refine ⟨videoStream.scaledFrame s.prevFrame.timeSecondsEst (videoStream.fill []), ?_,
        hother (shade_scaledFrame hsize _ _) (by decide) (by decide)⟩
      have hscaled : s.prevFrame.scaled (s.codec.decode data buffers) (some videoStream.fill) =
          some (videoStream.fill []) := by
        rw [FFmpegStagingVideoFrame.scaled_of_none hdata, h.empty hdata]
        rfl
      exact (congrArg (Option.map _) hscaled).trans (congrArg some (hframe _ _))
    | some j =>
      -- the memory was used again
      refine ⟨videoStream.scaledFrame s.prevFrame.timeSecondsEst (videoStream.fill [2]), ?_,
        hother (shade_scaledFrame hsize _ _) (by decide) (by decide)⟩
      have hscaled : s.prevFrame.scaled (s.codec.decode data buffers) (some videoStream.fill) =
          some (videoStream.fill [2]) := by
        rw [FFmpegStagingVideoFrame.scaled_of_some hdata, Option.map_some,
          AVCodecInternal.decode_buffers_of_ne (h.good hgood j hdata),
          hbuffers j (h.old j hdata)]
      exact (congrArg (Option.map _) hscaled).trans (congrArg some (hframe _ _))
  · -- the picture was taken before
    obtain ⟨hlast, frame, hmem, hshade⟩ := h.closer hcloser (hspecial hcloser)
    refine ⟨_, frameOf_previous hlast data timestamp buffers videoStream.fill, .inr (.inl ?_)⟩
    have hshade' : (s.videoStream.frameOfPicture videoStream.fill
        (s.prevFrame.timeSecondsEst, [3])).shade = some 3 := by
      rw [frameOfPicture, hframe]
      exact shade_scaledFrame hsize _ _
    have hpos : 0 < frames.countP fun frame => frame.shade = some 3 :=
      List.countP_pos_iff.mpr ⟨frame, hmem, decide_eq_true hshade⟩
    rw [List.countP_append, List.countP_singleton, hshade']
    simp only [decide_true, if_true]
    omega

/-- The frame a body adds to those that were prepared. -/
def added (videoStream : FFmpegVideoStreamImpl) (special i : Nat) (timestamp : Int) (time : ℚ)
    (s : DecodeLoop) : List FFmpegVideoFrameImpl :=
  ((s.branch time).emits.bind ((s.atBody (some i) timestamp (shadedBuffers special i)).frameOf
    (some videoStream.fill))).toList

lemma Spoiling.congr (h : Spoiling videoStream special branch frames i s)
    (hcodec : s'.codec = s.codec) (hprev : s'.prevFrame = s.prevFrame) :
    Spoiling videoStream special branch frames i s' := by
  obtain ⟨hfresh, hold, hempty, hgood, hcloser⟩ := h
  constructor
  all_goals
    simp only [hcodec, hprev]
    assumption

lemma Spoiling.turns {time : ℚ} (h : Spoiling videoStream special branch frames i s)
    (hstream : s.videoStream = { videoStream with preparedFrames := frames.map some })
    (hsize : 0 < videoStream.imgBufferSize)
    (turns : Turns (.prepareFrames desired) time (some videoStream.fill)
      (s.atBody (some i) timestamp (shadedBuffers special i)) s₁) :
    Spoiling videoStream special (s.branch time)
      (frames ++ s.added videoStream special i timestamp time) (i + 1) s₁.search := by
  have hswaps : (s.atBody (some i) timestamp (shadedBuffers special i)).Swaps time
      (.prepareFrames desired) ↔ s.branch time ≠ .currentGood := Iff.rfl
  have hfree : s₁.codec.to_free = some i := by
    rw [turns.codec]
    rfl
  have hpicture : (s.codec.decode (some i) (shadedBuffers special i)).buffers i =
      pictureShade special i := decode_shadedBuffers special h.fresh
  constructor <;> simp only [search_codec, search_prevFrame]
  · rintro j hj
    cases hfree.symm.trans hj
    exact Nat.lt_succ_self i
  · intro j hj
    by_cases hgood : s.branch time = .currentGood
    · rw [(turns.kept (not_not.mpr hgood)).1.decodedFrame] at hj
      exact (h.old j hj).trans (Nat.lt_succ_self i)
    · rw [(turns.swapped hgood).1.decodedFrame] at hj
      cases hj
      exact Nat.lt_succ_self i
  · intro hnone
    by_cases hgood : s.branch time = .currentGood
    · have hscales := (turns.kept (not_not.mpr hgood)).1
      rw [hscales.decodedFrame] at hnone
      rw [hscales.imageByteBuffer_of_none hnone]
      exact h.empty hnone
    · rw [(turns.swapped hgood).1.decodedFrame] at hnone
      cases hnone
  · intro hgood j hj hheld
    rw [(turns.kept (not_not.mpr hgood)).1.decodedFrame] at hj
    cases hfree.symm.trans hheld
    exact Nat.lt_irrefl i (h.old i hj)
  · intro hcloser hspecial
    obtain rfl : i = special := Nat.succ_inj.mp hspecial
    have hshade : pictureShade i i = [3] := if_pos rfl
    have hlast := turns.holdsLast (hswaps.mpr (by simp [hcloser]))
    rw [hpicture, hshade] at hlast
    refine ⟨hlast, s.videoStream.frameOfPicture videoStream.fill
      (timestamp * s.videoStream.primaryStreamTimeBase, [3]), List.mem_append_right _ ?_, ?_⟩
    · rw [added, hcloser, Branch.emits, Option.bind_some, frameOf_current, hpicture, hshade]
      exact List.mem_singleton_self _
    · rw [hstream]
      exact shade_scaledFrame hsize _ _

lemma Spoiling.step_picture (h : Spoiling videoStream special branch frames i s)
    (hstream : s.videoStream = { videoStream with preparedFrames := frames.map some })
    (hsize : 0 < videoStream.imgBufferSize) (hdecode : s.request = .decode) (desired : ℚ)
    (timestamp : Int) :
    ∃ s' more, step (.prepareFrames desired) s
        (.decoded (some i) timestamp (shadedBuffers special i) (some videoStream.fill)) = .ok s' ∧
      s'.codec = s.codec.decode (some i) (shadedBuffers special i) ∧ s'.Waits s.endOfStream ∧
      s'.sampler = s.sampler.next videoStream.frameDurationSeconds desired
        (timestamp * videoStream.primaryStreamTimeBase) ∧
      s'.videoStream = { videoStream with preparedFrames := (frames ++ more).map some } ∧
      Spoiling videoStream special (s.sampler.branch videoStream.frameDurationSeconds
        (timestamp * videoStream.primaryStreamTimeBase)) (frames ++ more) (i + 1) s' ∧
      (¬ branch.Follows (s.sampler.branch videoStream.frameDurationSeconds
          (timestamp * videoStream.primaryStreamTimeBase)) →
        (branch = .currentCloser → i = special + 1) → videoStream.Spoiled (frames ++ more)) := by
  obtain ⟨s₁, turns, hstep, hcodec, hwaits⟩ := step_prepareFrames desired i timestamp
    (shadedBuffers special i) videoStream.fill hdecode
  have htime : timestamp * s.videoStream.primaryStreamTimeBase =
      timestamp * videoStream.primaryStreamTimeBase := by rw [hstream]
  rw [htime] at turns
  have hbranch : s.sampler.branch videoStream.frameDurationSeconds
      (timestamp * videoStream.primaryStreamTimeBase) =
        s.branch (timestamp * videoStream.primaryStreamTimeBase) := by
    rw [DecodeLoop.branch, hstream]
    rfl
  rw [hbranch]
  refine ⟨_, s.added videoStream special i timestamp
    (timestamp * videoStream.primaryStreamTimeBase), hstep, hcodec, hwaits, ?_, ?_,
    h.turns hstream hsize turns, ?_⟩
  · rw [search_sampler, turns.samples desired rfl, atBody_videoStream, hstream]
    rfl
  · rw [search_videoStream, turns.videoStream, atBody_videoStream, hstream, List.map_append]
    rfl
  · intro hfollows hspecial
    simp only [Branch.Follows, not_forall] at hfollows
    obtain ⟨hemits, hkeeps⟩ := hfollows
    have hoverwrites : Overwrites (shadedBuffers special i) i :=
      fun j hj => if_neg (Nat.ne_of_lt hj)
    obtain ⟨frame, hframe, hspoiled⟩ :=
      h.previous hstream hsize hkeeps hspecial hoverwrites (some i) timestamp
    rw [added, hemits, Option.bind_some, hframe]
    exact hspoiled

/-- What is taken in the end. -/
lemma Spoiling.step_drained (h : Spoiling videoStream special branch frames i s)
    (hstream : s.videoStream = { videoStream with preparedFrames := frames.map some })
    (hsize : 0 < videoStream.imgBufferSize) (hs : s.Waits true) (desired : ℚ)
    (hfails : videoStream.Spoiled frames ∨
      (¬ branch.Follows
            (s.sampler.branch videoStream.frameDurationSeconds videoStream.noptsTime) ∧
          (branch = .currentCloser → i = special + 1)) ∨
        s.sampler.branch videoStream.frameDurationSeconds videoStream.noptsTime = .currentGood) :
    ∃ s' frames', step (.prepareFrames desired) s
        (.decoded none AV_NOPTS_VALUE (fun _ => [2]) (some videoStream.fill)) = .ok s' ∧
      s'.Prepared frames' ∧ videoStream.Spoiled frames' := by
  obtain ⟨loop, hloop⟩ : ∃ loop, loop = s.atBody none AV_NOPTS_VALUE fun _ => [2] := ⟨_, rfl⟩
  have htime : AV_NOPTS_VALUE * s.videoStream.primaryStreamTimeBase = videoStream.noptsTime := by
    rw [hstream]
    rfl
  have hbranch : loop.branch videoStream.noptsTime =
      s.sampler.branch videoStream.frameDurationSeconds videoStream.noptsTime := by
    rw [hloop, DecodeLoop.branch, atBody_videoStream, hstream]
    rfl
  obtain ⟨s', hstep, hprepared⟩ := DecodeLoop.step_drained (f := .prepareFrames desired) (frames ++
    ((loop.branch videoStream.noptsTime).emits.bind
      (loop.frameOf (some videoStream.fill))).toList) (by simp) AV_NOPTS_VALUE (fun _ => [2])
        videoStream.fill hs (by rw [htime, ← hloop, hstream, List.map_append]; rfl)
  refine ⟨s', _, hstep, hprepared, ?_⟩
  rw [hbranch]
  obtain hspoiled | ⟨hfollows, hspecial⟩ | hgood := hfails
  · exact hspoiled.append _
  · simp only [Branch.Follows, not_forall] at hfollows
    obtain ⟨hemits, hkeeps⟩ := hfollows
    have hoverwrites : Overwrites (fun _ => [2]) i := fun _ _ => rfl
    obtain ⟨frame, hframe, hspoiled⟩ := h.previous hstream hsize hkeeps
      hspecial hoverwrites none AV_NOPTS_VALUE
    rw [hemits, Option.bind_some, hloop, hframe]
    exact hspoiled
  · obtain ⟨imageByteBuffer, hframe⟩ := exists_frameOf loop videoStream.fill .current
    refine .inr (.inr ⟨loop.videoStream.scaledFrame (loop.stagingFrame .current).timeSecondsEst
      imageByteBuffer, List.mem_append_right _ ?_, ?_⟩)
    · rw [hgood, Branch.emits, Option.bind_some, hframe]
      exact List.mem_singleton_self _
    · rw [← htime, hloop]
      rfl

/-- Branches that are still to come, from the one before the picture with this number, and among
them one that takes what it should not; the special picture is the one before. -/
def Fails (special i : Nat) (branch : Branch) (branches : List Branch) : Prop :=
  (∃ before first next after, branch :: branches = before ++ first :: next :: after ∧
      ¬ first.Follows next ∧ (first = .currentCloser → i + before.length = special + 1)) ∨
    .currentGood ∈ branches.getLast?

lemma fails_cons {next : Branch} {branches : List Branch} (hne : branches ≠ [])
    (h : Fails special i branch (next :: branches)) :
    (¬ branch.Follows next ∧ (branch = .currentCloser → i = special + 1)) ∨
      Fails special (i + 1) next branches := by
  obtain ⟨before, first, next', after, heq, hfollows, hspecial⟩ | hgood := h
  · cases before with
    | nil =>
      cases heq
      exact .inl ⟨hfollows, hspecial⟩
    | cons head before =>
      rw [List.cons_append, List.cons.injEq] at heq
      refine .inr (.inl ⟨before, first, next', after, heq.2, hfollows, fun hcloser => ?_⟩)
      rw [← hspecial hcloser, List.length_cons]
      omega
  · refine .inr (.inr ?_)
    obtain ⟨head, tail, rfl⟩ := List.exists_cons_of_ne_nil hne
    exact hgood

lemma fails_singleton {last : Branch} (h : Fails special i branch [last]) :
    (¬ branch.Follows last ∧ (branch = .currentCloser → i = special + 1)) ∨
      last = .currentGood := by
  obtain ⟨before, first, next, after, heq, hfollows, hspecial⟩ | hgood := h
  · cases before with
    | nil =>
      cases heq
      exact .inl ⟨hfollows, hspecial⟩
    | cons head before =>
      have hlength := congrArg List.length heq
      simp only [List.length_cons, List.length_append, List.length_nil] at hlength
      omega
  · exact .inr (Option.some.inj hgood)

/-- A stream in which it shows what a branch takes. -/
lemma returnsWith_spoiled {timeBase : ℚ} {done : List (ℚ × List UInt8)} (timestamps : List Int)
    (hstream : s.videoStream = { videoStream with preparedFrames := frames.map some })
    (hsize : 0 < videoStream.imgBufferSize)
    (h : Spoiling videoStream special branch frames i s) (hs : s.Waits false)
    (hfails : videoStream.Spoiled frames ∨ Fails special i branch
      (s.sampler.branches videoStream.frameDurationSeconds desired
        (videoStream.timesOf timestamps ++ [videoStream.noptsTime]))) :
    ReturnsWith (.prepareFrames desired) timeBase
      (fun _ s => ∃ frames, s.Prepared frames ∧ videoStream.Spoiled frames) done s
      (videoStream.shadedFrom special i timestamps) := by
  have hindex : s.videoStream.primaryStreamIndex = videoStream.primaryStreamIndex := by
    rw [hstream]
  induction timestamps generalizing s frames branch i done with
  | nil =>
    obtain ⟨s₁, hstep, hwaits, hsame, hcodec⟩ := step_endOfFile (f := .prepareFrames desired) hs
    refine .quiet hstep (fun _ => by rw [hcodec]; rfl) ?_
    have hsampler : s₁.sampler = s.sampler := by
      rw [sampler, hsame.sampleTime, hsame.prevFrame]
      rfl
    obtain ⟨s₂, frames', hstep₂, hprepared, hspoiled⟩ :=
      (h.congr hcodec hsame.prevFrame).step_drained (hsame.videoStream.trans hstream) hsize hwaits
        desired (by
          rw [hsampler]
          exact hfails.imp_right fails_singleton)
    exact Stops.cons hstep₂ (stops_of_final hprepared.returned ⟨frames', hprepared, hspoiled⟩)
  | cons timestamp timestamps ih =>
    obtain ⟨s₁, hstep, hdecode, heos, hsame, hcodec⟩ :=
      step_packet (f := .prepareFrames desired) ⟨videoStream.primaryStreamIndex, []⟩ hs hindex.symm
    refine .quiet hstep (fun _ => by rw [hcodec]; rfl) ?_
    have hsampler : s₁.sampler = s.sampler := by
      rw [sampler, hsame.sampleTime, hsame.prevFrame]
      rfl
    obtain ⟨s₂, more, hstep₂, hcodec₂, hwaits, hsampler₂, hstream₂, hspoiling, hspoiled⟩ :=
      (h.congr hcodec hsame.prevFrame).step_picture (hsame.videoStream.trans hstream) hsize hdecode
        desired timestamp
    refine .delivered hstep₂ hcodec₂ ?_
    rw [heos] at hwaits
    rw [hsampler] at hsampler₂ hspoiling hspoiled
    refine ih hstream₂ hspoiling hwaits ?_ (by rw [hstream₂])
    rcases hfails with hfails | hfails
    · exact .inl (hfails.append more)
    · rw [hsampler₂]
      rw [timesOf, List.map_cons, List.cons_append, Sampler.branches] at hfails
      rcases fails_cons (Sampler.branches_ne_nil _ _) hfails with ⟨hfollows, hspecial⟩ | hfails
      · exact .inl (hspoiled hfollows hspecial)
      · exact .inr hfails

end DecodeLoop

namespace FFmpegVideoStreamImpl

variable {videoStream : FFmpegVideoStreamImpl} {framesPerSecond : ℚ} {timestamps : List Int}

lemma spoiling_start (videoStream : FFmpegVideoStreamImpl) (special : Nat) :
    Spoiling videoStream special .currentGood [] 0 (start videoStream.clearPreparedFrames 0) := by
  refine ⟨?_, ?_, fun _ => rfl, fun _ => ?_, nofun⟩ <;> rintro _ ⟨⟩

/-- Branches that take what they should not do so somewhere. -/
lemma exists_fails {branches : List Branch} (h : ¬ Branch.TakesKept branches) :
    ∃ special, Fails special 0 .currentGood branches := by
  by_cases hgood : Branch.currentGood ∈ branches.getLast?
  · exact ⟨0, .inr hgood⟩
  · have hchain : ¬ (Branch.currentGood :: branches).IsChain Branch.Follows :=
      fun hchain => h ⟨hchain, hgood⟩
    simp only [List.isChain_iff_forall_rel_of_append_cons_cons, not_forall] at hchain
    obtain ⟨first, next, before, after, heq, hfollows⟩ := hchain
    refine ⟨before.length - 1, .inl ⟨before, first, next, after, heq, hfollows, ?_⟩⟩
    rintro rfl
    cases before with
    | nil => cases heq
    | cons head before => exact Nat.zero_add _

lemma prepareFrames_eq_finish
    (hrate : videoStream.prepareFunction framesPerSecond = .prepareFrames (1 / framesPerSecond))
    (answers : List Answer) :
    videoStream.ffmpegVideoStreamPrepareFrames framesPerSecond true answers =
      finish (.prepareFrames (1 / framesPerSecond)) (start videoStream.clearPreparedFrames 0)
        answers := by
  rw [ffmpegVideoStreamPrepareFrames_eq, hrate]
  rfl

/-- The frames that were prepared are those that are returned. -/
lemma preparedFrames_perm {s : DecodeLoop} {frames frames' : List FFmpegVideoFrameImpl}
    (h : s.Prepared frames) (hframes : s.videoStream.preparedFrames = frames'.map some) :
    frames'.Perm frames := by
  obtain ⟨-, sorted, ⟨hsorted, -⟩, hperm⟩ := h
  obtain rfl : frames' = sorted :=
    List.map_injective_iff.mpr (Option.some_injective _) (hframes.symm.trans hsorted)
  exact hperm

/-- If a branch takes what it should not, it shows in this stream. -/
lemma not_preparesDelivered_of_fails {special : Nat}
    (hrate : videoStream.prepareFunction framesPerSecond = .prepareFrames (1 / framesPerSecond))
    (hbase : 0 < videoStream.primaryStreamTimeBase) (hsize : 0 < videoStream.imgBufferSize)
    (h0 : ∀ timestamp ∈ timestamps, 0 ≤ timestamp) (hfails : Fails special 0 .currentGood
      (videoStream.branches (1 / framesPerSecond) (videoStream.timesOf timestamps))) :
    ¬ videoStream.PreparesDelivered videoStream.fill framesPerSecond
      (videoStream.shadedFrom special 0 timestamps) := by
  rintro ⟨pre, videoStream', frames, hpre, hcall, hframes, hsubperm⟩
  rw [prepareFrames_eq_finish hrate] at hcall
  obtain ⟨s, hrun, hreturned, rfl⟩ := finish_ok hcall
  have hspoiled : ReturnsWith (.prepareFrames (1 / framesPerSecond))
      videoStream.primaryStreamTimeBase
      (fun _ s => ∃ frames, s.Prepared frames ∧ videoStream.Spoiled frames) []
      (start videoStream.clearPreparedFrames 0) (videoStream.shadedFrom special 0 timestamps) :=
    returnsWith_spoiled timestamps rfl hsize (spoiling_start videoStream special)
      ⟨rfl, rfl⟩ (.inr hfails)
  obtain ⟨pre, s', hpre, -, -, ⟨hframes, hsubperm⟩, frames', hprepared, hspoiled⟩ := Stops.and
    (Q := fun pre s => s.videoStream.preparedFrames = frames.map some ∧
      frames.Subperm ((videoStream.pictures pre).map (videoStream.frameOfPicture videoStream.fill)))
    step_ne_of_returned ⟨pre, s, hpre, hrun, ⟨_, hreturned⟩, hframes, hsubperm⟩ hspoiled
  refine not_subperm_of_spoiled special hspoiled hsize hbase h0 ?_
  exact ((preparedFrames_perm hprepared hframes).symm.subperm.trans hsubperm).trans
    ((videoStream.pictures_prefix hpre).map _).sublist.subperm

/-- With these timestamps, whatever is in the pictures and in memory that is used again, a call
prepares pictures that were delivered to it and none twice, if and only if the previous staging
frame is only taken where a picture was kept there. -/
theorem preparesDelivered_iff
    (hrate : videoStream.prepareFunction framesPerSecond = .prepareFrames (1 / framesPerSecond))
    (hbase : 0 < videoStream.primaryStreamTimeBase) (hsize : 0 < videoStream.imgBufferSize)
    (h0 : ∀ timestamp ∈ timestamps, 0 ≤ timestamp) :
    (∀ (scale : List UInt8 → List UInt8) (answers : List Answer),
      (∀ picture, (scale picture).length = videoStream.imgBufferSize) →
        WholeStream videoStream.primaryStreamIndex scale answers → NoptsWithoutPicture answers →
          videoStream.times answers = videoStream.timesOf timestamps →
            videoStream.PreparesDelivered scale framesPerSecond answers) ↔
      Branch.TakesKept
        (videoStream.branches (1 / framesPerSecond) (videoStream.timesOf timestamps)) := by
  constructor
  · intro h
    by_contra hnot
    obtain ⟨special, hfails⟩ := exists_fails hnot
    exact not_preparesDelivered_of_fails hrate hbase hsize h0 hfails
      (h videoStream.fill (videoStream.shadedFrom special 0 timestamps) length_fill
        (wholeStream_shadedFrom special 0 timestamps)
        (noptsWithoutPicture_shadedFrom special 0 timestamps)
        (times_shadedFrom special 0 timestamps))
  · intro htakes scale answers _ hwhole hnopts htimes
    rw [← htimes] at htakes
    obtain ⟨pre, s, hpre, hrun, -, frames, hprepared, hsubperm⟩ :=
      returnsWith_delivered hwhole hnopts hbase htakes
    obtain ⟨hreturned, sorted, ⟨hsorted, -⟩, hperm⟩ := hprepared
    refine ⟨pre, s.videoStream, sorted, hpre, ?_, hsorted, hperm.subperm.trans hsubperm⟩
    rw [prepareFrames_eq_finish hrate, hperm.length_eq]
    exact finish_of_run hrun hreturned

/-- The second picture is passed over, and taken in the end. -/
theorem preparesDelivered_passedOver :
    (∀ (scale : List UInt8 → List UInt8) (answers : List Answer),
      (∀ picture, (scale picture).length = opened.imgBufferSize) →
        WholeStream opened.primaryStreamIndex scale answers → NoptsWithoutPicture answers →
          opened.times answers = opened.timesOf [0, 5] →
            opened.PreparesDelivered scale (1 / 20) answers) ↔
      Branch.TakesKept (opened.branches (1 / (1 / 20)) (opened.timesOf [0, 5])) :=
  preparesDelivered_iff prepareFunction_opened (by norm_num [opened]) (by decide) (by decide)

/-- With one picture, the undecoded frame is taken in the end. -/
theorem not_preparesDelivered :
    ¬ ∀ (videoStream : FFmpegVideoStreamImpl) (scale : List UInt8 → List UInt8)
      (framesPerSecond : ℚ) (answers : List Answer),
      videoStream.prepareFunction framesPerSecond = .prepareFrames (1 / framesPerSecond) →
        (∀ picture, (scale picture).length = videoStream.imgBufferSize) →
          WholeStream videoStream.primaryStreamIndex scale answers → NoptsWithoutPicture answers →
            (∀ t ∈ videoStream.times answers, 0 ≤ t) →
              (videoStream.times answers).Pairwise (· ≤ ·) →
                videoStream.PreparesDelivered scale framesPerSecond answers := by
  intro h
  have hbranches : opened.branches (1 / (1 / 20)) (opened.timesOf [0]) =
      [.currentGood, .previousOnly] := by decide +kernel
  have htimes : opened.times (opened.shadedFrom 1 0 [0]) = [0] := by
    rw [times_shadedFrom]
    norm_num [timesOf, opened]
  refine not_preparesDelivered_of_fails prepareFunction_opened (by norm_num [opened]) (by decide)
    (by decide) ?_ (h opened opened.fill (1 / 20) (opened.shadedFrom 1 0 [0])
      prepareFunction_opened length_fill (wholeStream_shadedFrom 1 0 [0])
      (noptsWithoutPicture_shadedFrom 1 0 [0]) ?_ ?_)
  · rw [hbranches]
    exact .inl ⟨[.currentGood], .currentGood, .previousOnly, [], rfl, by decide, by decide⟩
  · norm_num [htimes]
  · norm_num [htimes]

/-- At one frame in four seconds, the picture at 3 seconds was passed over two calls before it is
taken, and the memory of it used again. -/
example : ¬ Branch.TakesKept
    ((⟨[], 0, 25, 25, 1, 1, 1, 1⟩ : FFmpegVideoStreamImpl).branches 4 [0, 1, 2, 3, 4, 20]) := by
  decide +kernel

end FFmpegVideoStreamImpl

end GifTools
