import GifTools.Core.Search
import GifTools.Gif.Builder
import GifTools.Storage.Object
import Mathlib.Algebra.Order.Field.Rat
import Mathlib.Algebra.Order.Ring.Abs

/-!
# Picking a prepared frame

An open video stream keeps a list of decoded frames, sorted by time. Asked for the frame at a time,
it searches the list for the first frame that is not before, and compares it with the frame after
instead of the one before: what it returns is always the first frame that is not before the time,
or the last frame.

Times are rationals.
-/

namespace GifTools

structure ConcreteImage where
  format : PixelFormat
  width : Nat
  height : Nat
  contents : List UInt8
  deriving DecidableEq

structure FFmpegVideoFrameImpl where
  timeSecondsEst : ℚ
  imageObj : Option ConcreteImage
  deriving DecidableEq

/-- What the functions below read of an open stream; `none` in `preparedFrames` is an empty
handle. -/
structure FFmpegVideoStreamImpl where
  preparedFrames : List (Option FFmpegVideoFrameImpl)
  primaryStreamIndex : Int
  frameCount : Int
  durationSeconds : ℚ
  frameDurationSeconds : ℚ
  primaryStreamTimeBase : ℚ
  width : Nat
  height : Nat

def imageClone : Option ConcreteImage → Option ConcreteImage
  | none => none
  | some image => some ⟨image.format, image.width, image.height, image.contents⟩

def ffmpegCloneFrame (targetFrame : FFmpegVideoFrameImpl) : FFmpegVideoFrameImpl :=
  ⟨targetFrame.timeSecondsEst, imageClone targetFrame.imageObj⟩

/-- A handle is dereferenced. -/
def FFmpegVideoFrameImpl.deref :
    Option FFmpegVideoFrameImpl → Except Fault FFmpegVideoFrameImpl
  | some frame => .ok frame
  | none => .error .nullDeref

open FFmpegVideoFrameImpl in
def estimatedSampleTimeSeconds (frame : Option FFmpegVideoFrameImpl) : Except Fault ℚ := do
  let frame ← deref frame
  return frame.timeSecondsEst

namespace FFmpegVideoStreamImpl

variable (videoStream : FFmpegVideoStreamImpl)

open FFmpegVideoFrameImpl in
def ffmpegVideoStreamPickBestFrameFromPrepared (sampleTime tolerance : ℚ) :
    Except Fault (Option FFmpegVideoFrameImpl) :=
  let frames := videoStream.preparedFrames
  match frames.getLast? with
  | none => .ok none
  | some back => do
    let lowerBoundIt ← Search.lowerBound (fun frame => do
      let time ← estimatedSampleTimeSeconds frame
      return decide (time < sampleTime)) frames 0 frames.length (by simp)
    match frames[lowerBoundIt]? with
    | none =>
      let last ← deref back
      return some (ffmpegCloneFrame last)
    | some lower =>
      match frames[lowerBoundIt + 1]? with
      | none =>
        let last ← deref back
        return some (ffmpegCloneFrame last)
      | some upper =>
        let lowerTime ← estimatedSampleTimeSeconds lower
        let upperTime ← estimatedSampleTimeSeconds upper
        let lowerDiff := |lowerTime - sampleTime|
        let upperDiff := |upperTime - sampleTime|
        if 0 < tolerance ∧ tolerance < min lowerDiff upperDiff then return none
        let best ← deref (if lowerDiff ≤ upperDiff then lower else upper)
        return some (ffmpegCloneFrame best)

/-- The tolerance is -1 by default, which is none. -/
def ffmpegVideoStreamPickBestPreparedFrame (sampleTime : ℚ) :
    Except Fault (Option FFmpegVideoFrameImpl) :=
  videoStream.ffmpegVideoStreamPickBestFrameFromPrepared sampleTime (-1)

/-- The prepared frames are these, in the order of their times and without an empty handle. -/
structure PreparedAs (frames : List FFmpegVideoFrameImpl) : Prop where
  entries : videoStream.preparedFrames = frames.map some
  sorted : frames.Pairwise fun f g => f.timeSecondsEst ≤ g.timeSecondsEst

/-! ### The frame the search returns -/

section

variable {videoStream : FFmpegVideoStreamImpl} {frames : List FFmpegVideoFrameImpl}
  {sampleTime : ℚ} {n : Nat}

@[simp] lemma deref_some (frame : FFmpegVideoFrameImpl) :
    FFmpegVideoFrameImpl.deref (some frame) = .ok frame := rfl

@[simp] lemma estimatedSampleTimeSeconds_some (frame : FFmpegVideoFrameImpl) :
    estimatedSampleTimeSeconds (some frame) = .ok frame.timeSecondsEst := rfl

@[simp] lemma timeSecondsEst_ffmpegCloneFrame (frame : FFmpegVideoFrameImpl) :
    (ffmpegCloneFrame frame).timeSecondsEst = frame.timeSecondsEst := rfl

/-- The frame after the first that is not before is never nearer. -/
lemma lowerDiff_le {lower upper : ℚ} (hs : sampleTime ≤ lower) (h : lower ≤ upper) :
    |lower - sampleTime| ≤ |upper - sampleTime| := by
  rw [abs_of_nonneg (sub_nonneg.mpr hs), abs_of_nonneg (sub_nonneg.mpr (hs.trans h))]
  exact sub_le_sub_right h sampleTime

lemma PreparedAs.lowerBound_eq (h : videoStream.PreparedAs frames)
    (hbelow : ∀ (i : Nat) (hi : i < frames.length), frames[i].timeSecondsEst < sampleTime ↔ i < n)
    (hn : n ≤ frames.length) (hlen : 0 + videoStream.preparedFrames.length ≤
      videoStream.preparedFrames.length) :
    Search.lowerBound (fun frame => do
      let time ← estimatedSampleTimeSeconds frame
      return decide (time < sampleTime)) videoStream.preparedFrames 0
        videoStream.preparedFrames.length hlen = .ok n := by
  have hlength : videoStream.preparedFrames.length = frames.length := by simp [h.entries]
  apply Search.lowerBound_eq _ _ (Nat.zero_le n) (by omega)
  intro i hi
  have hi' : i < frames.length := hlength ▸ hi
  have hget : videoStream.preparedFrames[i] = some frames[i] := by simp [h.entries]
  simp only [hget, estimatedSampleTimeSeconds_some]
  change Except.ok (decide (frames[i].timeSecondsEst < sampleTime)) = _
  rw [decide_eq_decide.mpr (hbelow i hi')]

/-- The search returns the first frame that is not before the sample time, or the last frame. It
looks at the tolerance only where another frame follows. -/
lemma PreparedAs.pickBestFrameFromPrepared_eq (h : videoStream.PreparedAs frames)
    (hne : frames ≠ [])
    (hbelow : ∀ (i : Nat) (hi : i < frames.length), frames[i].timeSecondsEst < sampleTime ↔ i < n)
    (hn : n ≤ frames.length) (tolerance : ℚ) :
    videoStream.ffmpegVideoStreamPickBestFrameFromPrepared sampleTime tolerance =
      .ok (if 0 < tolerance ∧ n + 1 < frames.length ∧
          tolerance < |(frames[n]?.getD (frames.getLast hne)).timeSecondsEst - sampleTime| then none
        else some (ffmpegCloneFrame (frames[n]?.getD (frames.getLast hne)))) := by
  have hlast : videoStream.preparedFrames.getLast? = some (some (frames.getLast hne)) := by
    rw [h.entries, List.getLast?_map, List.getLast?_eq_some_getLast hne, Option.map_some]
  have hget : ∀ i : Nat, videoStream.preparedFrames[i]? = frames[i]?.map some := by
    simp [h.entries]
  simp only [ffmpegVideoStreamPickBestFrameFromPrepared, hlast, h.lowerBound_eq hbelow hn]
  change (match videoStream.preparedFrames[n]? with | none => _ | some lower => _) = _
  rw [hget, hget]
  rcases hn.lt_or_eq with hlt | rfl
  · rw [List.getElem?_eq_getElem hlt]
    by_cases hlt' : n + 1 < frames.length
    · have hs : sampleTime ≤ frames[n].timeSecondsEst :=
        not_lt.mp fun hlow => Nat.lt_irrefl n ((hbelow n hlt).mp hlow)
      have hle : frames[n].timeSecondsEst ≤ frames[n + 1].timeSecondsEst :=
        List.pairwise_iff_getElem.mp h.sorted n (n + 1) hlt hlt' (Nat.lt_succ_self n)
      rw [List.getElem?_eq_getElem hlt']
      have hdiff := lowerDiff_le hs hle
      by_cases hfar : 0 < tolerance ∧ tolerance < |frames[n].timeSecondsEst - sampleTime|
      · simp [hdiff, hfar, hlt', bind, Except.bind, pure, Except.pure]
      · rw [if_neg (by simpa [hlt'] using hfar)]
        simp [hdiff, hfar, bind, Except.bind, pure, Except.pure]
    · have heq : frames.getLast hne = frames[n] := by
        rw [List.getLast_eq_getElem]
        congr 1
        omega
      rw [List.getElem?_eq_none (by omega)]
      simp [heq, hlt', bind, Except.bind, pure, Except.pure]
  · rw [List.getElem?_eq_none le_rfl]
    simp [bind, Except.bind, pure, Except.pure]

/-- Without a tolerance the search always answers. -/
lemma PreparedAs.pickBestPreparedFrame_eq (h : videoStream.PreparedAs frames)
    (hne : frames ≠ [])
    (hbelow : ∀ (i : Nat) (hi : i < frames.length), frames[i].timeSecondsEst < sampleTime ↔ i < n)
    (hn : n ≤ frames.length) :
    videoStream.ffmpegVideoStreamPickBestPreparedFrame sampleTime =
      .ok (some (ffmpegCloneFrame (frames[n]?.getD (frames.getLast hne)))) := by
  rw [ffmpegVideoStreamPickBestPreparedFrame, h.pickBestFrameFromPrepared_eq hne hbelow hn]
  norm_num

/-- Whatever the search is given, it returns a clone of one of the prepared frames. -/
lemma pickBestFrameFromPrepared_mem {tolerance : ℚ} {frame : FFmpegVideoFrameImpl}
    (h : videoStream.ffmpegVideoStreamPickBestFrameFromPrepared sampleTime tolerance =
      .ok (some frame)) :
    ∃ targetFrame, some targetFrame ∈ videoStream.preparedFrames ∧
      frame = ffmpegCloneFrame targetFrame := by
  have hclone : ∀ entry ∈ videoStream.preparedFrames,
      (FFmpegVideoFrameImpl.deref entry >>= fun targetFrame =>
        (pure (some (ffmpegCloneFrame targetFrame)) : Except Fault _)) = .ok (some frame) →
      ∃ targetFrame, some targetFrame ∈ videoStream.preparedFrames ∧
        frame = ffmpegCloneFrame targetFrame := by
    intro entry hentry hframe
    cases entry with
    | none => cases hframe
    | some targetFrame =>
      cases hframe
      exact ⟨targetFrame, hentry, rfl⟩
  unfold ffmpegVideoStreamPickBestFrameFromPrepared at h
  dsimp only at h
  split at h
  next => cases h
  next back hback =>
    have hback := hclone back (List.mem_of_getLast? hback)
    obtain ⟨n, -, h⟩ := Runs.bind_ok.mp h
    split at h
    next => exact hback h
    next lower hlower =>
      split at h
      next => exact hback h
      next upper hupper =>
        obtain ⟨lowerTime, -, h⟩ := Runs.bind_ok.mp h
        obtain ⟨upperTime, -, h⟩ := Runs.bind_ok.mp h
        split at h
        next => cases h
        next =>
          apply hclone _ _ h
          split
          · exact List.mem_of_getElem? hlower
          · exact List.mem_of_getElem? hupper

end

/-! ### The nearest frame -/

/-- The answer is a clone of a frame whose time is nearest to the sample time. -/
def PicksNearest (frames : List FFmpegVideoFrameImpl) (sampleTime : ℚ) : Prop :=
  ∃ frame, Search.IsNearest FFmpegVideoFrameImpl.timeSecondsEst sampleTime frames frame ∧
    videoStream.ffmpegVideoStreamPickBestPreparedFrame sampleTime =
      .ok (some (ffmpegCloneFrame frame))

/-- As soon as some frame is not before the sample time, one of these is as near as any frame
before it. -/
def LaterIsNearer (frames : List FFmpegVideoFrameImpl) (sampleTime : ℚ) : Prop :=
  ∀ earlier ∈ frames, earlier.timeSecondsEst < sampleTime →
    (∃ frame ∈ frames, sampleTime ≤ frame.timeSecondsEst) →
      ∃ later ∈ frames, sampleTime ≤ later.timeSecondsEst ∧
        later.timeSecondsEst - sampleTime ≤ sampleTime - earlier.timeSecondsEst

section

variable {frames : List FFmpegVideoFrameImpl} {sampleTime : ℚ} {frame : FFmpegVideoFrameImpl}

/-- Behind the sample time only the first frame counts. -/
lemma laterIsNearer_iff (hframe : frame ∈ frames) (hs : sampleTime ≤ frame.timeSecondsEst)
    (hleast : ∀ g ∈ frames, sampleTime ≤ g.timeSecondsEst →
      frame.timeSecondsEst ≤ g.timeSecondsEst) :
    LaterIsNearer frames sampleTime ↔ ∀ earlier ∈ frames, earlier.timeSecondsEst < sampleTime →
      frame.timeSecondsEst - sampleTime ≤ sampleTime - earlier.timeSecondsEst := by
  constructor
  · intro h earlier hearlier hlt
    obtain ⟨later, hlater, hs', hle⟩ := h earlier hearlier hlt ⟨frame, hframe, hs⟩
    exact (sub_le_sub_right (hleast later hlater hs') sampleTime).trans hle
  · intro h earlier hearlier hlt _
    exact ⟨frame, hframe, hs, h earlier hearlier hlt⟩

/-- The answer to a list of prepared frames is a clone of a nearest frame if and only if one of the
frames that are not before the sample time, should there be any, is as near as any frame before. -/
theorem picksNearest_iff {videoStream : FFmpegVideoStreamImpl}
    (h : videoStream.PreparedAs frames) (hne : frames ≠ []) (sampleTime : ℚ) :
    videoStream.PicksNearest frames sampleTime ↔ LaterIsNearer frames sampleTime := by
  obtain ⟨n, hn, hbelow⟩ := Search.exists_lowerBound h.sorted sampleTime
  have hpick := h.pickBestPreparedFrame_eq hne hbelow hn
  rcases hn.lt_or_eq with hlt | rfl
  · -- the answer is the first frame that is not before
    have hs : sampleTime ≤ frames[n].timeSecondsEst :=
      not_lt.mp fun hlow => Nat.lt_irrefl n ((hbelow n hlt).mp hlow)
    have hleast : ∀ g ∈ frames, sampleTime ≤ g.timeSecondsEst →
        frames[n].timeSecondsEst ≤ g.timeSecondsEst := by
      intro g hg hge
      obtain ⟨i, hi, rfl⟩ := List.getElem_of_mem hg
      have hni : n ≤ i := not_lt.mp fun hin => not_lt.mpr hge ((hbelow i hi).mpr hin)
      rcases hni.lt_or_eq with hlt' | rfl
      · exact List.pairwise_iff_getElem.mp h.sorted n i hlt hi hlt'
      · exact le_rfl
    rw [laterIsNearer_iff (List.getElem_mem hlt) hs hleast,
      ← Search.isNearest_of_least (List.getElem_mem hlt) hs hleast]
    rw [List.getElem?_eq_getElem hlt, Option.getD_some] at hpick
    constructor
    · rintro ⟨frame, hnear, hanswer⟩
      rw [hpick] at hanswer
      have hclone := Option.some.inj (Except.ok.inj hanswer)
      have htime : frames[n].timeSecondsEst = frame.timeSecondsEst := by
        simpa using congrArg FFmpegVideoFrameImpl.timeSecondsEst hclone
      refine ⟨List.getElem_mem hlt, ?_⟩
      rw [htime]
      exact hnear.2
    · intro hnear
      exact ⟨_, hnear, hpick⟩
  · -- every frame is before, the answer is the last one
    rw [List.getElem?_eq_none le_rfl, Option.getD_none] at hpick
    have hs : ∀ g ∈ frames, g.timeSecondsEst < sampleTime := by
      intro g hg
      obtain ⟨i, hi, rfl⟩ := List.getElem_of_mem hg
      exact (hbelow i hi).mpr hi
    refine iff_of_true ⟨_, Search.isNearest_of_greatest (List.getLast_mem hne) hs ?_, hpick⟩ ?_
    · intro g hg
      obtain ⟨i, hi, rfl⟩ := List.getElem_of_mem hg
      rw [List.getLast_eq_getElem]
      rcases Nat.le_sub_one_of_lt hi |>.lt_or_eq with hlt | rfl
      · exact List.pairwise_iff_getElem.mp h.sorted i _ hi _ hlt
      · exact le_rfl
    · rintro - - - ⟨frame, hframe, hge⟩
      exact absurd (hs frame hframe) (not_lt.mpr hge)

end

/-- A stream of two frames, 10 seconds apart. -/
def tenSecondsApart : FFmpegVideoStreamImpl :=
  ⟨[some ⟨0, none⟩, some ⟨10, none⟩], 0, 2, 20, 10, 1, 1, 1⟩

lemma tenSecondsApart_prepared : tenSecondsApart.PreparedAs [⟨0, none⟩, ⟨10, none⟩] :=
  ⟨rfl, by simp⟩

theorem picksNearest_six :
    tenSecondsApart.PicksNearest [⟨0, none⟩, ⟨10, none⟩] 6 ↔
      LaterIsNearer [⟨0, none⟩, ⟨10, none⟩] 6 :=
  picksNearest_iff tenSecondsApart_prepared (by simp) 6

/-- One second behind the first of the two frames, the answer is the second. -/
theorem not_picksNearest :
    ¬ ∀ (videoStream : FFmpegVideoStreamImpl) (frames : List FFmpegVideoFrameImpl) (sampleTime : ℚ),
      videoStream.PreparedAs frames → frames ≠ [] → videoStream.PicksNearest frames sampleTime := by
  intro h
  obtain ⟨frame, hnear, hanswer⟩ := h _ _ 1 tenSecondsApart_prepared (by simp)
  have hpick : tenSecondsApart.ffmpegVideoStreamPickBestPreparedFrame 1 = _ :=
    tenSecondsApart_prepared.pickBestPreparedFrame_eq (n := 1) (by simp) (by
      intro i hi
      rcases i with _ | _ | i
      · simp
      · simp
      · simp only [List.length_cons, List.length_nil] at hi
        omega) (by simp)
  rw [hpick] at hanswer
  have hclone := Option.some.inj (Except.ok.inj hanswer)
  have htime : (10 : ℚ) = frame.timeSecondsEst := by
    simpa using congrArg FFmpegVideoFrameImpl.timeSecondsEst hclone
  have hle := hnear.2 ⟨0, none⟩ (by simp)
  rw [← htime] at hle
  norm_num at hle

end FFmpegVideoStreamImpl

end GifTools
