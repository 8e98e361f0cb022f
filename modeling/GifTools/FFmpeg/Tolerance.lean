import GifTools.FFmpeg.Prepare
import Mathlib.Algebra.Order.Field.Basic

/-!
# Prepared frames in the place of decoded ones

`ffmpegVideoStreamPickBestFrame` looks among the prepared frames before it decodes, and takes one
that is less than half a frame away. The search compares with this tolerance only if two frames are
left at the place where it ends; the last frame is taken however far it is, and a frame before the
sample time is never looked at.
-/

namespace GifTools.FFmpegVideoStreamImpl

variable (videoStream : FFmpegVideoStreamImpl)

/-- What `ffmpegVideoStreamPickBestFrame` does without a prepared frame. -/
def decodeBestFrame (sampleTime : ℚ) (imageFilled : Bool) (answers : List Answer) :
    Except LoopFault (FFmpegVideoStreamImpl × DecodeResult) :=
  if !imageFilled then .ok (videoStream, .frame none)
  else finish .pickBestFrame (DecodeLoop.start videoStream sampleTime) answers

/-- The answer is a clone of this prepared frame, and FFmpeg is not asked. -/
def AnswersWith (frames : List FFmpegVideoFrameImpl) (sampleTime : ℚ)
    (frame : FFmpegVideoFrameImpl) : Prop :=
  frame ∈ frames ∧ ∀ imageFilled answers,
    videoStream.ffmpegVideoStreamPickBestFrame sampleTime imageFilled answers =
      .ok (videoStream, .frame (some (ffmpegCloneFrame frame)))

/-- A prepared frame is the answer if and only if there is one within half a frame, it is one of
these, and in all other cases the frame is decoded. -/
structure AnswersWithin (frames : List FFmpegVideoFrameImpl) (sampleTime : ℚ) : Prop where
  answers : (∃ frame, videoStream.AnswersWith frames sampleTime frame) ↔
    ∃ frame ∈ frames, |frame.timeSecondsEst - sampleTime| ≤ videoStream.frameDurationSeconds / 2
  within : ∀ frame, videoStream.AnswersWith frames sampleTime frame →
    |frame.timeSecondsEst - sampleTime| ≤ videoStream.frameDurationSeconds / 2
  decodes : (¬ ∃ frame, videoStream.AnswersWith frames sampleTime frame) →
    ∀ imageFilled answers,
      videoStream.ffmpegVideoStreamPickBestFrame sampleTime imageFilled answers =
        videoStream.decodeBestFrame sampleTime imageFilled answers

/-- If at most one frame is not before the sample time, the last frame is within the tolerance.
Otherwise, if a frame before the sample time is, then so is one that is not before. -/
def ToleranceHolds (frames : List FFmpegVideoFrameImpl) (sampleTime tolerance : ℚ) : Prop :=
  if frames.countP (fun frame => sampleTime ≤ frame.timeSecondsEst) ≤ 1 then
    ∀ last ∈ frames.getLast?, |last.timeSecondsEst - sampleTime| ≤ tolerance
  else
    ∀ earlier ∈ frames, earlier.timeSecondsEst < sampleTime →
      sampleTime - earlier.timeSecondsEst ≤ tolerance →
        ∃ later ∈ frames, sampleTime ≤ later.timeSecondsEst ∧
          later.timeSecondsEst - sampleTime ≤ tolerance

variable {videoStream} {frames : List FFmpegVideoFrameImpl} {sampleTime : ℚ}
  {frame : FFmpegVideoFrameImpl} {n : Nat}

/-! ### The two outcomes of the search -/

/-- The search finds a frame. -/
lemma pickBestFrame_of_some {preparedFrame : FFmpegVideoFrameImpl}
    (h : videoStream.ffmpegVideoStreamPickBestFrameFromPrepared sampleTime
      (videoStream.frameDurationSeconds * (1 / 2)) = .ok (some preparedFrame))
    (imageFilled : Bool) (answers : List Answer) :
    videoStream.ffmpegVideoStreamPickBestFrame sampleTime imageFilled answers =
      .ok (videoStream, .frame (some preparedFrame)) := by
  simp only [ffmpegVideoStreamPickBestFrame, h]

/-- The search finds none. -/
lemma pickBestFrame_of_none
    (h : videoStream.ffmpegVideoStreamPickBestFrameFromPrepared sampleTime
      (videoStream.frameDurationSeconds * (1 / 2)) = .ok none)
    (imageFilled : Bool) (answers : List Answer) :
    videoStream.ffmpegVideoStreamPickBestFrame sampleTime imageFilled answers =
      videoStream.decodeBestFrame sampleTime imageFilled answers := by
  simp only [ffmpegVideoStreamPickBestFrame, h, decodeBestFrame]

/-- A decoder that was not answered has not returned. -/
lemma decodeBestFrame_nil : videoStream.decodeBestFrame sampleTime true [] = .error .running := rfl

/-- If the search finds a frame, what is asked for is that it is within half a frame. -/
lemma answersWithin_of_some (hframe : frame ∈ frames)
    (h : videoStream.ffmpegVideoStreamPickBestFrameFromPrepared sampleTime
      (videoStream.frameDurationSeconds * (1 / 2)) = .ok (some (ffmpegCloneFrame frame))) :
    videoStream.AnswersWithin frames sampleTime ↔
      |frame.timeSecondsEst - sampleTime| ≤ videoStream.frameDurationSeconds / 2 := by
  have hpick := pickBestFrame_of_some h
  have hanswers : videoStream.AnswersWith frames sampleTime frame := ⟨hframe, hpick⟩
  constructor
  · intro hwithin
    exact hwithin.within frame hanswers
  · intro hnear
    refine ⟨iff_of_true ⟨frame, hanswers⟩ ⟨frame, hframe, hnear⟩, ?_, ?_⟩
    · rintro other ⟨-, hother⟩
      have heq := (hother true []).symm.trans (hpick true [])
      simp only [Except.ok.injEq, Prod.mk.injEq, DecodeResult.frame.injEq, Option.some.injEq,
        true_and] at heq
      have htime := congrArg FFmpegVideoFrameImpl.timeSecondsEst heq
      simp only [timeSecondsEst_ffmpegCloneFrame] at htime
      rw [htime]
      exact hnear
    · intro hnone
      exact absurd ⟨frame, hanswers⟩ hnone

/-- If it finds none, what is asked for is that no frame is within half a frame. -/
lemma answersWithin_of_none
    (h : videoStream.ffmpegVideoStreamPickBestFrameFromPrepared sampleTime
      (videoStream.frameDurationSeconds * (1 / 2)) = .ok none) :
    videoStream.AnswersWithin frames sampleTime ↔ ∀ frame ∈ frames,
      videoStream.frameDurationSeconds / 2 < |frame.timeSecondsEst - sampleTime| := by
  have hpick := pickBestFrame_of_none h
  have hno : ¬ ∃ frame, videoStream.AnswersWith frames sampleTime frame := by
    rintro ⟨frame, -, hframe⟩
    have heq := (hframe true []).symm.trans (hpick true [])
    rw [decodeBestFrame_nil] at heq
    cases heq
  constructor
  · intro hwithin frame hframe
    by_contra hfar
    exact hno (hwithin.answers.mpr ⟨frame, hframe, not_lt.mp hfar⟩)
  · intro hfar
    refine ⟨iff_of_false hno ?_, fun frame hframe => absurd ⟨frame, hframe⟩ hno, fun _ => hpick⟩
    rintro ⟨frame, hframe, hnear⟩
    exact absurd hnear (not_le.mpr (hfar frame hframe))

/-! ### Where the tolerance is compared -/

/-- The frames that are not before the sample time are those behind the lower bound. -/
lemma countP_not_before (hbelow : ∀ (i : Nat) (hi : i < frames.length),
      frames[i].timeSecondsEst < sampleTime ↔ i < n) :
    frames.countP (fun frame => sampleTime ≤ frame.timeSecondsEst) = frames.length - n := by
  induction frames generalizing n with
  | nil => simp
  | cons frame frames ih =>
    have hhead := hbelow 0 (Nat.succ_pos _)
    cases n with
    | zero =>
      have htail := ih (n := 0) fun i hi => by
        simpa using hbelow (i + 1) (Nat.succ_lt_succ hi)
      simp only [List.getElem_cons_zero, Nat.lt_irrefl, iff_false, not_lt] at hhead
      simp [htail, hhead]
    | succ n =>
      have htail := ih (n := n) fun i hi => by
        simpa using hbelow (i + 1) (Nat.succ_lt_succ hi)
      simp only [List.getElem_cons_zero, Nat.succ_pos, iff_true] at hhead
      simp [htail, hhead]

/-- The frame at the lower bound is the nearest of those that are not before. -/
lemma PreparedAs.le_of_not_before (h : videoStream.PreparedAs frames)
    (hbelow : ∀ (i : Nat) (hi : i < frames.length), frames[i].timeSecondsEst < sampleTime ↔ i < n)
    (hlt : n < frames.length) {later : FFmpegVideoFrameImpl} (hlater : later ∈ frames)
    (hs : sampleTime ≤ later.timeSecondsEst) :
    frames[n].timeSecondsEst ≤ later.timeSecondsEst := by
  obtain ⟨i, hi, rfl⟩ := List.getElem_of_mem hlater
  have hni : n ≤ i := not_lt.mp fun hin => not_lt.mpr hs ((hbelow i hi).mpr hin)
  rcases hni.lt_or_eq with hlt' | rfl
  · exact List.pairwise_iff_getElem.mp h.sorted n i hlt hi hlt'
  · exact le_rfl

/-- Where the search compares, the frame at the lower bound counts for all that are not before. -/
lemma PreparedAs.toleranceHolds_iff (h : videoStream.PreparedAs frames)
    (hbelow : ∀ (i : Nat) (hi : i < frames.length), frames[i].timeSecondsEst < sampleTime ↔ i < n)
    (hlt : n + 1 < frames.length) (tolerance : ℚ) :
    ToleranceHolds frames sampleTime tolerance ↔
      (∃ frame ∈ frames, |frame.timeSecondsEst - sampleTime| ≤ tolerance) →
        |frames[n].timeSecondsEst - sampleTime| ≤ tolerance := by
  have hn : n < frames.length := Nat.lt_of_succ_lt hlt
  have hs : sampleTime ≤ frames[n].timeSecondsEst :=
    not_lt.mp fun hlow => Nat.lt_irrefl n ((hbelow n hn).mp hlow)
  have hcount : ¬ frames.countP (fun frame => sampleTime ≤ frame.timeSecondsEst) ≤ 1 := by
    rw [countP_not_before hbelow]
    omega
  have hleast : ∀ later ∈ frames, sampleTime ≤ later.timeSecondsEst →
      later.timeSecondsEst - sampleTime ≤ tolerance →
        |frames[n].timeSecondsEst - sampleTime| ≤ tolerance := by
    intro later hlater hs' hnear
    rw [abs_of_nonneg (sub_nonneg.mpr hs)]
    exact (sub_le_sub_right (h.le_of_not_before hbelow hn hlater hs') sampleTime).trans hnear
  rw [ToleranceHolds, if_neg hcount]
  constructor
  · rintro hearlier ⟨frame, hframe, hnear⟩
    rcases lt_or_ge frame.timeSecondsEst sampleTime with hbefore | hnot
    · rw [abs_sub_comm, abs_of_nonneg (sub_nonneg.mpr hbefore.le)] at hnear
      obtain ⟨later, hlater, hs', hnear'⟩ := hearlier frame hframe hbefore hnear
      exact hleast later hlater hs' hnear'
    · rw [abs_of_nonneg (sub_nonneg.mpr hnot)] at hnear
      exact hleast frame hframe hnot hnear
  · intro hnearest earlier hearlier hbefore hnear
    refine ⟨frames[n], List.getElem_mem hn, hs, ?_⟩
    have habs := hnearest ⟨earlier, hearlier, by
      rwa [abs_sub_comm, abs_of_nonneg (sub_nonneg.mpr hbefore.le)]⟩
    rwa [abs_of_nonneg (sub_nonneg.mpr hs)] at habs

/-- The last frame is the answer if no other follows the lower bound. -/
lemma toleranceHolds_iff_last (hne : frames ≠ [])
    (hbelow : ∀ (i : Nat) (hi : i < frames.length), frames[i].timeSecondsEst < sampleTime ↔ i < n)
    (hge : frames.length ≤ n + 1) (tolerance : ℚ) :
    ToleranceHolds frames sampleTime tolerance ↔
      |(frames.getLast hne).timeSecondsEst - sampleTime| ≤ tolerance := by
  have hcount : frames.countP (fun frame => sampleTime ≤ frame.timeSecondsEst) ≤ 1 := by
    rw [countP_not_before hbelow]
    omega
  rw [ToleranceHolds, if_pos hcount, List.getLast?_eq_some_getLast hne]
  simp

/-- A prepared frame is the answer exactly if one is within half a frame, and is then within half
a frame, if and only if the tolerance holds where the search does not look. -/
theorem answersWithin_iff (h : videoStream.PreparedAs frames)
    (hduration : 0 < videoStream.frameDurationSeconds) (sampleTime : ℚ) :
    videoStream.AnswersWithin frames sampleTime ↔
      ToleranceHolds frames sampleTime (videoStream.frameDurationSeconds / 2) := by
  by_cases hne : frames = []
  · subst hne
    have hnone : videoStream.ffmpegVideoStreamPickBestFrameFromPrepared sampleTime
        (videoStream.frameDurationSeconds * (1 / 2)) = .ok none := by
      simp [ffmpegVideoStreamPickBestFrameFromPrepared, h.entries]
    rw [answersWithin_of_none hnone]
    simp [ToleranceHolds]
  obtain ⟨n, hn, hbelow⟩ := Search.exists_lowerBound h.sorted sampleTime
  have hpick := h.pickBestFrameFromPrepared_eq hne hbelow hn
    (videoStream.frameDurationSeconds * (1 / 2))
  have hhalf : videoStream.frameDurationSeconds * (1 / 2) = videoStream.frameDurationSeconds / 2 :=
    mul_one_div _ _
  have hpos : 0 < videoStream.frameDurationSeconds / 2 := half_pos hduration
  by_cases hlt : n + 1 < frames.length
  · have hget : frames[n]?.getD (frames.getLast hne) = frames[n] := by
      rw [List.getElem?_eq_getElem (Nat.lt_of_succ_lt hlt), Option.getD_some]
    rw [h.toleranceHolds_iff hbelow hlt]
    rw [hget] at hpick
    by_cases hfar : videoStream.frameDurationSeconds / 2 <
        |frames[n].timeSecondsEst - sampleTime|
    · rw [if_pos (by rw [hhalf]; exact ⟨hpos, hlt, hfar⟩)] at hpick
      rw [answersWithin_of_none hpick]
      simp only [not_le.mpr hfar, imp_false, not_exists, not_and, not_le]
    · rw [if_neg (by rw [hhalf]; exact fun hall => hfar hall.2.2)] at hpick
      rw [answersWithin_of_some (List.getElem_mem _) hpick]
      exact iff_of_true (not_lt.mp hfar) fun _ => not_lt.mp hfar
  · have hget : frames[n]?.getD (frames.getLast hne) = frames.getLast hne := by
      rcases hn.lt_or_eq with hlt' | rfl
      · rw [List.getElem?_eq_getElem hlt', Option.getD_some, List.getLast_eq_getElem]
        congr 1
        omega
      · rw [List.getElem?_eq_none le_rfl, Option.getD_none]
    rw [toleranceHolds_iff_last hne hbelow (Nat.le_of_not_lt hlt)]
    rw [hget, if_neg fun hall => hlt hall.2.1] at hpick
    exact answersWithin_of_some (List.getLast_mem hne) hpick

/-- The tolerance holds next to the last frame. -/
theorem answersWithin_six :
    tenSecondsApart.AnswersWithin [⟨0, none⟩, ⟨10, none⟩] 6 ↔
      ToleranceHolds [⟨0, none⟩, ⟨10, none⟩] 6 (tenSecondsApart.frameDurationSeconds / 2) :=
  answersWithin_iff tenSecondsApart_prepared (by norm_num [tenSecondsApart]) 6

/-- Ninety seconds behind the last frame, it still is the answer. -/
theorem not_answersWithin :
    ¬ ∀ (videoStream : FFmpegVideoStreamImpl) (frames : List FFmpegVideoFrameImpl) (sampleTime : ℚ),
      videoStream.PreparedAs frames → 0 < videoStream.frameDurationSeconds →
        videoStream.AnswersWithin frames sampleTime := by
  intro h
  have hpick : tenSecondsApart.ffmpegVideoStreamPickBestFrameFromPrepared 100
      (tenSecondsApart.frameDurationSeconds * (1 / 2)) =
        .ok (some (ffmpegCloneFrame ⟨10, none⟩)) := by
    rw [tenSecondsApart_prepared.pickBestFrameFromPrepared_eq (n := 2) (by simp) (by
      intro i hi
      rcases i with _ | _ | i
      · norm_num
      · norm_num
      · simp only [List.length_cons, List.length_nil] at hi
        omega) (by simp)]
    simp
  have hwithin := (answersWithin_of_some (by simp) hpick).mp
    (h _ _ 100 tenSecondsApart_prepared (by norm_num [tenSecondsApart]))
  norm_num [tenSecondsApart] at hwithin

end GifTools.FFmpegVideoStreamImpl
