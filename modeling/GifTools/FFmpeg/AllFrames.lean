import GifTools.FFmpeg.BestFrame
import Mathlib.Data.List.Perm.Basic

/-!
# Preparing all frames

`ffmpegVideoStreamPrepareAllFrames` takes a negative time for the end of the stream, also if it is
the time of a picture. The pictures that are delivered after such a one are lost.
-/

namespace GifTools

open Runs DecodeLoop

namespace DecodeLoop

variable {s s' : DecodeLoop} {data : Option Nat} {timestamp : Int} {buffers : Nat → List UInt8}
  {scale : List UInt8 → List UInt8} {time : ℚ} {picture : List UInt8} {buffer : Nat}

/-- The loop has come to its end, and these frames are prepared, in the order of their times. -/
def Prepared (frames : List FFmpegVideoFrameImpl) (s : DecodeLoop) : Prop :=
  s.request = .returned (.count frames.length) ∧
    ∃ sorted, s.videoStream.PreparedAs sorted ∧ sorted.Perm frames

lemma Prepared.returned {frames : List FFmpegVideoFrameImpl} (h : s.Prepared frames) :
    s.Returned := ⟨_, h.1⟩

/-- A loop whose list has no empty handle sorts it and returns. -/
lemma leave_prepared {f : DecodeFunction} {frames : List FFmpegVideoFrameImpl}
    (hf : f ≠ .pickBestFrame) (hframes : s.videoStream.preparedFrames = frames.map some) :
    ∃ s', s.leave f = .ok s' ∧ s'.Prepared frames ∧ s'.codec = s.codec := by
  have hsort := FFmpegVideoStreamImpl.sortPreparedFrames_eq hframes
  have hleave : s.leave f = s.sortAndCount := by
    cases f with
    | pickBestFrame => exact absurd rfl hf
    | prepareAllFrames => rfl
    | prepareFrames desired => rfl
  refine ⟨DecodeLoop.ret { s with
      videoStream := { s.videoStream with
        preparedFrames := (frames.mergeSort fun lhs rhs =>
          decide (lhs.timeSecondsEst ≤ rhs.timeSecondsEst)).map some } }
      (.count frames.length), ?_, ⟨rfl, _,
    ⟨rfl, FFmpegVideoStreamImpl.pairwise_mergeSort_time frames⟩, List.mergeSort_perm frames _⟩, rfl⟩
  simp [hleave, sortAndCount, hsort, bind, Except.bind, pure, Except.pure]

/-- After the last picture a loop that prepares frames comes to its end. -/
lemma step_drained {f : DecodeFunction} (frames : List FFmpegVideoFrameImpl)
    (hf : f ≠ .pickBestFrame) (timestamp : Int) (buffers : Nat → List UInt8)
    (scale : List UInt8 → List UInt8) (hs : s.Waits true)
    (hframes : s.videoStream.preparedFrames ++ (s.atBody none timestamp buffers).entries
        (timestamp * s.videoStream.primaryStreamTimeBase) (some scale) f = frames.map some) :
    ∃ s', step f s (.decoded none timestamp buffers (some scale)) = .ok s' ∧
      s'.Prepared frames := by
  obtain ⟨heos, hdecode⟩ := hs
  have hleaves {s₁ : DecodeLoop} (turns : Turns f
      (timestamp * s.videoStream.primaryStreamTimeBase) (some scale)
        (s.atBody none timestamp buffers) s₁) :
      ∃ s', s₁.leave f = .ok s' ∧ s'.Prepared frames := by
    have hframes₁ : s₁.videoStream.preparedFrames = frames.map some := by
      rw [turns.videoStream]
      exact hframes
    obtain ⟨s', hleave, hprepared, -⟩ := leave_prepared hf hframes₁
    exact ⟨s', hleave, hprepared⟩
  have hends : BodyEnds f (timestamp * s.videoStream.primaryStreamTimeBase) (some scale)
    (s.atBody none timestamp buffers) _ := body_ends f rfl
  rw [step_body hdecode (.inr heos)]
  generalize (s.atBody none timestamp buffers).body _ (some scale) f = exit at hends
  cases hends with
  | @next s₁ turns =>
    have hend : s₁.endOfStream = true := turns.endOfStream.trans heos
    obtain ⟨s', hleave, hprepared⟩ := hleaves turns
    exact ⟨s', (if_neg (by simp [hend])).trans hleave, hprepared⟩
  | leave turns _ _ => exact hleaves turns
  | ret _ function _ => exact absurd function hf

/-! ### One answer -/

/-- The pictures so far were kept, in the order in which they were delivered. -/
structure Keeping (videoStream : FFmpegVideoStreamImpl) (scale : List UInt8 → List UInt8)
    (kept : List (ℚ × List UInt8)) (s : DecodeLoop) : Prop where
  sameStream : s.videoStream = { videoStream with
    preparedFrames := (kept.map (videoStream.frameOfPicture scale)).map some }
  nonneg : ∀ picture ∈ kept, 0 ≤ picture.1

section

variable {videoStream : FFmpegVideoStreamImpl} {kept : List (ℚ × List UInt8)}

lemma Keeping.of_sameChoice (h : Keeping videoStream scale kept s) (hsame : SameChoice s s') :
    Keeping videoStream scale kept s' :=
  ⟨hsame.videoStream.trans h.sameStream, h.nonneg⟩

/-- A picture whose time is not negative is kept. -/
lemma Keeping.step_nonneg (h : Keeping videoStream scale kept s) (hdecode : s.request = .decode)
    (hpicture : picture = (s.codec.decode (some buffer) buffers).buffers buffer)
    (h0 : 0 ≤ timestamp * videoStream.primaryStreamTimeBase) :
    ∃ s', step .prepareAllFrames s (.decoded (some buffer) timestamp buffers (some scale)) =
        .ok s' ∧ s'.codec = s.codec.decode (some buffer) buffers ∧ s'.Waits s.endOfStream ∧
      Keeping videoStream scale
        (kept ++ [(timestamp * videoStream.primaryStreamTimeBase, picture)]) s' := by
  subst hpicture
  have h0' : 0 ≤ timestamp * s.videoStream.primaryStreamTimeBase := by
    rw [h.sameStream]
    exact h0
  obtain ⟨s₁, hbody, turns⟩ := prepareAllFramesBody_of_nonneg (some scale)
    (s := s.atBody (some buffer) timestamp buffers) h0'
  obtain ⟨hstep, hcodec, hwaits⟩ := step_next (f := .prepareAllFrames) hdecode hbody turns
  refine ⟨_, hstep, hcodec, hwaits, ?_, ?_⟩
  · rw [search_videoStream, turns.videoStream, entries, if_neg (not_lt.mpr h0'), frameOf_current,
      atBody_videoStream, h.sameStream, List.map_append, List.map_append]
    rfl
  · intro picture hpicture
    rcases List.mem_append.mp hpicture with hpicture | hpicture
    · exact h.nonneg picture hpicture
    · rw [List.mem_singleton.mp hpicture]
      exact h0

/-- At a negative time the loop ends, whether there is a picture or not. -/
lemma Keeping.step_neg (h : Keeping videoStream scale kept s) (buffers : Nat → List UInt8)
    (hdecode : s.request = .decode) (hround : data.isSome ∨ s.endOfStream = true)
    (hneg : timestamp * videoStream.primaryStreamTimeBase < 0) :
    ∃ s', step .prepareAllFrames s (.decoded data timestamp buffers (some scale)) = .ok s' ∧
      s'.codec = s.codec.decode data buffers ∧
      s'.Prepared (kept.map (videoStream.frameOfPicture scale)) := by
  have hneg' : timestamp * s.videoStream.primaryStreamTimeBase < 0 := by
    rw [h.sameStream]
    exact hneg
  obtain ⟨hbody, -⟩ := prepareAllFramesBody_of_neg (some scale)
    (s := s.atBody data timestamp buffers) hneg'
  obtain ⟨s', hleave, hprepared, hcodec⟩ := leave_prepared (f := .prepareAllFrames)
    (s := s.atBody data timestamp buffers) (by simp) (congrArg _ h.sameStream)
  refine ⟨s', ?_, hcodec, hprepared⟩
  rw [step_body hdecode hround, body, hbody]
  exact hleave

end

end DecodeLoop

/-! ### Complete lists -/

namespace FFmpegVideoStreamImpl

variable (videoStream : FFmpegVideoStreamImpl)

/-- The pictures whose times are not negative. -/
def picturesToPrepare (answers : List Answer) : List (ℚ × List UInt8) :=
  (videoStream.pictures answers).filter fun picture => 0 ≤ picture.1

/-- The call prepares each picture whose time is not negative once, with its own time, sorts them
and returns their number. -/
def PreparesAll (scale : List UInt8 → List UInt8) (answers : List Answer) : Prop :=
  ∃ pre videoStream' frames, pre <+: answers ∧
    videoStream.ffmpegVideoStreamPrepareAllFrames true pre =
      .ok (videoStream', .count (videoStream.picturesToPrepare answers).length) ∧
    videoStream'.PreparedAs frames ∧
    frames.Perm ((videoStream.picturesToPrepare answers).map (videoStream.frameOfPicture scale))

/-- No picture whose time is not negative is delivered after one whose time is. -/
def NegativeLast (answers : List Answer) : Prop :=
  (videoStream.times answers).Pairwise fun earlier later => earlier < 0 → later < 0

variable {videoStream} {answers : List Answer} {scale : List UInt8 → List UInt8}
  {kept rest : List (ℚ × List UInt8)}

/-- Cut the pictures where the first time is negative. -/
structure Cut (videoStream : FFmpegVideoStreamImpl) (answers : List Answer)
    (kept rest : List (ℚ × List UInt8)) : Prop where
  all : kept ++ rest = videoStream.pictures answers
  nonneg : ∀ picture ∈ kept, 0 ≤ picture.1
  neg : ∀ picture ∈ rest.head?, picture.1 < 0

/-- All are kept if and only if there is nothing to prepare in the rest. -/
lemma Cut.negativeLast_iff (h : videoStream.Cut answers kept rest) :
    videoStream.NegativeLast answers ↔ ∀ picture ∈ rest, picture.1 < 0 := by
  obtain ⟨hall, hkept, hrest⟩ := h
  rw [NegativeLast, times, ← map_fst_picturesFrom _ .flushed, ← pictures, ← hall,
    List.pairwise_map]
  constructor
  · intro h picture hpicture
    cases rest with
    | nil => cases hpicture
    | cons first rest =>
      have hfirst : first.1 < 0 := hrest first rfl
      rcases List.mem_cons.mp hpicture with rfl | hpicture
      · exact hfirst
      · exact List.rel_of_pairwise_cons (List.pairwise_append.mp h).2.1 hpicture hfirst
  · intro h
    refine List.pairwise_append.mpr ⟨?_, ?_, ?_⟩
    · exact List.pairwise_of_forall_mem_list fun p hp _ _ hneg =>
        absurd hneg (not_lt.mpr (hkept p hp))
    · exact List.pairwise_of_forall_mem_list fun _ _ q hq _ => h q hq
    · intro p hp q _ hneg
      exact absurd hneg (not_lt.mpr (hkept p hp))

lemma Cut.picturesToPrepare (h : videoStream.Cut answers kept rest) :
    videoStream.picturesToPrepare answers =
      kept ++ rest.filter fun picture => 0 ≤ picture.1 := by
  rw [FFmpegVideoStreamImpl.picturesToPrepare, ← h.all, List.filter_append]
  congr 1
  rw [List.filter_eq_self]
  exact fun picture hpicture => decide_eq_true (h.nonneg picture hpicture)

lemma returnsWith_kept (h : WholeStream videoStream.primaryStreamIndex scale answers)
    (hnegative : videoStream.NegativeWithoutPicture answers) :
    ReturnsWith .prepareAllFrames videoStream.primaryStreamTimeBase
      (fun _ s => ∃ kept rest, videoStream.Cut answers kept rest ∧
        s.Prepared (kept.map (videoStream.frameOfPicture scale)))
      [] (start videoStream.clearPreparedFrames 0) answers := by
  refine PictureRule.returnsWith (I := fun done pics s =>
    done ++ pics = videoStream.pictures answers ∧ Keeping videoStream scale done s)
    ⟨?_, ?_, ?_, ?_⟩ h List.suffix_rfl ?_ ⟨rfl, rfl⟩
  · rintro done pics s ⟨-, hI⟩
    rw [hI.sameStream]
  · rintro done pics s s' ⟨hall, hI⟩ hsame
    exact ⟨hall, hI.of_sameChoice hsame⟩
  · rintro buffer timestamp buffers done pics s picture hpicture ⟨hall, hI⟩ hdecode
    rcases lt_or_ge (timestamp * videoStream.primaryStreamTimeBase) 0 with hneg | h0
    · obtain ⟨s', hstep, hcodec, hprepared⟩ := hI.step_neg buffers hdecode
        (.inl Option.isSome_some) hneg
      refine ⟨s', hstep, hcodec, .inl ⟨hprepared.returned, done, _, ⟨hall, hI.nonneg, ?_⟩,
        hprepared⟩⟩
      simpa using hneg
    · obtain ⟨s', hstep, hcodec, hwaits, hI'⟩ := hI.step_nonneg hdecode hpicture h0
      exact ⟨s', hstep, hcodec, .inr ⟨hwaits, by simpa using hall, hI'⟩⟩
  · rintro timestamp buffers done s hlast ⟨hall, hI⟩ hs
    obtain ⟨s', hstep, -, hprepared⟩ := hI.step_neg buffers hs.2 (.inr hs.1)
      (hnegative timestamp buffers (some scale) hlast)
    exact ⟨s', hstep, hprepared.returned, done, [], ⟨hall, hI.nonneg, by simp⟩, hprepared⟩
  · exact ⟨rfl, rfl, by simp⟩

/-- What is prepared when all is: the pictures before the first whose time is negative. -/
lemma PreparesAll.cut (hall : videoStream.PreparesAll scale answers)
    (h : WholeStream videoStream.primaryStreamIndex scale answers)
    (hnegative : videoStream.NegativeWithoutPicture answers) :
    ∃ kept rest, videoStream.Cut answers kept rest ∧
      (videoStream.picturesToPrepare answers).length = kept.length := by
  obtain ⟨pre, videoStream', frames, hpre, hcall, -⟩ := hall
  obtain ⟨s, hrun, hreturned, -⟩ := finish_ok hcall
  obtain ⟨-, s', -, -, -, hcount, kept, rest, hcut, hprepared⟩ := Stops.and
    (Q := fun _ s => s.request =
      .returned (.count (videoStream.picturesToPrepare answers).length))
    step_ne_of_returned ⟨pre, s, hpre, hrun, ⟨_, hreturned⟩, hreturned⟩
    (returnsWith_kept h hnegative)
  refine ⟨kept, rest, hcut, ?_⟩
  have hlength := DecodeResult.count.inj (Request.returned.inj (hcount.symm.trans hprepared.1))
  rwa [List.length_map] at hlength

/-- All pictures whose times are not negative are prepared if and only if none of them is delivered
after one whose time is negative. -/
theorem preparesAll_iff (h : WholeStream videoStream.primaryStreamIndex scale answers)
    (hnegative : videoStream.NegativeWithoutPicture answers) :
    videoStream.PreparesAll scale answers ↔ videoStream.NegativeLast answers := by
  have hnone {rest : List (ℚ × List UInt8)} :
      (rest.filter fun picture => decide (0 ≤ picture.1)) = [] ↔
        ∀ picture ∈ rest, picture.1 < 0 := by
    simp [List.filter_eq_nil_iff]
  constructor
  · intro hprepares
    obtain ⟨kept, rest, hcut, hlength⟩ := hprepares.cut h hnegative
    rw [hcut.picturesToPrepare, List.length_append] at hlength
    rw [hcut.negativeLast_iff, ← hnone, ← List.length_eq_zero_iff]
    omega
  · intro hlast
    obtain ⟨pre, s, hpre, hrun, -, kept, rest, hcut, hreturned, frames, hprepared, hperm⟩ :=
      returnsWith_kept h hnegative
    have hkept : videoStream.picturesToPrepare answers = kept := by
      rw [hcut.picturesToPrepare, hnone.mpr (hcut.negativeLast_iff.mp hlast), List.append_nil]
    rw [List.length_map] at hreturned
    refine ⟨pre, s.videoStream, frames, hpre, ?_, hprepared, ?_⟩
    · rw [hkept]
      exact finish_of_run hrun hreturned
    · rw [hkept]
      exact hperm

theorem preparesAll_lateStart :
    opened.PreparesAll id lateStart ↔ opened.NegativeLast lateStart :=
  preparesAll_iff wholeStream_lateStart negativeWithoutPicture_lateStart

/-- A picture before 0 seconds, as a stream has it whose first pictures are not to be shown, and one
at 0 seconds. -/
def earlyStart : List Answer :=
  [.packet ⟨0, [7]⟩, .decoded (some 0) (-1) (fun _ => [1, 1, 1, 255]) (some id),
    .packet ⟨0, [8]⟩, .decoded (some 1) 0 (fun _ => [2, 2, 2, 255]) (some id), .endOfFile,
    .decoded none (-1) (fun _ => []) (some id)]

lemma wholeStream_earlyStart : WholeStream opened.primaryStreamIndex id earlyStart :=
  .decoded rfl (.decoded rfl (.endOfFile (.drained (-1) fun _ => [])))

lemma negativeWithoutPicture_earlyStart : opened.NegativeWithoutPicture earlyStart := by
  intro timestamp buffers sws_scale hlast
  cases Option.mem_some_iff.mp hlast
  norm_num [opened]

/-- The picture at 0 seconds is not asked for. -/
theorem not_preparesAll :
    ¬ ∀ (videoStream : FFmpegVideoStreamImpl) (scale : List UInt8 → List UInt8)
      (answers : List Answer), WholeStream videoStream.primaryStreamIndex scale answers →
        videoStream.NegativeWithoutPicture answers → videoStream.PreparesAll scale answers := by
  intro h
  obtain ⟨kept, rest, hcut, hlength⟩ :=
    (h opened id earlyStart wholeStream_earlyStart negativeWithoutPicture_earlyStart).cut
      wholeStream_earlyStart negativeWithoutPicture_earlyStart
  have hpics : opened.pictures earlyStart = [(-1, [1, 1, 1, 255]), (0, [2, 2, 2, 255])] := by
    norm_num [pictures, picturesFrom, earlyStart, AVCodecInternal.decode, AVCodecInternal.flushed,
      opened]
    simp
  obtain rfl : kept = [] := by
    cases kept with
    | nil => rfl
    | cons first kept =>
      have hall := hcut.all
      rw [hpics, List.cons_append, List.cons.injEq] at hall
      have := hcut.nonneg first List.mem_cons_self
      rw [hall.1] at this
      norm_num at this
  rw [FFmpegVideoStreamImpl.picturesToPrepare, hpics] at hlength
  norm_num [List.filter] at hlength

end FFmpegVideoStreamImpl

end GifTools
