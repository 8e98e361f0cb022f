import GifTools.FFmpeg.Rounds
import Mathlib.Data.List.Sort
import Mathlib.Tactic.NormNum

/-!
# The prepared frames between two calls

The prepared frames are sorted when a loop that prepares them comes to its end, not when it returns
in the middle because FFmpeg failed; and `ffmpegVideoStreamPrepareAllFrames` keeps an empty handle
for a frame that could not be scaled. So the list is ready to be searched after every call if the
pictures it shows can be scaled there, and if the loops that are interrupted were given pictures in
the order of their times, and made frames of them in this order.
-/

namespace GifTools

open Runs DecodeLoop

/-! ### Calls -/

namespace FFmpegVideoStreamImpl

variable (videoStream : FFmpegVideoStreamImpl)

/-- A loop runs until it returns. -/
def finish (f : DecodeFunction) (s : DecodeLoop) (answers : List Answer) :
    Except LoopFault (FFmpegVideoStreamImpl × DecodeResult) := do
  let s ← run (DecodeLoop.step f) s answers
  match s.request with
  | .returned result => return (s.videoStream, result)
  | _ => .error .running

/-- `imageFilled` is whether `av_image_fill_arrays` succeeds. -/
def ffmpegVideoStreamPrepareAllFrames (imageFilled : Bool) (answers : List Answer) :
    Except LoopFault (FFmpegVideoStreamImpl × DecodeResult) :=
  if !imageFilled then .ok (videoStream, .count 0)
  else finish .prepareAllFrames (start videoStream.clearPreparedFrames 0) answers

/-- `framesPerSecond >= double(frameCount) / durationSeconds`, where a division by zero gives an
infinite number, or none. -/
def reachesMaxFramesPerSecond (framesPerSecond : ℚ) : Bool :=
  if videoStream.durationSeconds = 0 then videoStream.frameCount < 0
  else videoStream.frameCount / videoStream.durationSeconds ≤ framesPerSecond

def ffmpegVideoStreamPrepareFrames (framesPerSecond : ℚ) (imageFilled : Bool)
    (answers : List Answer) : Except LoopFault (FFmpegVideoStreamImpl × DecodeResult) :=
  if framesPerSecond ≤ 1 / 10000 then
    videoStream.ffmpegVideoStreamPrepareAllFrames imageFilled answers
  else if videoStream.reachesMaxFramesPerSecond framesPerSecond then
    videoStream.ffmpegVideoStreamPrepareAllFrames imageFilled answers
  else if !imageFilled then .ok (videoStream, .count 0)
  else
    finish (.prepareFrames (1 / framesPerSecond)) (start videoStream.clearPreparedFrames 0) answers

def ffmpegVideoStreamPickBestFrame (sampleTime : ℚ) (imageFilled : Bool) (answers : List Answer) :
    Except LoopFault (FFmpegVideoStreamImpl × DecodeResult) :=
  match videoStream.ffmpegVideoStreamPickBestFrameFromPrepared sampleTime
    (videoStream.frameDurationSeconds * (1 / 2)) with
  | .error _ => .error .nullDeref
  | .ok (some preparedFrame) => .ok (videoStream, .frame (some preparedFrame))
  | .ok none =>
    if !imageFilled then .ok (videoStream, .frame none)
    else finish .pickBestFrame (start videoStream sampleTime) answers

end FFmpegVideoStreamImpl

/-- The calls on an open stream. -/
inductive StreamCall where
  | prepareAllFrames (imageFilled : Bool) (answers : List Answer)
  | prepareFrames (framesPerSecond : ℚ) (imageFilled : Bool) (answers : List Answer)
  | pickBestFrame (sampleTime : ℚ) (imageFilled : Bool) (answers : List Answer)
  | pickBestPreparedFrame (sampleTime : ℚ)
  | clearPreparedFrames

namespace FFmpegVideoStreamImpl

/-- The stream after a call that returns. -/
def callStep (videoStream : FFmpegVideoStreamImpl) :
    StreamCall → Except LoopFault FFmpegVideoStreamImpl
  | .prepareAllFrames imageFilled answers =>
    (videoStream.ffmpegVideoStreamPrepareAllFrames imageFilled answers).map Prod.fst
  | .prepareFrames framesPerSecond imageFilled answers =>
    (videoStream.ffmpegVideoStreamPrepareFrames framesPerSecond imageFilled answers).map Prod.fst
  | .pickBestFrame sampleTime imageFilled answers =>
    (videoStream.ffmpegVideoStreamPickBestFrame sampleTime imageFilled answers).map Prod.fst
  | .pickBestPreparedFrame sampleTime =>
    match videoStream.ffmpegVideoStreamPickBestPreparedFrame sampleTime with
    | .error _ => .error .nullDeref
    | .ok _ => .ok videoStream
  | .clearPreparedFrames => .ok videoStream.clearPreparedFrames

/-- The prepared frames are sorted by time and there is no empty handle among them. -/
def Ready (videoStream : FFmpegVideoStreamImpl) : Prop := ∃ frames, videoStream.PreparedAs frames

end FFmpegVideoStreamImpl

/-! ### What is asked of the answers -/

/-- The time of a picture that is delivered. -/
def Answer.time (timeBase : ℚ) : Answer → Option ℚ
  | .decoded (some _) timestamp _ _ => some (timestamp * timeBase)
  | _ => none

/-- FFmpeg fails in the middle of the loop. -/
def Interrupted (answers : List Answer) : Prop :=
  .readError ∈ answers ∨ .decodeError ∈ answers

namespace FFmpegVideoStreamImpl

variable (videoStream : FFmpegVideoStreamImpl)

/-- The times of the pictures that are delivered. -/
def times (answers : List Answer) : List ℚ :=
  answers.filterMap (Answer.time videoStream.primaryStreamTimeBase)

/-- `sws_scale` fails for no picture that is shown. -/
def ScalerWorks (answers : List Answer) : Prop :=
  ∀ buffer (timestamp : Int) buffers, .decoded (some buffer) timestamp buffers none ∈ answers →
    timestamp * videoStream.primaryStreamTimeBase < 0

/-- The pictures come in the order of their times, and a loop that samples takes no previous picture
directly after it took a current one that is good: that one may be later. -/
def InOrder (times : List ℚ) : DecodeFunction → Prop
  | .pickBestFrame => True
  | .prepareAllFrames => times.Pairwise (· ≤ ·)
  | .prepareFrames desired => (∀ t ∈ times, 0 ≤ t) ∧ times.Pairwise (· ≤ ·) ∧
    (Sampler.start.branches videoStream.frameDurationSeconds desired times).IsChain
      fun branch next => branch = .currentGood → next ≠ .previousCloser

/-- A loop that keeps empty handles is given none, and one that is interrupted its pictures in
order. -/
def Prepares (answers : List Answer) (f : DecodeFunction) : Prop :=
  (f = .prepareAllFrames → videoStream.ScalerWorks answers) ∧
    (Interrupted answers → videoStream.InOrder (videoStream.times answers) f)

/-- The loop `ffmpegVideoStreamPrepareFrames` runs. -/
def prepareFunction (framesPerSecond : ℚ) : DecodeFunction :=
  if framesPerSecond ≤ 1 / 10000 then .prepareAllFrames
  else if videoStream.reachesMaxFramesPerSecond framesPerSecond then .prepareAllFrames
  else .prepareFrames (1 / framesPerSecond)

/-- What is asked of a call that prepares frames. -/
def CallFits : StreamCall → Prop
  | .prepareAllFrames true answers => videoStream.Prepares answers .prepareAllFrames
  | .prepareFrames framesPerSecond true answers =>
    videoStream.Prepares answers (videoStream.prepareFunction framesPerSecond)
  | _ => True

end FFmpegVideoStreamImpl

/-! ### The list of prepared frames -/

namespace FFmpegVideoStreamImpl

variable {videoStream videoStream' : FFmpegVideoStreamImpl} {frame : FFmpegVideoFrameImpl}

/-- No empty handle among the prepared frames. -/
def NonNull (videoStream : FFmpegVideoStreamImpl) : Prop := none ∉ videoStream.preparedFrames

lemma Ready.nonNull (h : videoStream.Ready) : videoStream.NonNull := by
  obtain ⟨frames, hentries, -⟩ := h
  simp [NonNull, hentries]

lemma ready_of_nil (h : videoStream.preparedFrames = []) : videoStream.Ready :=
  ⟨[], h, .nil⟩

/-- A frame may be added behind those that are not later. -/
lemma ready_append (h : videoStream.Ready)
    (hentries : videoStream'.preparedFrames = videoStream.preparedFrames ++ [some frame])
    (hle : ∀ g, some g ∈ videoStream.preparedFrames → g.timeSecondsEst ≤ frame.timeSecondsEst) :
    videoStream'.Ready := by
  obtain ⟨frames, hframes, hsorted⟩ := h
  refine ⟨frames ++ [frame], by simp [hentries, hframes], ?_⟩
  refine List.pairwise_append.mpr ⟨hsorted, List.pairwise_singleton _ _, ?_⟩
  intro g hg frame' hframe'
  rw [List.mem_singleton.mp hframe']
  exact hle g (by simp [hframes, hg])

lemma exists_map_some {entries : List (Option FFmpegVideoFrameImpl)} (h : none ∉ entries) :
    ∃ frames : List FFmpegVideoFrameImpl, entries = frames.map some := by
  induction entries with
  | nil => exact ⟨[], rfl⟩
  | cons entry entries ih =>
    rw [List.mem_cons, not_or] at h
    obtain ⟨hentry, hentries⟩ := h
    obtain ⟨frames, rfl⟩ := ih hentries
    cases entry with
    | none => exact absurd rfl hentry
    | some frame => exact ⟨frame :: frames, rfl⟩

lemma mapM_id_map_some (frames : List FFmpegVideoFrameImpl) :
    (frames.map some).mapM id = some frames := by
  induction frames with
  | nil => rfl
  | cons frame frames ih => simp [List.mapM_cons, ih]

lemma mapM_id_of_mem_none {entries : List (Option FFmpegVideoFrameImpl)} (h : none ∈ entries) :
    entries.mapM id = none := by
  induction entries with
  | nil => cases h
  | cons entry entries ih =>
    cases entry with
    | none => rfl
    | some frame =>
      have hrest := ih (List.mem_of_ne_of_mem (by simp) h)
      simp [List.mapM_cons, hrest]

/-- Sorting without an empty handle. -/
lemma sortPreparedFrames_eq {frames : List FFmpegVideoFrameImpl}
    (h : videoStream.preparedFrames = frames.map some) :
    videoStream.sortPreparedFrames = .ok { videoStream with
      preparedFrames := (frames.mergeSort fun lhs rhs =>
        decide (lhs.timeSecondsEst ≤ rhs.timeSecondsEst)).map some } := by
  simp only [sortPreparedFrames, h, mapM_id_map_some]

lemma pairwise_mergeSort_time (frames : List FFmpegVideoFrameImpl) :
    (frames.mergeSort fun lhs rhs => decide (lhs.timeSecondsEst ≤ rhs.timeSecondsEst)).Pairwise
      fun f g => f.timeSecondsEst ≤ g.timeSecondsEst := by
  have hsorted : (frames.mergeSort fun lhs rhs =>
      decide (lhs.timeSecondsEst ≤ rhs.timeSecondsEst)).Pairwise fun f g =>
        decide (f.timeSecondsEst ≤ g.timeSecondsEst) = true := List.pairwise_mergeSort
    (fun a b c hab hbc => by
      rw [decide_eq_true_eq] at hab hbc ⊢
      exact hab.trans hbc)
    (fun a b => by
      rw [Bool.or_eq_true, decide_eq_true_eq, decide_eq_true_eq]
      exact le_total _ _) frames
  exact hsorted.imp fun hle => by simpa using hle

/-- A list with an empty handle is left alone if there is nothing to compare. -/
lemma eq_of_sortPreparedFrames (hnull : ¬ videoStream.NonNull)
    (h : videoStream.sortPreparedFrames = .ok videoStream') : videoStream' = videoStream := by
  rw [sortPreparedFrames, mapM_id_of_mem_none (not_not.mp hnull)] at h
  simp only at h
  split at h <;> cases h
  rfl

/-- Sorting makes a list without an empty handle ready. -/
lemma ready_of_sortPreparedFrames (h : videoStream.NonNull)
    (hsort : videoStream.sortPreparedFrames = .ok videoStream') : videoStream'.Ready := by
  obtain ⟨frames, hframes⟩ := exists_map_some h
  rw [sortPreparedFrames_eq hframes] at hsort
  cases hsort
  exact ⟨_, rfl, pairwise_mergeSort_time frames⟩

end FFmpegVideoStreamImpl

/-! ### Loops that prepare frames -/

namespace DecodeLoop

open FFmpegVideoStreamImpl

variable {f : DecodeFunction} {s s' : DecodeLoop} {answer : Answer} {answers : List Answer}

def IsError (answer : Answer) : Prop := answer = .readError ∨ answer = .decodeError

/-- What an answer does to a loop that prepares frames. -/
inductive Advances (f : DecodeFunction) (s : DecodeLoop) (answer : Answer) : DecodeLoop → Prop
  | quiet {s' : DecodeLoop} (videoStream : s'.videoStream = s.videoStream)
    (sampler : s'.sampler = s.sampler)
    (noPicture : answer.time s.videoStream.primaryStreamTimeBase = none)
    (noError : ¬ IsError answer) (request : ∀ result, s'.request ≠ .returned result) :
    Advances f s answer s'
  | turns {s₁ : DecodeLoop} {buffer : Nat} {timestamp : Int} {buffers : Nat → List UInt8}
    {sws_scale : Option (List UInt8 → List UInt8)}
    (picture : answer = .decoded (some buffer) timestamp buffers sws_scale)
    (turns : Turns f (timestamp * s.videoStream.primaryStreamTimeBase) sws_scale
      (s.atBody (some buffer) timestamp buffers) s₁) : Advances f s answer s₁.search
  | fails {s' : DecodeLoop} (videoStream : s'.videoStream = s.videoStream)
    (returned : ∃ result, s'.request = .returned result) (error : IsError answer) :
    Advances f s answer s'
  | sorts {s₁ s' : DecodeLoop} {data : Option Nat} {timestamp : Int} {buffers : Nat → List UInt8}
    {sws_scale : Option (List UInt8 → List UInt8)}
    (decoded : answer = .decoded data timestamp buffers sws_scale)
    (turns : Turns f (timestamp * s.videoStream.primaryStreamTimeBase) sws_scale
      (s.atBody data timestamp buffers) s₁)
    (sort : s₁.videoStream.sortPreparedFrames = .ok s'.videoStream)
    (returned : ∃ result, s'.request = .returned result) : Advances f s answer s'

@[simp] lemma search_videoStream (s : DecodeLoop) : s.search.videoStream = s.videoStream := by
  cases h : s.endOfStream <;> simp [search, decode, h]

@[simp] lemma search_sampler (s : DecodeLoop) : s.search.sampler = s.sampler := by
  cases h : s.endOfStream <;> simp [search, decode, sampler, h]

lemma search_request (s : DecodeLoop) (result : DecodeResult) :
    s.search.request ≠ .returned result := by
  cases h : s.endOfStream <;> simp [search, decode, h]

lemma leave_sorts {s₁ : DecodeLoop} (hf : f ≠ .pickBestFrame) (h : s₁.leave f = .ok s') :
    s₁.videoStream.sortPreparedFrames = .ok s'.videoStream ∧
      ∃ result, s'.request = .returned result := by
  have hsort : s₁.sortAndCount = .ok s' := by
    cases f with
    | pickBestFrame => exact absurd rfl hf
    | prepareAllFrames => exact h
    | prepareFrames desired => exact h
  obtain ⟨videoStream, hsorted, hs'⟩ := bind_ok.mp hsort
  cases hs'
  exact ⟨hsorted, _, rfl⟩

lemma step_advances (hf : f ≠ .pickBestFrame) (h : step f s answer = .ok s') :
    Advances f s answer s' := by
  have hfail (s : DecodeLoop) : (s.fail f).videoStream = s.videoStream ∧
      ∃ result, (s.fail f).request = .returned result := by
    cases f <;> exact ⟨rfl, _, rfl⟩
  obtain ⟨-, rfl, rfl⟩ | ⟨-, rfl, rfl⟩ | ⟨packet, -, rfl, -, rfl⟩ | ⟨packet, -, rfl, -, rfl⟩ |
    ⟨-, rfl, rfl⟩ | ⟨data, timestamp, buffers, sws_scale, -, rfl, hpicture⟩ := step_cases h
  · exact .fails (hfail _).1 (hfail _).2 (.inl rfl)
  · exact .quiet rfl rfl rfl (by simp [IsError]) (by simp [decode])
  · exact .quiet rfl rfl rfl (by simp [IsError]) (by simp [decode])
  · exact .quiet (search_videoStream _) (search_sampler _) rfl (by simp [IsError])
      (search_request _)
  · exact .fails (hfail _).1 (hfail _).2 (.inr rfl)
  cases receives_of_receivePicture hpicture with
  | quiet noPicture _ =>
    subst noPicture
    exact .quiet (search_videoStream _) (search_sampler _) rfl (by simp [IsError])
      (search_request _)
  | @goesOn s₁ again round turns =>
    obtain ⟨buffer, rfl⟩ : ∃ buffer, data = some buffer := by
      rw [← Option.isSome_iff_exists]
      rcases again with hreading | hdata
      · exact round.resolve_right (by simp [hreading])
      · exact hdata
    exact .turns rfl turns
  | leaves _ turns left =>
    obtain ⟨hsort, hreturned⟩ := leave_sorts hf left
    exact .sorts rfl turns hsort hreturned
  | returns _ _ function => exact absurd function hf

/-- A loop that has returned takes no more answers. -/
lemma eq_nil_of_returned (hreturned : ∃ result, s.request = .returned result)
    (h : run (step f) s answers = .ok s') : answers = [] := by
  obtain ⟨result, hresult⟩ := hreturned
  cases answers with
  | nil => rfl
  | cons answer answers =>
    obtain ⟨s₁, hstep, -⟩ := run_cons_ok.mp h
    simp [step, hresult] at hstep

lemma interrupted_cons :
    Interrupted (answer :: answers) ↔ IsError answer ∨ Interrupted answers := by
  simp only [Interrupted, IsError, List.mem_cons, eq_comm]
  tauto

/-! ### Whole loops -/

/-- A loop that is interrupted returns its frames as they are. -/
lemma run_of_interrupted {I : List Answer → DecodeLoop → Prop} (hf : f ≠ .pickBestFrame)
    (hsame : ∀ answers s s', I answers s → s'.videoStream = s.videoStream →
      s'.sampler = s.sampler → I answers s')
    (hquiet : ∀ answer answers s, I (answer :: answers) s →
      answer.time s.videoStream.primaryStreamTimeBase = none → I answers s)
    (hturns : ∀ buffer (timestamp : Int) buffers sws_scale answers s s₁,
      I (.decoded (some buffer) timestamp buffers sws_scale :: answers) s →
        Turns f (timestamp * s.videoStream.primaryStreamTimeBase) sws_scale
          (s.atBody (some buffer) timestamp buffers) s₁ → I answers s₁)
    (h : run (step f) s answers = .ok s') (hinterrupted : Interrupted answers)
    (hI : I answers s) : ∃ rest s₁, I rest s₁ ∧ s'.videoStream = s₁.videoStream := by
  induction answers generalizing s with
  | nil => simp [Interrupted] at hinterrupted
  | cons answer answers ih =>
    obtain ⟨s₁, hstep, hrun⟩ := run_cons_ok.mp h
    rw [interrupted_cons] at hinterrupted
    cases step_advances hf hstep with
    | quiet videoStream sampler noPicture noError _ =>
      exact ih hrun (hinterrupted.resolve_left noError)
        (hsame _ _ _ (hquiet answer answers s hI noPicture) videoStream sampler)
    | turns picture turns =>
      subst picture
      refine ih hrun (hinterrupted.resolve_left (by simp [IsError])) ?_
      exact hsame _ _ _ (hturns _ _ _ _ answers s _ hI turns) (search_videoStream _)
        (search_sampler _)
    | fails videoStream returned _ =>
      cases eq_nil_of_returned returned hrun
      cases hrun
      exact ⟨_, s, hI, videoStream⟩
    | sorts decoded _ _ returned =>
      subst decoded
      cases eq_nil_of_returned returned hrun
      simp [Interrupted, IsError] at hinterrupted

lemma times_cons_of_none (h : answer.time s.videoStream.primaryStreamTimeBase = none) :
    s.videoStream.times (answer :: answers) = s.videoStream.times answers := by
  simp [times, h]

lemma times_cons_picture (videoStream : FFmpegVideoStreamImpl) (buffer : Nat) (timestamp : Int)
    (buffers : Nat → List UInt8) (sws_scale : Option (List UInt8 → List UInt8)) :
    videoStream.times (.decoded (some buffer) timestamp buffers sws_scale :: answers) =
      timestamp * videoStream.primaryStreamTimeBase :: videoStream.times answers := rfl

section

variable {data : Option Nat} {timestamp : Int} {buffers : Nat → List UInt8}
  {sws_scale : Option (List UInt8 → List UInt8)} {s₁ : DecodeLoop} {staging : Staging}
  {frame : FFmpegVideoFrameImpl}

lemma frameOf_timeSecondsEst (h : s.frameOf sws_scale staging = some frame) :
    frame.timeSecondsEst = (s.stagingFrame staging).timeSecondsEst := by
  obtain ⟨imageByteBuffer, -, rfl⟩ := Option.map_eq_some_iff.mp h
  rfl

/-- No empty handle is kept where the scaler works. -/
lemma nonNull_of_turns (hf : f ≠ .pickBestFrame) (h : s.videoStream.NonNull)
    (hscaler : f = .prepareAllFrames → data.isSome → sws_scale = none →
      timestamp * s.videoStream.primaryStreamTimeBase < 0)
    (turns : Turns f (timestamp * s.videoStream.primaryStreamTimeBase) sws_scale
      (s.atBody data timestamp buffers) s₁) : s₁.videoStream.NonNull := by
  have hentries : none ∉ (s.atBody data timestamp buffers).entries
      (timestamp * s.videoStream.primaryStreamTimeBase) sws_scale f := by
    cases f with
    | pickBestFrame => exact absurd rfl hf
    | prepareFrames desired => simp [entries]
    | prepareAllFrames =>
      rw [entries]
      split
      · exact List.not_mem_nil
      · rename_i h0
        cases data with
        | none => simp [frameOf, stagingFrame, atBody, setTime, receiveFrame,
            FFmpegStagingVideoFrame.scaled]
        | some buffer =>
          cases sws_scale with
          | none => exact absurd (hscaler rfl rfl rfl) h0
          | some scale => simp [frameOf, stagingFrame, atBody, setTime, receiveFrame,
              FFmpegStagingVideoFrame.scaled]
  rw [NonNull, turns.videoStream]
  exact fun hmem => (List.mem_append.mp hmem).elim h hentries

/-- A loop that comes to its end sorts its frames. -/
lemma run_ready_of_not_interrupted (hf : f ≠ .pickBestFrame)
    (h : run (step f) s answers = .ok s') (hinterrupted : ¬ Interrupted answers)
    (hs : ∀ result, s.request ≠ .returned result) (hs' : ∃ result, s'.request = .returned result)
    (hscaler : f = .prepareAllFrames → s.videoStream.ScalerWorks answers)
    (hnonNull : s.videoStream.NonNull) : s'.videoStream.Ready := by
  induction answers generalizing s with
  | nil =>
    cases h
    obtain ⟨result, hresult⟩ := hs'
    exact absurd hresult (hs result)
  | cons answer answers ih =>
    obtain ⟨s₁, hstep, hrun⟩ := run_cons_ok.mp h
    rw [interrupted_cons, not_or] at hinterrupted
    have hrest : f = .prepareAllFrames → s.videoStream.ScalerWorks answers :=
      fun hf buffer timestamp buffers hmem =>
        hscaler hf buffer timestamp buffers (List.mem_cons_of_mem _ hmem)
    cases step_advances hf hstep with
    | quiet videoStream _ _ _ request =>
      exact ih hrun hinterrupted.2 request (videoStream ▸ hrest) (videoStream ▸ hnonNull)
    | @turns s₂ buffer timestamp buffers sws_scale picture turns =>
      subst picture
      refine ih hrun hinterrupted.2 (search_request _) ?_ ?_
      · rw [search_videoStream, turns.videoStream]
        exact hrest
      · rw [search_videoStream]
        apply nonNull_of_turns hf hnonNull _ turns
        rintro hf - rfl
        exact hscaler hf buffer timestamp buffers List.mem_cons_self
    | fails _ _ error => exact absurd error hinterrupted.1
    | @sorts s₂ _ data timestamp buffers sws_scale decoded turns sort returned =>
      subst decoded
      cases eq_nil_of_returned returned hrun
      cases hrun
      refine ready_of_sortPreparedFrames (nonNull_of_turns hf hnonNull ?_ turns) sort
      rintro hf hdata rfl
      obtain ⟨buffer, rfl⟩ := Option.isSome_iff_exists.mp hdata
      exact hscaler hf buffer timestamp buffers List.mem_cons_self

/-! ### The order of the frames -/

/-- The frames so far are in order, and none is later than a picture that comes. -/
structure Ordered (answers : List Answer) (s : DecodeLoop) : Prop where
  ready : s.videoStream.Ready
  before : ∀ g, some g ∈ s.videoStream.preparedFrames →
    ∀ t ∈ s.videoStream.times answers, g.timeSecondsEst ≤ t
  sorted : (s.videoStream.times answers).Pairwise (· ≤ ·)

lemma Ordered.congr (h : Ordered answers s) (hs : s'.videoStream = s.videoStream) :
    Ordered answers s' := by
  obtain ⟨hready, hbefore, hsorted⟩ := h
  exact ⟨hs ▸ hready, hs ▸ hbefore, hs ▸ hsorted⟩

lemma Ordered.quiet (h : Ordered (answer :: answers) s)
    (htime : answer.time s.videoStream.primaryStreamTimeBase = none) : Ordered answers s := by
  obtain ⟨hready, hbefore, hsorted⟩ := h
  rw [times_cons_of_none htime] at hbefore hsorted
  exact ⟨hready, hbefore, hsorted⟩

/-- At most one frame is made in the round of a picture. It is not before the others, nor later than
the picture. -/
def AddsInOrder (f : DecodeFunction) (s : DecodeLoop) (buffer : Nat) (timestamp : Int)
    (buffers : Nat → List UInt8) (sws_scale : Option (List UInt8 → List UInt8)) : Prop :=
  (s.atBody (some buffer) timestamp buffers).entries
      (timestamp * s.videoStream.primaryStreamTimeBase) sws_scale f = [] ∨
    ∃ frame, (s.atBody (some buffer) timestamp buffers).entries
        (timestamp * s.videoStream.primaryStreamTimeBase) sws_scale f = [some frame] ∧
      (∀ g, some g ∈ s.videoStream.preparedFrames → g.timeSecondsEst ≤ frame.timeSecondsEst) ∧
      frame.timeSecondsEst ≤ timestamp * s.videoStream.primaryStreamTimeBase

lemma AddsInOrder.le {buffer : Nat} (h : AddsInOrder f s buffer timestamp buffers sws_scale)
    (turns : Turns f (timestamp * s.videoStream.primaryStreamTimeBase) sws_scale
      (s.atBody (some buffer) timestamp buffers) s₁)
    (hbefore : ∀ g, some g ∈ s.videoStream.preparedFrames →
      g.timeSecondsEst ≤ timestamp * s.videoStream.primaryStreamTimeBase) :
    ∀ g, some g ∈ s₁.videoStream.preparedFrames →
      g.timeSecondsEst ≤ timestamp * s.videoStream.primaryStreamTimeBase := by
  rw [turns.videoStream]
  intro g hg
  rcases List.mem_append.mp hg with hg | hg
  · exact hbefore g hg
  · rcases h with hnone | ⟨frame, hframe, -, hle⟩
    · rw [hnone] at hg
      cases hg
    · rw [hframe] at hg
      cases List.mem_singleton.mp hg
      exact hle

lemma AddsInOrder.ready {buffer : Nat} (h : AddsInOrder f s buffer timestamp buffers sws_scale)
    (turns : Turns f (timestamp * s.videoStream.primaryStreamTimeBase) sws_scale
      (s.atBody (some buffer) timestamp buffers) s₁)
    (hready : s.videoStream.Ready) : s₁.videoStream.Ready := by
  rcases h with hnone | ⟨frame, hframe, hafter, -⟩
  · have hsame : s₁.videoStream.preparedFrames = s.videoStream.preparedFrames := by
      rw [turns.videoStream, hnone, List.append_nil]
      rfl
    obtain ⟨frames, hframes, hpairwise⟩ := hready
    exact ⟨frames, hsame.trans hframes, hpairwise⟩
  · have hadded : s₁.videoStream.preparedFrames =
        s.videoStream.preparedFrames ++ [some frame] := by
      rw [turns.videoStream, hframe]
      rfl
    exact FFmpegVideoStreamImpl.ready_append hready hadded hafter

lemma Ordered.turns {buffer : Nat}
    (h : Ordered (.decoded (some buffer) timestamp buffers sws_scale :: answers) s)
    (turns : Turns f (timestamp * s.videoStream.primaryStreamTimeBase) sws_scale
      (s.atBody (some buffer) timestamp buffers) s₁)
    (hadds : AddsInOrder f s buffer timestamp buffers sws_scale) : Ordered answers s₁ := by
  obtain ⟨hready, hbefore, hsorted⟩ := h
  rw [times_cons_picture] at hbefore hsorted
  have htimes : s₁.videoStream.times answers = s.videoStream.times answers := by
    rw [turns.videoStream]
    rfl
  obtain ⟨hfirst, hrest⟩ := List.pairwise_cons.mp hsorted
  have hle := hadds.le turns fun g hg => hbefore g hg _ List.mem_cons_self
  refine ⟨hadds.ready turns hready, ?_, htimes ▸ hrest⟩
  rw [htimes]
  exact fun g hg t ht => (hle g hg).trans (hfirst t ht)

/-- The loop that prepares all frames makes a frame of each picture as it comes. -/
lemma Ordered.prepareAllFrames {buffer : Nat}
    (h : Ordered (.decoded (some buffer) timestamp buffers sws_scale :: answers) s)
    (hscaler : sws_scale = none → timestamp * s.videoStream.primaryStreamTimeBase < 0)
    (turns : Turns .prepareAllFrames (timestamp * s.videoStream.primaryStreamTimeBase) sws_scale
      (s.atBody (some buffer) timestamp buffers) s₁) : Ordered answers s₁ := by
  refine h.turns turns ?_
  rw [AddsInOrder, entries]
  split
  · exact .inl rfl
  · rename_i h0
    cases hframe : (s.atBody (some buffer) timestamp buffers).frameOf sws_scale .current with
    | none =>
      cases sws_scale with
      | none => exact absurd (hscaler rfl) h0
      | some scale => simp [frameOf, stagingFrame, atBody, setTime, receiveFrame,
          FFmpegStagingVideoFrame.scaled] at hframe
    | some frame =>
      have htime : frame.timeSecondsEst = timestamp * s.videoStream.primaryStreamTimeBase :=
        frameOf_timeSecondsEst hframe
      refine .inr ⟨frame, rfl, fun g hg => ?_, htime.le⟩
      rw [htime]
      exact h.before g hg _ List.mem_cons_self

/-- What is known between two answers in a loop that samples: the last branch, and that it left the
latest frame in the previous staging frame unless it took the current one. -/
structure SamplesInOrder (desired : ℚ) (answers : List Answer) (s : DecodeLoop) : Prop where
  ordered : Ordered answers s
  nonneg : ∀ t ∈ s.videoStream.times answers, 0 ≤ t
  prev : ∀ t ∈ s.videoStream.times answers, s.sampler.prevTime ≤ t
  last : ∃ branch, (branch :: s.sampler.branches s.videoStream.frameDurationSeconds desired
      (s.videoStream.times answers)).IsChain
        (fun branch next => branch = .currentGood → next ≠ .previousCloser) ∧
    (branch ≠ .currentGood → ∀ g, some g ∈ s.videoStream.preparedFrames →
      g.timeSecondsEst ≤ s.sampler.prevTime)

lemma SamplesInOrder.congr {desired : ℚ} (h : SamplesInOrder desired answers s)
    (hs : s'.videoStream = s.videoStream) (hsampler : s'.sampler = s.sampler) :
    SamplesInOrder desired answers s' := by
  obtain ⟨hordered, hnonneg, hprev, hlast⟩ := h
  refine ⟨hordered.congr hs, ?_, ?_, ?_⟩
  · rw [hs]
    exact hnonneg
  · rw [hs, hsampler]
    exact hprev
  · rw [hs, hsampler]
    exact hlast

lemma SamplesInOrder.quiet {desired : ℚ} (h : SamplesInOrder desired (answer :: answers) s)
    (htime : answer.time s.videoStream.primaryStreamTimeBase = none) :
    SamplesInOrder desired answers s := by
  obtain ⟨hordered, hnonneg, hprev, hlast⟩ := h
  rw [times_cons_of_none htime] at hnonneg hprev hlast
  exact ⟨hordered.quiet htime, hnonneg, hprev, hlast⟩

/-- What is made of a staging frame has its time. -/
lemma entries_prepareFrames {desired time : ℚ} (h : (s.branch time).emits = some staging) :
    s.entries time sws_scale (.prepareFrames desired) = [] ∨
      ∃ frame, s.entries time sws_scale (.prepareFrames desired) = [some frame] ∧
        frame.timeSecondsEst = (s.stagingFrame staging).timeSecondsEst := by
  rw [entries, h, Option.bind_some]
  cases hframe : s.frameOf sws_scale staging with
  | none => exact .inl rfl
  | some frame => exact .inr ⟨frame, rfl, frameOf_timeSecondsEst hframe⟩

/-- The previous frame is only emitted if the latest frame is in it. -/
lemma SamplesInOrder.addsInOrder {desired : ℚ} {buffer : Nat}
    (h : SamplesInOrder desired (.decoded (some buffer) timestamp buffers sws_scale :: answers) s) :
    AddsInOrder (.prepareFrames desired) s buffer timestamp buffers sws_scale := by
  obtain ⟨hordered, hnonneg, hprev, branch, hchain, hlast⟩ := h
  have hbefore := hordered.before
  rw [times_cons_picture] at hnonneg hprev hchain hbefore
  rw [Sampler.branches, List.isChain_cons_cons] at hchain
  have hbranch : (s.atBody (some buffer) timestamp buffers).branch
      (timestamp * s.videoStream.primaryStreamTimeBase) = s.sampler.branch
        s.videoStream.frameDurationSeconds
        (timestamp * s.videoStream.primaryStreamTimeBase) := rfl
  cases hb : s.sampler.branch s.videoStream.frameDurationSeconds
    (timestamp * s.videoStream.primaryStreamTimeBase) with
  | nextFrame =>
    left
    rw [entries, hbranch, hb]
    rfl
  | previousOnly =>
    have hneg := Branch.neg_of_previousOnly hb
    exact absurd (hnonneg _ List.mem_cons_self) (not_le.mpr hneg)
  | previousCloser =>
    have hkept : branch ≠ .currentGood := fun hgood => hchain.1 hgood hb
    refine (entries_prepareFrames (by rw [hbranch, hb]; rfl)).imp_right ?_
    rintro ⟨frame, hframe, htime⟩
    have htime' : frame.timeSecondsEst = s.sampler.prevTime := htime
    refine ⟨frame, hframe, ?_, ?_⟩
    · rw [htime']
      exact hlast hkept
    · rw [htime']
      exact hprev _ List.mem_cons_self
  | currentGood | currentCloser =>
    refine (entries_prepareFrames (by rw [hbranch, hb]; rfl)).imp_right ?_
    rintro ⟨frame, hframe, htime⟩
    have htime' : frame.timeSecondsEst = timestamp * s.videoStream.primaryStreamTimeBase := htime
    refine ⟨frame, hframe, fun g hg => ?_, htime'.le⟩
    rw [htime']
    exact hbefore g hg _ List.mem_cons_self

lemma SamplesInOrder.turns {desired : ℚ} {buffer : Nat}
    (h : SamplesInOrder desired (.decoded (some buffer) timestamp buffers sws_scale :: answers) s)
    (turns : Turns (.prepareFrames desired) (timestamp * s.videoStream.primaryStreamTimeBase)
      sws_scale (s.atBody (some buffer) timestamp buffers) s₁) :
    SamplesInOrder desired answers s₁ := by
  have hadds := h.addsInOrder
  obtain ⟨hordered, hnonneg, hprev, branch, hchain, -⟩ := h
  have hbefore := hordered.before
  have hsorted := hordered.sorted
  have hsampler : s₁.sampler = s.sampler.next s.videoStream.frameDurationSeconds desired
    (timestamp * s.videoStream.primaryStreamTimeBase) := turns.samples desired rfl
  have htimes : s₁.videoStream.times answers = s.videoStream.times answers := by
    rw [turns.videoStream]
    rfl
  have hduration : s₁.videoStream.frameDurationSeconds = s.videoStream.frameDurationSeconds := by
    rw [turns.videoStream]
    rfl
  rw [times_cons_picture] at hnonneg hprev hchain hbefore hsorted
  rw [Sampler.branches, List.isChain_cons_cons, ← hsampler, ← hduration, ← htimes] at hchain
  obtain ⟨hfirst, -⟩ := List.pairwise_cons.mp hsorted
  refine ⟨hordered.turns turns hadds, ?_, ?_, _, hchain.2, ?_⟩
  · rw [htimes]
    exact fun t ht => hnonneg t (List.mem_cons_of_mem _ ht)
  · rw [htimes, hsampler]
    intro t ht
    rw [Sampler.next]
    split
    · exact hprev t (List.mem_cons_of_mem _ ht)
    · exact hfirst t ht
    · exact hfirst t ht
  · intro hgood g hg
    have hle := hadds.le turns (fun g hg => hbefore g hg _ List.mem_cons_self) g hg
    rw [hduration] at hgood
    rw [hsampler, Sampler.next]
    split
    · rename_i hcurrent
      exact absurd hcurrent hgood
    · exact hle
    · exact hle

end

/-- The list is ready after a loop that fits. -/
lemma run_ready (hf : f ≠ .pickBestFrame)
    (hs : s.videoStream.preparedFrames = []) (hsampler : s.sampler = .start)
    (hrequest : ∀ result, s.request ≠ .returned result)
    (hfits : s.videoStream.Prepares answers f) (h : run (step f) s answers = .ok s')
    (hs' : ∃ result, s'.request = .returned result) : s'.videoStream.Ready := by
  obtain ⟨hscaler, horder⟩ := hfits
  by_cases hinterrupted : Interrupted answers
  · have hordered (hsorted : (s.videoStream.times answers).Pairwise (· ≤ ·)) :
        Ordered answers s := ⟨ready_of_nil hs, by simp [hs], hsorted⟩
    specialize horder hinterrupted
    cases f with
    | pickBestFrame => exact absurd rfl hf
    | prepareAllFrames =>
      have htail {answer : Answer} {answers : List Answer} {videoStream : FFmpegVideoStreamImpl}
          (hworks : videoStream.ScalerWorks (answer :: answers)) :
          videoStream.ScalerWorks answers := fun buffer timestamp buffers hmem =>
        hworks buffer timestamp buffers (List.mem_cons_of_mem _ hmem)
      obtain ⟨rest, s₁, ⟨hs₁, -⟩, heq⟩ := run_of_interrupted
        (I := fun answers s => Ordered answers s ∧ s.videoStream.ScalerWorks answers) hf
        (fun answers s s' hI hs' _ => ⟨hI.1.congr hs', hs' ▸ hI.2⟩)
        (fun answer answers s hI htime => ⟨hI.1.quiet htime, htail hI.2⟩)
        (by
          rintro buffer timestamp buffers sws_scale answers s s₁ ⟨hordered, hworks⟩ turns
          refine ⟨hordered.prepareAllFrames ?_ turns, ?_⟩
          · rintro rfl
            exact hworks buffer timestamp buffers List.mem_cons_self
          · rw [turns.videoStream]
            exact htail hworks)
        h hinterrupted ⟨hordered horder, hscaler rfl⟩
      exact heq ▸ hs₁.ready
    | prepareFrames desired =>
      obtain ⟨hnonneg, hsorted, hchain⟩ := horder
      have hstart : SamplesInOrder desired answers s := by
        refine ⟨hordered hsorted, hnonneg, ?_, .nextFrame, ?_, by simp [hs]⟩
        · rw [hsampler]
          exact hnonneg
        · rw [hsampler]
          exact List.isChain_cons.mpr ⟨fun _ _ => nofun, hchain⟩
      obtain ⟨rest, s₁, hs₁, heq⟩ := run_of_interrupted (I := SamplesInOrder desired) hf
        (fun answers s s' hI hs' hsampler => hI.congr hs' hsampler)
        (fun answer answers s hI htime => hI.quiet htime)
        (fun buffer timestamp buffers sws_scale answers s s₁ hI turns => hI.turns turns)
        h hinterrupted hstart
      exact heq ▸ hs₁.ordered.ready
  · have hnonNull : s.videoStream.NonNull := by simp [NonNull, hs]
    exact run_ready_of_not_interrupted hf h hinterrupted hrequest hs' hscaler hnonNull

end DecodeLoop

/-! ### Runs of calls -/

namespace FFmpegVideoStreamImpl

variable {videoStream videoStream' : FFmpegVideoStreamImpl} {answers : List Answer}
  {f : DecodeFunction} {result : DecodeResult}

lemma finish_ok {s : DecodeLoop} (h : finish f s answers = .ok (videoStream', result)) :
    ∃ s', run (DecodeLoop.step f) s answers = .ok s' ∧ s'.request = .returned result ∧
      s'.videoStream = videoStream' := by
  obtain ⟨s', hrun, h⟩ := bind_ok.mp h
  split at h
  · rename_i result' hresult
    cases h
    exact ⟨s', hrun, hresult, rfl⟩
  · cases h

lemma finish_of_run {s s' : DecodeLoop} (h : run (DecodeLoop.step f) s answers = .ok s')
    (hresult : s'.request = .returned result) :
    finish f s answers = .ok (s'.videoStream, result) := by
  simp only [finish, h, bind, Except.bind, hresult, pure, Except.pure]

lemma ready_clearPreparedFrames (videoStream : FFmpegVideoStreamImpl) :
    videoStream.clearPreparedFrames.Ready := ready_of_nil rfl

/-- A loop that prepares frames from an empty list. -/
lemma ready_of_finish (hf : f ≠ .pickBestFrame) (hfits : videoStream.Prepares answers f)
    (h : finish f (start videoStream.clearPreparedFrames 0) answers = .ok (videoStream', result)) :
    videoStream'.Ready := by
  obtain ⟨s', hrun, hresult, rfl⟩ := finish_ok h
  exact run_ready hf rfl rfl (by simp [start]) hfits hrun ⟨result, hresult⟩

lemma step_pickBestFrame_videoStream {s s' : DecodeLoop} {answer : Answer}
    (h : DecodeLoop.step .pickBestFrame s answer = .ok s') : s'.videoStream = s.videoStream := by
  have hturns {s₁ s₂ : DecodeLoop} {time : ℚ} {sws_scale : Option (List UInt8 → List UInt8)}
      (turns : Turns .pickBestFrame time sws_scale s₁ s₂) (hs₁ : s₁.videoStream = s.videoStream) :
      s₂.videoStream = s.videoStream := by
    rw [turns.videoStream, entries, List.append_nil]
    exact hs₁
  obtain ⟨-, -, rfl⟩ | ⟨-, -, rfl⟩ | ⟨packet, -, -, -, rfl⟩ | ⟨packet, -, -, -, rfl⟩ |
    ⟨-, -, rfl⟩ | ⟨data, timestamp, buffers, sws_scale, -, -, hpicture⟩ := step_cases h
  · rfl
  · rfl
  · rfl
  · exact search_videoStream _
  · rfl
  cases receives_of_receivePicture hpicture with
  | quiet _ _ => exact search_videoStream _
  | @goesOn s₁ _ _ turns => exact (search_videoStream s₁).trans (hturns turns rfl)
  | leaves _ turns left =>
    cases left
    have hs₁ := hturns turns rfl
    exact hs₁
  | returns _ turns _ =>
    have hs₁ := hturns turns rfl
    exact hs₁

/-- `ffmpegVideoStreamPickBestFrame` leaves the stream as it is. -/
lemma pickBestFrame_videoStream {sampleTime : ℚ} {imageFilled : Bool}
    (h : videoStream.ffmpegVideoStreamPickBestFrame sampleTime imageFilled answers =
      .ok (videoStream', result)) : videoStream' = videoStream := by
  rw [ffmpegVideoStreamPickBestFrame] at h
  split at h
  · cases h
  · cases h
    rfl
  · split at h
    · cases h
      rfl
    · obtain ⟨s', hrun, -, rfl⟩ := finish_ok h
      exact run_induction (R := fun s s' : DecodeLoop => s'.videoStream = s.videoStream)
        (fun _ => rfl) (fun _ _ _ hst htu => htu.trans hst)
        (fun _ _ _ => step_pickBestFrame_videoStream) hrun

lemma prepareAllFrames_ready {imageFilled : Bool} (hready : videoStream.Ready)
    (hfits : videoStream.CallFits (.prepareAllFrames imageFilled answers))
    (h : videoStream.ffmpegVideoStreamPrepareAllFrames imageFilled answers =
      .ok (videoStream', result)) : videoStream'.Ready := by
  rw [ffmpegVideoStreamPrepareAllFrames] at h
  cases imageFilled with
  | false =>
    cases h
    exact hready
  | true => exact ready_of_finish (by simp) hfits h

/-- `ffmpegVideoStreamPrepareFrames` runs one of the two loops. -/
lemma ffmpegVideoStreamPrepareFrames_eq (videoStream : FFmpegVideoStreamImpl)
    (framesPerSecond : ℚ) (imageFilled : Bool) (answers : List Answer) :
    videoStream.ffmpegVideoStreamPrepareFrames framesPerSecond imageFilled answers =
      if !imageFilled then .ok (videoStream, .count 0)
      else finish (videoStream.prepareFunction framesPerSecond)
        (start videoStream.clearPreparedFrames 0) answers := by
  rw [ffmpegVideoStreamPrepareFrames, prepareFunction, ffmpegVideoStreamPrepareAllFrames]
  split
  · rfl
  split
  · rfl
  · rfl

lemma prepareFunction_ne (videoStream : FFmpegVideoStreamImpl) (framesPerSecond : ℚ) :
    videoStream.prepareFunction framesPerSecond ≠ .pickBestFrame := by
  rw [prepareFunction]
  split
  · simp
  split
  · simp
  · simp

lemma prepareFrames_ready {framesPerSecond : ℚ} {imageFilled : Bool} (hready : videoStream.Ready)
    (hfits : videoStream.CallFits (.prepareFrames framesPerSecond imageFilled answers))
    (h : videoStream.ffmpegVideoStreamPrepareFrames framesPerSecond imageFilled answers =
      .ok (videoStream', result)) : videoStream'.Ready := by
  rw [ffmpegVideoStreamPrepareFrames_eq] at h
  cases imageFilled with
  | false =>
    cases h
    exact hready
  | true => exact ready_of_finish (prepareFunction_ne videoStream framesPerSecond) hfits h

lemma map_fst_ok {x : Except LoopFault (FFmpegVideoStreamImpl × DecodeResult)}
    (h : x.map Prod.fst = .ok videoStream') : ∃ result, x = .ok (videoStream', result) := by
  cases x with
  | error fault => cases h
  | ok p =>
    cases h
    exact ⟨p.2, rfl⟩

/-- A call that fits leaves the list ready when it returns. -/
lemma callStep_ready {call : StreamCall} (hready : videoStream.Ready)
    (hfits : videoStream.CallFits call) (h : videoStream.callStep call = .ok videoStream') :
    videoStream'.Ready := by
  cases call with
  | prepareAllFrames imageFilled answers =>
    obtain ⟨result, h⟩ := map_fst_ok h
    exact prepareAllFrames_ready hready hfits h
  | prepareFrames framesPerSecond imageFilled answers =>
    obtain ⟨result, h⟩ := map_fst_ok h
    exact prepareFrames_ready hready hfits h
  | pickBestFrame sampleTime imageFilled answers =>
    obtain ⟨result, h⟩ := map_fst_ok h
    rw [pickBestFrame_videoStream h]
    exact hready
  | pickBestPreparedFrame sampleTime =>
    rw [callStep] at h
    split at h
    · cases h
    · cases h
      exact hready
  | clearPreparedFrames =>
    cases h
    exact ready_clearPreparedFrames videoStream

/-- The prepared frames are ready whenever a call returns, if every call that returns fits. -/
theorem throughout_ready (h : videoStream.Ready) (calls : List StreamCall)
    (hfits : Along callStep (fun videoStream call =>
      ∀ videoStream', videoStream.callStep call = .ok videoStream' → videoStream.CallFits call)
        videoStream calls) : Throughout callStep Ready videoStream calls :=
  .of_invariant (fun _ _ videoStream' hready hfits hstep =>
    callStep_ready hready (hfits videoStream' hstep) hstep) (fun _ hready => hready) h hfits

/-- A stream that was just opened. -/
def opened : FFmpegVideoStreamImpl := ⟨[], 0, 2, 20, 10, 1, 1, 1⟩

/-- Two pictures with these timestamps, then the demuxer fails. -/
def failingDemuxer (first second : Int) : List Answer :=
  [.packet ⟨0, [7]⟩, .decoded (some 0) first (fun _ => [1, 1, 1, 255]) (some id),
    .packet ⟨0, [8]⟩, .decoded (some 1) second (fun _ => [2, 2, 2, 255]) (some id), .readError]

lemma times_failingDemuxer (first second : Int) :
    opened.times (failingDemuxer first second) = [(first : ℚ), (second : ℚ)] := by
  norm_num [times, failingDemuxer, Answer.time, List.filterMap, opened]

lemma prepareFunction_opened : opened.prepareFunction (1 / 20) = .prepareFrames (1 / (1 / 20)) := by
  norm_num [prepareFunction, reachesMaxFramesPerSecond, opened]

/-- The first picture is good for the first sample, the second is passed over. -/
theorem throughout_ready_failingDemuxer :
    Throughout callStep Ready opened [.prepareFrames (1 / 20) true (failingDemuxer 0 5)] := by
  apply throughout_ready (ready_of_nil rfl)
  refine along_cons.mpr ⟨fun _ _ => ?_, fun _ _ => along_nil⟩
  rw [CallFits, Prepares, prepareFunction_opened, times_failingDemuxer]
  refine ⟨by simp, fun _ => ⟨by norm_num, by norm_num, ?_⟩⟩
  norm_num [Sampler.branches, Sampler.branch, Sampler.next, Sampler.start, Branch.of, opened]
  decide

/-- The call that returns 0 keeps the two frames in the order they were decoded. -/
theorem not_throughout_ready :
    ¬ ∀ (videoStream : FFmpegVideoStreamImpl) (calls : List StreamCall),
      videoStream.preparedFrames = [] → Throughout callStep Ready videoStream calls := by
  intro h
  have hcall : ∃ videoStream', opened.callStep (.prepareAllFrames true (failingDemuxer 5 3)) =
      .ok videoStream' ∧ videoStream'.preparedFrames = [some (opened.scaledFrame 5 [1, 1, 1, 255]),
        some (opened.scaledFrame 3 [2, 2, 2, 255])] := by
    norm_num [callStep, ffmpegVideoStreamPrepareAllFrames, finish, failingDemuxer, run,
      DecodeLoop.step, start, receivePicture, receiveFrame, setTime, body, prepareAllFramesBody,
      loop, search, decode, freePacket, receivePacket, opened, clearPreparedFrames, fail, ret,
      DecodeLoop.emplaceBack, emplaceBack, fromStaging, ffmpegVideoFrameFromStaging,
      FFmpegStagingVideoFrame.scaled, AVCodecInternal.decode, AVCodecInternal.flushed, scaledFrame,
      Except.map, bind, Except.bind, pure, Except.pure]
    simp
  obtain ⟨videoStream', hcall, hframes⟩ := hcall
  obtain ⟨-, hthroughout⟩ := (throughout_cons_of_ok hcall).mp
    (h opened [.prepareAllFrames true (failingDemuxer 5 3)] rfl)
  obtain ⟨frames, hentries, hsorted⟩ := throughout_nil.mp hthroughout
  obtain rfl : frames = [opened.scaledFrame 5 [1, 1, 1, 255],
      opened.scaledFrame 3 [2, 2, 2, 255]] :=
    List.map_injective_iff.mpr (Option.some_injective _) (hentries.symm.trans hframes)
  norm_num [scaledFrame] at hsorted

end FFmpegVideoStreamImpl

end GifTools
