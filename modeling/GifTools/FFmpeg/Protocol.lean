import GifTools.FFmpeg.Rounds
import Mathlib.Tactic.NormNum

/-!
# The protocol of the decoder

A decoder is given the packets of its stream once and in their order, and the empty packet after
the last one. The loops free the packet before they read the next, which keeps the protocol as
long as packets are read. After the end of the stream they read no more: a body that swaps the
staging frames brings back the packet of an older frame, and the loop passes it again.
-/

namespace GifTools.DecodeLoop

open Runs

variable {f : DecodeFunction} {s s' : DecodeLoop}

/-- The packets of the primary stream that were read. -/
def primaryPackets (s : DecodeLoop) : List AVPacket :=
  s.packets.filter fun packet => packet.stream_index == s.videoStream.primaryStreamIndex

/-- The packets of the primary stream were passed once and in their order, no others were, and only
empty ones after the end of the stream. -/
structure FollowsProtocol (s : DecodeLoop) : Prop where
  passed : s.calls.filterMap DecodeCall.packet = s.primaryPackets
  flushed : ∀ call ∈ s.calls, call.endOfStream = true → call.packet = none

/-- After the end of the stream, a picture for which the staging frames are swapped finds no packet
in the previous frame. -/
def KeepsPacket (f : DecodeFunction) (s : DecodeLoop) (answer : Answer) : Prop :=
  ∀ buffer timestamp buffers sws_scale,
    answer = .decoded (some buffer) timestamp buffers sws_scale → s.request = .decode →
      s.endOfStream = true → s.Swaps (timestamp * s.videoStream.primaryStreamTimeBase) f →
        s.prevFrame.packet = none

/-! ### What the body of a loop does to the staging frames -/

/-- The packets, the calls and the end of the stream are the same. -/
structure SameTrace (s s' : DecodeLoop) : Prop where
  calls : s'.calls = s.calls
  packets : s'.packets = s.packets
  endOfStream : s'.endOfStream = s.endOfStream
  index : s'.videoStream.primaryStreamIndex = s.videoStream.primaryStreamIndex

lemma SameTrace.refl (s : DecodeLoop) : SameTrace s s := ⟨rfl, rfl, rfl, rfl⟩

lemma SameTrace.trans {s'' : DecodeLoop} (h : SameTrace s s') (h' : SameTrace s' s'') :
    SameTrace s s'' :=
  ⟨h'.calls.trans h.calls, h'.packets.trans h.packets, h'.endOfStream.trans h.endOfStream,
    h'.index.trans h.index⟩

lemma FollowsProtocol.congr (h : s.FollowsProtocol) (hs : SameTrace s s') :
    s'.FollowsProtocol := by
  constructor
  · rw [primaryPackets, hs.calls, hs.packets, hs.index]
    exact h.passed
  · rw [hs.calls]
    exact h.flushed

lemma Turns.sameTrace {time : ℚ} {sws_scale : Option (List UInt8 → List UInt8)}
    (h : Turns f time sws_scale s s') : SameTrace s s' := by
  refine ⟨h.calls, h.packets, h.endOfStream, ?_⟩
  rw [h.videoStream]

/-! ### Steps -/

/-- Between two answers. -/
structure ProtocolInv (s : DecodeLoop) : Prop where
  follows : s.FollowsProtocol
  reading : s.request = .read → s.endOfStream = false
  flushing : s.request = .decode → s.endOfStream = true → s.currFrame.packet = none

/-- The call is made with the packet that is due. -/
lemma protocolInv_decode (hflush : s.endOfStream = true → s.currFrame.packet = none)
    (hpassed : s.calls.filterMap DecodeCall.packet ++ s.currFrame.packet.toList =
      s.primaryPackets)
    (hflushed : ∀ call ∈ s.calls, call.endOfStream = true → call.packet = none) :
    ProtocolInv s.decode := by
  refine ⟨⟨?_, ?_⟩, fun h => (by cases h), fun _ => hflush⟩
  · refine Eq.trans ?_ hpassed
    cases hpacket : s.currFrame.packet <;> simp [decode, hpacket]
  · intro call hcall
    rcases List.mem_append.mp hcall with hcall | hcall
    · exact hflushed call hcall
    · rw [List.mem_singleton.mp hcall]
      exact hflush

lemma protocolInv_returned (h : s.FollowsProtocol) (hreturned : ∃ r, s.request = .returned r) :
    ProtocolInv s := by
  obtain ⟨r, hr⟩ := hreturned
  exact ⟨h, fun h => (by rw [hr] at h; cases h), fun h => (by rw [hr] at h; cases h)⟩

/-- The search after a picture: after the end of the stream the next call follows at once. -/
lemma protocolInv_search (h : s.FollowsProtocol)
    (hflush : s.endOfStream = true → s.currFrame.packet = none) : ProtocolInv s.search := by
  rw [search]
  split
  · rename_i hend
    have hnone := hflush hend
    refine protocolInv_decode hflush ?_ h.flushed
    rw [hnone, Option.toList_none, List.append_nil]
    exact h.passed
  · rename_i hend
    refine ⟨h.congr ⟨rfl, rfl, rfl, rfl⟩, fun _ => ?_, fun h => (by cases h)⟩
    simpa using hend

lemma leave_ok (h : s.leave f = .ok s') :
    SameTrace s s' ∧ ∃ result, s'.request = .returned result := by
  have hsort : s.sortAndCount = .ok s' →
      SameTrace s s' ∧ ∃ result, s'.request = .returned result := by
    intro h
    obtain ⟨videoStream, hsort, h⟩ := bind_ok.mp h
    cases h
    refine ⟨⟨rfl, rfl, rfl, ?_⟩, _, rfl⟩
    simp only [FFmpegVideoStreamImpl.sortPreparedFrames] at hsort
    split at hsort
    · cases hsort
      rfl
    · split at hsort <;> cases hsort
      rfl
  cases f with
  | pickBestFrame =>
    cases h
    exact ⟨⟨rfl, rfl, rfl, rfl⟩, _, rfl⟩
  | prepareAllFrames => exact hsort h
  | prepareFrames desired => exact hsort h

lemma ProtocolInv.receives {data : Option Nat} {timestamp : Int} {buffers : Nat → List UInt8}
    {sws_scale : Option (List UInt8 → List UInt8)} (h : ProtocolInv s)
    (hdecode : s.request = .decode)
    (hkeeps : KeepsPacket f s (.decoded data timestamp buffers sws_scale))
    (hs' : Receives f s data timestamp buffers sws_scale s') : ProtocolInv s' := by
  have hbody : SameTrace s (s.atBody data timestamp buffers) := ⟨rfl, rfl, rfl, rfl⟩
  have htrace {s₁ : DecodeLoop} (turns : Turns f (timestamp * s.videoStream.primaryStreamTimeBase)
      sws_scale (s.atBody data timestamp buffers) s₁) : SameTrace s s₁ :=
    hbody.trans turns.sameTrace
  cases hs' with
  | quiet _ _ =>
    exact protocolInv_search (h.follows.congr ⟨rfl, rfl, rfl, rfl⟩) (h.flushing hdecode)
  | @goesOn s₁ again _ turns =>
    refine protocolInv_search (h.follows.congr (htrace turns)) fun hend₁ => ?_
    have hend : s.endOfStream = true := (htrace turns).endOfStream.symm.trans hend₁
    rw [hend, Bool.true_eq_false, false_or, Option.isSome_iff_exists] at again
    obtain ⟨buffer, rfl⟩ := again
    by_cases hswaps : s.Swaps (timestamp * s.videoStream.primaryStreamTimeBase) f
    · exact (turns.swapped hswaps).2.packet.trans
        (hkeeps buffer timestamp buffers sws_scale rfl hdecode hend hswaps)
    · exact (turns.kept hswaps).2.packet.trans (h.flushing hdecode hend)
  | leaves _ turns left =>
    obtain ⟨htrace', hreturned⟩ := leave_ok left
    exact protocolInv_returned ((h.follows.congr (htrace turns)).congr htrace') hreturned
  | returns _ turns _ =>
    exact protocolInv_returned
      ((h.follows.congr (htrace turns)).congr ⟨rfl, rfl, rfl, rfl⟩) ⟨_, rfl⟩

/-- The packet read last comes last. -/
lemma primaryPackets_receivePacket (packet : AVPacket) :
    (s.freePacket.receivePacket packet).primaryPackets = s.primaryPackets ++
      if packet.stream_index = s.videoStream.primaryStreamIndex then [packet] else [] := by
  simp only [primaryPackets, freePacket, receivePacket, List.filter_append, List.filter_cons,
    List.filter_nil, beq_iff_eq]

lemma ProtocolInv.step {answer : Answer} (h : ProtocolInv s) (hkeeps : KeepsPacket f s answer)
    (hstep : step f s answer = .ok s') : ProtocolInv s' := by
  have hfail : ∀ {s₁ : DecodeLoop}, SameTrace s s₁ → ProtocolInv (s₁.fail f) := by
    intro s₁ hs₁
    have hfollows := h.follows.congr hs₁
    cases f <;> exact protocolInv_returned (hfollows.congr ⟨rfl, rfl, rfl, rfl⟩) ⟨_, rfl⟩
  obtain ⟨-, -, rfl⟩ | ⟨-, -, rfl⟩ | ⟨packet, hread, -, hprimary, rfl⟩ |
    ⟨packet, hread, -, hother, rfl⟩ | ⟨-, -, rfl⟩ |
    ⟨data, timestamp, buffers, sws_scale, hdecode, rfl, hpicture⟩ := step_cases hstep
  · exact hfail ⟨rfl, rfl, rfl, rfl⟩
  · -- the stream ends: the call gets the packet that was freed
    refine protocolInv_decode (fun _ => rfl) ?_ h.follows.flushed
    exact (List.append_nil _).trans h.follows.passed
  · -- a packet of the primary stream is passed at once
    refine protocolInv_decode (fun hend => ?_) ?_ h.follows.flushed
    · exact absurd ((h.reading hread).symm.trans hend) (by simp)
    · rw [primaryPackets_receivePacket, if_pos hprimary, ← h.follows.passed]
      rfl
  · -- any other packet is passed over
    refine protocolInv_search ⟨?_, h.follows.flushed⟩ fun hend => ?_
    · rw [primaryPackets_receivePacket, if_neg hother, List.append_nil, ← h.follows.passed]
      rfl
    · exact absurd ((h.reading hread).symm.trans hend) (by simp)
  · exact hfail (.refl s)
  · exact h.receives hdecode hkeeps (receives_of_receivePicture hpicture)

/-- A packet found in the previous frame after the end of the stream is passed again. -/
lemma not_followsProtocol_of_swap {answer : Answer} (hkeeps : ¬ KeepsPacket f s answer) :
    ∃ s', step f s answer = .ok s' ∧ ¬ s'.FollowsProtocol := by
  simp only [KeepsPacket, not_forall] at hkeeps
  obtain ⟨buffer, timestamp, buffers, sws_scale, rfl, hdecode, hend, hswaps, hpacket⟩ := hkeeps
  have hround : (some buffer).isSome ∨ s.endOfStream = true := .inl rfl
  have hends : BodyEnds f (timestamp * s.videoStream.primaryStreamTimeBase) sws_scale
    (s.atBody (some buffer) timestamp buffers) _ := body_ends f rfl
  cases hexit : (s.atBody (some buffer) timestamp buffers).body
    (timestamp * s.videoStream.primaryStreamTimeBase) sws_scale f with
  | leave s₁ =>
    rw [hexit] at hends
    cases hends with
    | leave _ function _ =>
      subst function
      exact hswaps.elim
  | ret s₁ result =>
    rw [hexit] at hends
    cases hends with
    | ret _ function emits =>
      subst function
      have hbranch : s.branch (timestamp * s.videoStream.primaryStreamTimeBase) = .nextFrame :=
        hswaps
      change (s.branch _).emits = _ at emits
      rw [hbranch] at emits
      cases emits
  | next s₁ =>
    rw [hexit] at hends
    cases hends with
    | next turns =>
      have hend₁ : s₁.endOfStream = true := turns.endOfStream.trans hend
      refine ⟨s₁.decode, ?_, fun h => hpacket ?_⟩
      · simp only [DecodeLoop.step, hdecode]
        rw [receivePicture_eq hround, hexit]
        simp [loop, search, hend₁]
      · have hcall := h.flushed ⟨s₁.currFrame.packet, s₁.endOfStream⟩ (by simp [decode]) hend₁
        exact (turns.swapped hswaps).2.packet.symm.trans hcall

/-! ### Runs -/

lemma protocolInv_start (videoStream : FFmpegVideoStreamImpl) (sampleTime : ℚ) :
    ProtocolInv (start videoStream sampleTime) where
  follows := ⟨rfl, by simp [start]⟩
  reading _ := rfl
  flushing h := by cases h

/-- Whatever FFmpeg answers, a loop follows the protocol if and only if it never swaps the staging
frames after the end of the stream while the previous frame has a packet. -/
theorem throughout_followsProtocol_iff (f : DecodeFunction) (videoStream : FFmpegVideoStreamImpl)
    (sampleTime : ℚ) (answers : List Answer) :
    Throughout (step f) FollowsProtocol (start videoStream sampleTime) answers ↔
      Along (step f) (KeepsPacket f) (start videoStream sampleTime) answers :=
  throughout_iff_along (fun _ _ _ h hkeeps hstep => h.step hkeeps hstep) (fun _ h => h.follows)
    (fun _ _ _ hkeeps => not_followsProtocol_of_swap hkeeps)
    (protocolInv_start videoStream sampleTime)

/-- `ffmpegVideoStreamPrepareAllFrames` has one staging frame and follows the protocol. -/
theorem prepareAllFrames_followsProtocol (videoStream : FFmpegVideoStreamImpl) (sampleTime : ℚ)
    (answers : List Answer) :
    Throughout (step .prepareAllFrames) FollowsProtocol (start videoStream sampleTime) answers := by
  apply Throughout.of_invariant (P := KeepsPacket .prepareAllFrames)
    (fun _ _ _ h hkeeps hstep => ProtocolInv.step h hkeeps hstep) (fun _ h => h.follows)
    (protocolInv_start videoStream sampleTime)
  rintro pre answer s - - buffer timestamp buffers sws_scale - - - hswaps
  exact hswaps.elim

/-- One packet, its picture at 0 seconds, the end of the stream, a delayed picture at 5 seconds. -/
def delayedPicture : List Answer :=
  [.packet ⟨0, [7]⟩, .decoded (some 0) 0 (fun _ => []) none, .endOfFile,
    .decoded (some 1) 5 (fun _ => []) none]

/-- Asked for the frame at 20 seconds, the loop passes the packet a second time. -/
theorem not_throughout_followsProtocol :
    ¬ ∀ (f : DecodeFunction) (videoStream : FFmpegVideoStreamImpl) (sampleTime : ℚ)
      (answers : List Answer),
      Throughout (step f) FollowsProtocol (start videoStream sampleTime) answers := by
  intro h
  have hrun : ∃ s, run (step .pickBestFrame) (start FFmpegVideoStreamImpl.tenSecondsApart 20)
      delayedPicture = .ok s ∧
        s.calls = [⟨some ⟨0, [7]⟩, false⟩, ⟨none, true⟩, ⟨some ⟨0, [7]⟩, true⟩] := by
    norm_num [delayedPicture, run, step, start, receivePicture, receiveFrame, setTime, body,
      pickBestFrameBody, branch, Branch.of, loop, search, decode, swap, freePacket, receivePacket,
      FFmpegVideoStreamImpl.tenSecondsApart, FFmpegVideoStreamImpl.stagingFrame]
  obtain ⟨s, hrun, hcalls⟩ := hrun
  have hprotocol := (h .pickBestFrame _ 20 delayedPicture).last hrun
  exact absurd (hprotocol.flushed ⟨some ⟨0, [7]⟩, true⟩ (by simp [hcalls]) rfl) (by simp)

end GifTools.DecodeLoop
