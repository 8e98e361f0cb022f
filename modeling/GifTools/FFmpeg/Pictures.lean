import GifTools.FFmpeg.Prepare

/-!
# The pictures of a stream

What a decoder delivers is a list of pictures with their times, and what a loop makes of them
depends on how long their memory lasts: the current staging frame holds the picture that was just
returned, the previous one may hold the picture before, and nothing is certain of older ones.

`WholeStream` is what FFmpeg answers for a stream without errors, from its first packet to the
decoder call that delivers no more pictures.
-/

namespace GifTools

open Runs

/-! ### Pictures -/

/-- The pictures that are delivered, with their times and what is in their memory when they are
returned. -/
def picturesFrom (timeBase : ℚ) : AVCodecInternal → List Answer → List (ℚ × List UInt8)
  | _, [] => []
  | codec, .decoded data timestamp buffers _ :: answers =>
    (data.map fun buffer =>
        (timestamp * timeBase, (codec.decode data buffers).buffers buffer)).toList ++
      picturesFrom timeBase (codec.decode data buffers) answers
  | codec, .readError :: answers => picturesFrom timeBase codec answers
  | codec, .endOfFile :: answers => picturesFrom timeBase codec answers
  | codec, .packet _ :: answers => picturesFrom timeBase codec answers
  | codec, .decodeError :: answers => picturesFrom timeBase codec answers

namespace FFmpegVideoStreamImpl

variable (videoStream : FFmpegVideoStreamImpl)

/-- The pictures a decoder delivers that was flushed before. -/
def pictures (answers : List Answer) : List (ℚ × List UInt8) :=
  picturesFrom videoStream.primaryStreamTimeBase .flushed answers

/-- The frame that is to be made of a picture. -/
def frameOfPicture (scale : List UInt8 → List UInt8) (picture : ℚ × List UInt8) :
    FFmpegVideoFrameImpl :=
  videoStream.scaledFrame picture.1 (scale picture.2)

end FFmpegVideoStreamImpl

lemma picturesFrom_cons_picture (timeBase : ℚ) (codec : AVCodecInternal) (buffer : Nat)
    (timestamp : Int) (buffers : Nat → List UInt8)
    (sws_scale : Option (List UInt8 → List UInt8)) (answers : List Answer) :
    picturesFrom timeBase codec (.decoded (some buffer) timestamp buffers sws_scale :: answers) =
      (timestamp * timeBase, (codec.decode (some buffer) buffers).buffers buffer) ::
        picturesFrom timeBase (codec.decode (some buffer) buffers) answers := rfl

lemma map_fst_picturesFrom (timeBase : ℚ) (codec : AVCodecInternal) (answers : List Answer) :
    (picturesFrom timeBase codec answers).map Prod.fst =
      answers.filterMap (Answer.time timeBase) := by
  induction answers generalizing codec with
  | nil => rfl
  | cons answer answers ih =>
    cases answer with
    | readError => exact ih codec
    | endOfFile => exact ih codec
    | packet packet => exact ih codec
    | decodeError => exact ih codec
    | decoded data timestamp buffers sws_scale =>
      cases data with
      | none => exact ih _
      | some buffer => exact congrArg (_ :: ·) (ih _)

lemma exists_picturesFrom_append (timeBase : ℚ) (codec : AVCodecInternal)
    (pre rest : List Answer) : ∃ codec', picturesFrom timeBase codec (pre ++ rest) =
      picturesFrom timeBase codec pre ++ picturesFrom timeBase codec' rest := by
  induction pre generalizing codec with
  | nil => exact ⟨codec, rfl⟩
  | cons answer pre ih =>
    cases answer with
    | readError => exact ih codec
    | endOfFile => exact ih codec
    | packet packet => exact ih codec
    | decodeError => exact ih codec
    | decoded data timestamp buffers sws_scale =>
      obtain ⟨codec', heq⟩ := ih (codec.decode data buffers)
      refine ⟨codec', ?_⟩
      rw [List.cons_append, picturesFrom, picturesFrom, heq, List.append_assoc]

/-- What was delivered in the beginning comes first. -/
lemma FFmpegVideoStreamImpl.pictures_prefix (videoStream : FFmpegVideoStreamImpl)
    {pre answers : List Answer} (h : pre <+: answers) :
    videoStream.pictures pre <+: videoStream.pictures answers := by
  obtain ⟨rest, rfl⟩ := h
  obtain ⟨codec, heq⟩ :=
    exists_picturesFrom_append videoStream.primaryStreamTimeBase .flushed pre rest
  rw [pictures, pictures, heq]
  exact List.prefix_append _ _

/-! ### Whole streams -/

/-- After the end of the stream the decoder delivers what it still holds, and at last no picture. -/
inductive Flushes (scale : List UInt8 → List UInt8) : List Answer → Prop
  | picture {buffer : Nat} {timestamp : Int} {buffers : Nat → List UInt8} {answers : List Answer} :
    Flushes scale answers →
      Flushes scale (.decoded (some buffer) timestamp buffers (some scale) :: answers)
  | drained (timestamp : Int) (buffers : Nat → List UInt8) :
    Flushes scale [.decoded none timestamp buffers (some scale)]

/-- The answers for a stream that is read, decoded and scaled without errors: packets of other
streams, packets with or without a picture, and the end. -/
inductive WholeStream (primaryStreamIndex : Int) (scale : List UInt8 → List UInt8) :
    List Answer → Prop
  | other {packet : AVPacket} {answers : List Answer} :
    packet.stream_index ≠ primaryStreamIndex → WholeStream primaryStreamIndex scale answers →
      WholeStream primaryStreamIndex scale (.packet packet :: answers)
  | decoded {packet : AVPacket} {data : Option Nat} {timestamp : Int} {buffers : Nat → List UInt8}
      {answers : List Answer} :
    packet.stream_index = primaryStreamIndex → WholeStream primaryStreamIndex scale answers →
      WholeStream primaryStreamIndex scale
        (.packet packet :: .decoded data timestamp buffers (some scale) :: answers)
  | endOfFile {answers : List Answer} :
    Flushes scale answers → WholeStream primaryStreamIndex scale (.endOfFile :: answers)

/-- The call after the last picture reports a negative time. -/
def FFmpegVideoStreamImpl.NegativeWithoutPicture (videoStream : FFmpegVideoStreamImpl)
    (answers : List Answer) : Prop :=
  ∀ (timestamp : Int) buffers sws_scale,
    .decoded none timestamp buffers sws_scale ∈ answers.getLast? →
      timestamp * videoStream.primaryStreamTimeBase < 0

/-! ### The memory of a picture -/

/-- The picture that was returned last is still there. -/
structure AVCodecInternal.KeepsLast (codec codec' : AVCodecInternal) : Prop where
  to_free : codec'.to_free = codec.to_free
  buffers : ∀ buffer, codec.to_free = some buffer → codec'.buffers buffer = codec.buffers buffer

/-- A staging frame holds the picture that was returned last. -/
def FFmpegStagingVideoFrame.HoldsLast (stagingFrame : FFmpegStagingVideoFrame)
    (codec : AVCodecInternal) (picture : List UInt8) : Prop :=
  ∃ buffer, stagingFrame.decodedFrame.data = some buffer ∧ codec.to_free = some buffer ∧
    codec.buffers buffer = picture

section

variable {codec codec' : AVCodecInternal} {stagingFrame stagingFrame' : FFmpegStagingVideoFrame}
  {picture : List UInt8} {buffers : Nat → List UInt8} {data : Option Nat}
  {sws_scale : Option (List UInt8 → List UInt8)}

lemma AVCodecInternal.KeepsLast.refl (codec : AVCodecInternal) : codec.KeepsLast codec :=
  ⟨rfl, fun _ _ => rfl⟩

lemma AVCodecInternal.decode_buffers {buffer : Nat} (h : codec.to_free = some buffer) :
    (codec.decode data buffers).buffers buffer = codec.buffers buffer := if_pos h

lemma AVCodecInternal.decode_buffers_of_ne {buffer : Nat} (h : codec.to_free ≠ some buffer) :
    (codec.decode data buffers).buffers buffer = buffers buffer := if_neg h

lemma AVCodecInternal.keepsLast_decode_none (codec : AVCodecInternal)
    (buffers : Nat → List UInt8) : codec.KeepsLast (codec.decode none buffers) :=
  ⟨rfl, fun _ => decode_buffers⟩

lemma FFmpegStagingVideoFrame.HoldsLast.keepsLast (h : stagingFrame.HoldsLast codec picture)
    (hcodec : codec.KeepsLast codec') : stagingFrame.HoldsLast codec' picture := by
  obtain ⟨buffer, hdata, hlast, hpicture⟩ := h
  exact ⟨buffer, hdata, hcodec.to_free.trans hlast, (hcodec.buffers buffer hlast).trans hpicture⟩

/-- It is scaled as it was delivered, also after one more call of the decoder. -/
lemma FFmpegStagingVideoFrame.HoldsLast.scaled (h : stagingFrame.HoldsLast codec picture)
    (data : Option Nat) (buffers : Nat → List UInt8) (scale : List UInt8 → List UInt8) :
    stagingFrame.scaled (codec.decode data buffers) (some scale) = some (scale picture) := by
  obtain ⟨buffer, hdata, hlast, hpicture⟩ := h
  rw [FFmpegStagingVideoFrame.scaled_of_some hdata, Option.map_some,
    AVCodecInternal.decode_buffers hlast, hpicture]

end

namespace DecodeLoop

variable {f : DecodeFunction} {s s' s₁ : DecodeLoop} {data : Option Nat} {timestamp : Int}
  {buffers : Nat → List UInt8} {scale : List UInt8 → List UInt8} {picture : List UInt8}

/-- The frame of the picture before. -/
lemma frameOf_previous (h : s.prevFrame.HoldsLast s.codec picture) (data : Option Nat)
    (timestamp : Int) (buffers : Nat → List UInt8) (scale : List UInt8 → List UInt8) :
    (s.atBody data timestamp buffers).frameOf (some scale) .previous =
      some (s.videoStream.frameOfPicture scale (s.prevFrame.timeSecondsEst, picture)) := by
  have hscaled := h.scaled data buffers scale
  exact congrArg (Option.map _) hscaled

/-- The frame of the picture that was just delivered. -/
lemma frameOf_current (s : DecodeLoop) (buffer : Nat) (timestamp : Int)
    (buffers : Nat → List UInt8) (scale : List UInt8 → List UInt8) :
    (s.atBody (some buffer) timestamp buffers).frameOf (some scale) .current =
      some (s.videoStream.frameOfPicture scale
        (timestamp * s.videoStream.primaryStreamTimeBase,
          (s.codec.decode (some buffer) buffers).buffers buffer)) := rfl

/-- Where the scaler works, a staging frame is made into a frame. -/
lemma exists_frameOf (s : DecodeLoop) (scale : List UInt8 → List UInt8) (staging : Staging) :
    ∃ imageByteBuffer, s.frameOf (some scale) staging = some
      (s.videoStream.scaledFrame (s.stagingFrame staging).timeSecondsEst imageByteBuffer) := by
  cases hdata : (s.stagingFrame staging).decodedFrame.data with
  | none =>
    refine ⟨(s.stagingFrame staging).imageByteBuffer, ?_⟩
    rw [frameOf, FFmpegStagingVideoFrame.scaled_of_none hdata, Option.map_some]
  | some buffer =>
    refine ⟨scale (s.codec.buffers buffer), ?_⟩
    rw [frameOf, FFmpegStagingVideoFrame.scaled_of_some hdata, Option.map_some, Option.map_some]

/-- A swap keeps the picture that was just delivered. -/
lemma Turns.holdsLast {time : ℚ} {buffer : Nat} {sws_scale : Option (List UInt8 → List UInt8)}
    (h : Turns f time sws_scale (s.atBody (some buffer) timestamp buffers) s₁)
    (hswaps : (s.atBody (some buffer) timestamp buffers).Swaps time f) :
    s₁.prevFrame.HoldsLast s₁.codec ((s.codec.decode (some buffer) buffers).buffers buffer) := by
  refine ⟨buffer, ?_, ?_, ?_⟩
  · rw [(h.swapped hswaps).1.decodedFrame]
    rfl
  · rw [h.codec]
    rfl
  · rw [h.codec]
    rfl

/-! ### One answer -/

def Returned (s : DecodeLoop) : Prop := ∃ result, s.request = .returned result

/-- The loop waits for the first answer of a round. -/
def Waits (s : DecodeLoop) (endOfStream : Bool) : Prop :=
  s.endOfStream = endOfStream ∧ s.request = if endOfStream then .decode else .read

/-- The loops differ in nothing that a later body looks at. -/
structure SameChoice (s s' : DecodeLoop) : Prop where
  videoStream : s'.videoStream = s.videoStream
  prevFrame : s'.prevFrame = s.prevFrame
  sampleTime : s'.sampleTime = s.sampleTime
  codec : s.codec.KeepsLast s'.codec

lemma waits_search (s : DecodeLoop) : s.search.Waits s.endOfStream := by
  cases h : s.endOfStream <;> simp [Waits, search, decode, h]

lemma sameChoice_search (h : SameChoice s s₁) : SameChoice s s₁.search := by
  cases heos : s₁.endOfStream <;> simp only [search, decode, heos] <;> exact ⟨h.1, h.2, h.3, h.4⟩

lemma search_codec (s : DecodeLoop) : s.search.codec = s.codec := by
  cases h : s.endOfStream <;> simp [search, decode, h]

lemma search_prevFrame (s : DecodeLoop) : s.search.prevFrame = s.prevFrame := by
  cases h : s.endOfStream <;> simp [search, decode, h]

/-- A loop that has returned takes no answer. -/
lemma step_ne_of_returned (s : DecodeLoop) (answer : Answer) (s' : DecodeLoop)
    (hreturned : s.Returned) : step f s answer ≠ .ok s' := by
  intro h
  obtain ⟨result, hresult⟩ := hreturned
  simp [step, hresult] at h

lemma step_other {packet : AVPacket} (h : s.Waits false)
    (hpacket : packet.stream_index ≠ s.videoStream.primaryStreamIndex) :
    ∃ s', step f s (.packet packet) = .ok s' ∧ s'.Waits false ∧ SameChoice s s' ∧
      s'.codec = s.codec := by
  obtain ⟨heos, hrequest⟩ := h
  have hwaits := waits_search (s.freePacket.receivePacket packet)
  refine ⟨(s.freePacket.receivePacket packet).search, ?_, heos ▸ hwaits,
    sameChoice_search ⟨rfl, rfl, rfl, .refl _⟩, search_codec _⟩
  simp only [step, hrequest]
  exact congrArg _ (if_neg hpacket)

lemma step_packet (packet : AVPacket) (h : s.Waits false)
    (hpacket : packet.stream_index = s.videoStream.primaryStreamIndex) :
    ∃ s', step f s (.packet packet) = .ok s' ∧ s'.request = .decode ∧ s'.endOfStream = false ∧
      SameChoice s s' ∧ s'.codec = s.codec := by
  obtain ⟨heos, hrequest⟩ := h
  refine ⟨(s.freePacket.receivePacket packet).decode, ?_, rfl, heos, ⟨rfl, rfl, rfl, .refl _⟩, rfl⟩
  simp only [step, hrequest]
  exact congrArg _ (if_pos hpacket)

lemma step_endOfFile (h : s.Waits false) :
    ∃ s', step f s .endOfFile = .ok s' ∧ s'.Waits true ∧ SameChoice s s' ∧
      s'.codec = s.codec := by
  obtain ⟨-, hrequest⟩ := h
  refine ⟨DecodeLoop.decode { s.freePacket with endOfStream := true }, ?_, ⟨rfl, rfl⟩,
    ⟨rfl, rfl, rfl, .refl _⟩, rfl⟩
  simp only [step, hrequest, Bool.false_eq_true, if_false]

lemma step_noPicture (timestamp : Int) (buffers : Nat → List UInt8)
    (sws_scale : Option (List UInt8 → List UInt8)) (hdecode : s.request = .decode)
    (heos : s.endOfStream = false) :
    ∃ s', step f s (.decoded none timestamp buffers sws_scale) = .ok s' ∧ s'.Waits false ∧
      SameChoice s s' ∧ s'.codec = s.codec.decode none buffers := by
  have hwaits := waits_search (s.receiveFrame none timestamp buffers)
  refine ⟨(s.receiveFrame none timestamp buffers).search, ?_, heos ▸ hwaits,
    sameChoice_search ⟨rfl, rfl, rfl, s.codec.keepsLast_decode_none buffers⟩, search_codec _⟩
  simp only [step, hdecode]
  exact if_pos (by simp [receiveFrame, heos])

/-- The body runs on a decoded answer. -/
lemma step_body {sws_scale : Option (List UInt8 → List UInt8)} (hdecode : s.request = .decode)
    (hround : data.isSome ∨ s.endOfStream = true) :
    step f s (.decoded data timestamp buffers sws_scale) =
      match (s.atBody data timestamp buffers).body
        (timestamp * s.videoStream.primaryStreamTimeBase) sws_scale f with
      | .next s => s.loop f data.isSome
      | .leave s => s.leave f
      | .ret s result => .ok (s.ret result) := by
  simp only [step, hdecode]
  exact receivePicture_eq hround

/-- After a body that does not leave the loop, the next picture is searched. -/
lemma step_next {sws_scale : Option (List UInt8 → List UInt8)} {buffer : Nat}
    (hdecode : s.request = .decode)
    (hbody : (s.atBody (some buffer) timestamp buffers).body
      (timestamp * s.videoStream.primaryStreamTimeBase) sws_scale f = .next s₁)
    (turns : Turns f (timestamp * s.videoStream.primaryStreamTimeBase) sws_scale
      (s.atBody (some buffer) timestamp buffers) s₁) :
    step f s (.decoded (some buffer) timestamp buffers sws_scale) = .ok s₁.search ∧
      s₁.search.codec = s.codec.decode (some buffer) buffers ∧
      s₁.search.Waits s.endOfStream := by
  refine ⟨?_, (search_codec s₁).trans turns.codec, ?_⟩
  · rw [step_body hdecode (.inl rfl), hbody]
    exact if_pos (by simp)
  · have hwaits := waits_search s₁
    rw [turns.endOfStream] at hwaits
    exact hwaits

/-! ### Rounds until the loop returns -/

/-- The loop returns, and `Q` holds then with all pictures that were delivered. -/
def ReturnsWith (f : DecodeFunction) (timeBase : ℚ)
    (Q : List (ℚ × List UInt8) → DecodeLoop → Prop) (done : List (ℚ × List UInt8))
    (s : DecodeLoop) (answers : List Answer) : Prop :=
  Stops (step f) Returned
    (fun pre s' => Q (done ++ picturesFrom timeBase s.codec pre) s') s answers

section

variable {timeBase : ℚ} {Q : List (ℚ × List UInt8) → DecodeLoop → Prop}
  {done : List (ℚ × List UInt8)} {answers : List Answer}

lemma ReturnsWith.quiet {answer : Answer} (h : step f s answer = .ok s')
    (hquiet : ∀ answers, picturesFrom timeBase s.codec (answer :: answers) =
      picturesFrom timeBase s'.codec answers)
    (hs' : ReturnsWith f timeBase Q done s' answers) :
    ReturnsWith f timeBase Q done s (answer :: answers) := by
  refine Stops.cons h ?_
  simp only [hquiet]
  exact hs'

lemma ReturnsWith.delivered {buffer : Nat} {sws_scale : Option (List UInt8 → List UInt8)}
    (h : step f s (.decoded (some buffer) timestamp buffers sws_scale) = .ok s')
    (hcodec : s'.codec = s.codec.decode (some buffer) buffers)
    (hs' : ReturnsWith f timeBase Q (done ++ [(timestamp * timeBase,
      (s.codec.decode (some buffer) buffers).buffers buffer)]) s' answers) :
    ReturnsWith f timeBase Q done s
      (.decoded (some buffer) timestamp buffers sws_scale :: answers) := by
  refine Stops.cons h ?_
  simpa only [ReturnsWith, hcodec, List.append_assoc, List.singleton_append,
    picturesFrom_cons_picture] using hs'

end

/-- The rule for whole streams: `I` holds with the pictures that were delivered and those that are
still to come, every picture either makes the loop return with `Q` or keeps `I`, and the answer
after the last picture of `all` makes it return with `Q`. -/
structure PictureRule (f : DecodeFunction) (videoStream : FFmpegVideoStreamImpl)
    (scale : List UInt8 → List UInt8) (all : List Answer)
    (I : List (ℚ × List UInt8) → List (ℚ × List UInt8) → DecodeLoop → Prop)
    (Q : List (ℚ × List UInt8) → DecodeLoop → Prop) : Prop where
  sameStream : ∀ done pics s, I done pics s →
    s.videoStream.primaryStreamIndex = videoStream.primaryStreamIndex
  sameChoice : ∀ done pics s s', I done pics s → SameChoice s s' → I done pics s'
  picture : ∀ buffer (timestamp : Int) buffers done pics s picture,
    picture = (s.codec.decode (some buffer) buffers).buffers buffer →
      I done ((timestamp * videoStream.primaryStreamTimeBase, picture) :: pics) s →
        s.request = .decode →
          ∃ s', step f s (.decoded (some buffer) timestamp buffers (some scale)) = .ok s' ∧
            s'.codec = s.codec.decode (some buffer) buffers ∧
            (s'.Returned ∧
                Q (done ++ [(timestamp * videoStream.primaryStreamTimeBase, picture)]) s' ∨
              s'.Waits s.endOfStream ∧
                I (done ++ [(timestamp * videoStream.primaryStreamTimeBase, picture)]) pics s')
  drained : ∀ (timestamp : Int) buffers done s,
    .decoded none timestamp buffers (some scale) ∈ all.getLast? → I done [] s → s.Waits true →
      ∃ s', step f s (.decoded none timestamp buffers (some scale)) = .ok s' ∧
        s'.Returned ∧ Q done s'

namespace PictureRule

variable {videoStream : FFmpegVideoStreamImpl} {all answers : List Answer}
  {I : List (ℚ × List UInt8) → List (ℚ × List UInt8) → DecodeLoop → Prop}
  {Q : List (ℚ × List UInt8) → DecodeLoop → Prop} {done : List (ℚ × List UInt8)}

/-- The round of a picture, if the rounds after it are known to return. -/
lemma delivered (rule : PictureRule f videoStream scale all I Q) {buffer : Nat}
    (hI : I done (picturesFrom videoStream.primaryStreamTimeBase s.codec
      (.decoded (some buffer) timestamp buffers (some scale) :: answers)) s)
    (hdecode : s.request = .decode)
    (hrest : ∀ {done : List (ℚ × List UInt8)} {s' : DecodeLoop},
      I done (picturesFrom videoStream.primaryStreamTimeBase s'.codec answers) s' →
        s'.Waits s.endOfStream →
          ReturnsWith f videoStream.primaryStreamTimeBase Q done s' answers) :
    ReturnsWith f videoStream.primaryStreamTimeBase Q done s
      (.decoded (some buffer) timestamp buffers (some scale) :: answers) := by
  obtain ⟨s', hstep, hcodec, ⟨hreturned, hQ⟩ | ⟨hwaits, hI'⟩⟩ :=
    rule.picture buffer timestamp buffers done _ s _ rfl hI hdecode
  · refine .delivered hstep hcodec (stops_of_final hreturned ?_)
    rw [picturesFrom, List.append_nil]
    exact hQ
  · refine .delivered hstep hcodec (hrest ?_ hwaits)
    rw [hcodec]
    exact hI'

/-- The rounds after the end of the stream. -/
lemma flushes (rule : PictureRule f videoStream scale all I Q) (h : Flushes scale answers)
    (hall : answers <:+ all)
    (hI : I done (picturesFrom videoStream.primaryStreamTimeBase s.codec answers) s)
    (hs : s.Waits true) : ReturnsWith f videoStream.primaryStreamTimeBase Q done s answers := by
  induction h generalizing done s with
  | @picture buffer timestamp buffers answers _ ih =>
    exact rule.delivered hI hs.2 fun hI' hwaits =>
      ih ((List.suffix_cons _ _).trans hall) hI' (hs.1 ▸ hwaits)
  | drained timestamp buffers =>
    obtain ⟨pre, rfl⟩ := hall
    obtain ⟨s', hstep, hreturned, hQ⟩ := rule.drained timestamp buffers done s (by simp) hI hs
    refine Stops.cons hstep (stops_of_final hreturned ?_)
    rw [picturesFrom, picturesFrom, Option.map_none, Option.toList_none, List.append_nil,
      List.append_nil]
    exact hQ

theorem returnsWith (rule : PictureRule f videoStream scale all I Q)
    (h : WholeStream videoStream.primaryStreamIndex scale answers) (hall : answers <:+ all)
    (hI : I done (picturesFrom videoStream.primaryStreamTimeBase s.codec answers) s)
    (hs : s.Waits false) : ReturnsWith f videoStream.primaryStreamTimeBase Q done s answers := by
  induction h generalizing done s with
  | @other packet answers hpacket _ ih =>
    rw [← rule.sameStream _ _ _ hI] at hpacket
    obtain ⟨s', hstep, hwaits, hsame, hcodec⟩ := step_other (f := f) hs hpacket
    have hI' := rule.sameChoice _ _ _ _ hI hsame
    rw [picturesFrom, ← hcodec] at hI'
    exact .quiet hstep (fun _ => by rw [hcodec]; rfl)
      (ih ((List.suffix_cons _ _).trans hall) hI' hwaits)
  | @decoded packet data timestamp buffers answers hpacket _ ih =>
    rw [← rule.sameStream _ _ _ hI] at hpacket
    obtain ⟨s₁, hstep, hdecode, heos, hsame₁, hcodec⟩ := step_packet (f := f) packet hs hpacket
    have hI₁ := rule.sameChoice _ _ _ _ hI hsame₁
    rw [picturesFrom, ← hcodec] at hI₁
    have hrest : answers <:+ all :=
      ((List.suffix_cons _ _).trans (List.suffix_cons _ _)).trans hall
    refine .quiet hstep (fun _ => by rw [hcodec]; rfl) ?_
    cases data with
    | none =>
      obtain ⟨s₂, hstep₂, hwaits, hsame₂, hcodec₂⟩ :=
        step_noPicture (f := f) timestamp buffers (some scale) hdecode heos
      have hI₂ := rule.sameChoice _ _ _ _ hI₁ hsame₂
      rw [picturesFrom, Option.map_none, Option.toList_none, List.nil_append, ← hcodec₂] at hI₂
      exact .quiet hstep₂ (fun _ => by rw [hcodec₂]; rfl) (ih hrest hI₂ hwaits)
    | some buffer =>
      exact rule.delivered hI₁ hdecode fun hI' hwaits => ih hrest hI' (heos ▸ hwaits)
  | @endOfFile answers hflush =>
    obtain ⟨s₁, hstep, hwaits, hsame₁, hcodec⟩ := step_endOfFile (f := f) hs
    have hI₁ := rule.sameChoice _ _ _ _ hI hsame₁
    rw [picturesFrom, ← hcodec] at hI₁
    exact .quiet hstep (fun _ => by rw [hcodec]; rfl)
      (rule.flushes hflush ((List.suffix_cons _ _).trans hall) hI₁ hwaits)

end PictureRule

end DecodeLoop

end GifTools
