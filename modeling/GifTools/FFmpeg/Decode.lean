import GifTools.Core.Runs
import GifTools.FFmpeg.Prepared

/-!
# The decode loops

`ffmpegVideoStreamPickBestFrame`, `ffmpegVideoStreamPrepareAllFrames` and
`ffmpegVideoStreamPrepareFrames` read packets and decode them in three nested loops. The inner two
are the same in all of them: packets are read until one belongs to the primary stream, which is
then passed to the decoder, until there is a picture or the stream has ended. What is done with a
picture is the body of the outer loop.

The loops ask FFmpeg for packets and pictures. `DecodeLoop` is a loop that waits for an answer, and
`DecodeLoop.step` what it does with one, up to its next request. It also keeps the packets it was
given and the calls of `avcodec_decode_video2` it made.

As `refcounted_frames` is not set, a picture belongs to the decoder. It stays as it is until the
next picture has been returned; in the calls after that its memory may be used again, while the
staging frame that was decoded into still points to it.
-/

namespace GifTools

structure AVPacket where
  stream_index : Int
  data : List UInt8
  deriving DecidableEq

structure AVFrame where
  /-- The memory of the picture; none, and a height of 0, without one. -/
  data : Option Nat
  best_effort_timestamp : Int

def AV_NOPTS_VALUE : Int := -2 ^ 63

def av_frame_alloc : AVFrame := ⟨none, AV_NOPTS_VALUE⟩

structure FFmpegStagingVideoFrame where
  timeSecondsEst : ℚ
  imageByteBuffer : List UInt8
  decodedFrame : AVFrame
  /-- `none` is the empty packet. -/
  packet : Option AVPacket

/-- What the decoder keeps between two calls. -/
structure AVCodecInternal where
  /-- The memory it decodes to. -/
  buffers : Nat → List UInt8
  /-- The last picture that was returned. -/
  to_free : Option Nat

/-- The decoder when its buffers have been flushed. -/
def AVCodecInternal.flushed : AVCodecInternal := ⟨fun _ => [], none⟩

/-- After a call that returns this picture or none. The call may write to all memory but that of the
picture that was returned last. -/
def AVCodecInternal.decode (codec : AVCodecInternal) (data : Option Nat)
    (buffers : Nat → List UInt8) : AVCodecInternal where
  buffers buffer := if codec.to_free = some buffer then codec.buffers buffer else buffers buffer
  to_free := data.or codec.to_free

/-- What FFmpeg answers. -/
inductive Answer where
  /-- `av_read_frame` fails. -/
  | readError
  /-- `av_read_frame` returns `AVERROR_EOF`. -/
  | endOfFile
  | packet (packet : AVPacket)
  /-- `avcodec_decode_video2` fails. -/
  | decodeError
  /-- `avcodec_decode_video2` returns, with or without a picture, and `buffers` is what is in the
  memory then. `sws_scale` is what becomes of a picture that is scaled before the next call, and
  `none` if that fails. -/
  | decoded (data : Option Nat) (best_effort_timestamp : Int) (buffers : Nat → List UInt8)
    (sws_scale : Option (List UInt8 → List UInt8))

/-- A call of `avcodec_decode_video2`. -/
structure DecodeCall where
  packet : Option AVPacket
  /-- The end of the stream was seen before. -/
  endOfStream : Bool

inductive DecodeResult where
  | frame (frame : Option FFmpegVideoFrameImpl)
  | count (size : Nat)

inductive Request where
  | read | decode | returned (result : DecodeResult)

/-- A loop between two answers. -/
structure DecodeLoop where
  videoStream : FFmpegVideoStreamImpl
  prevFrame : FFmpegStagingVideoFrame
  currFrame : FFmpegStagingVideoFrame
  sampleTime : ℚ
  endOfStream : Bool
  codec : AVCodecInternal
  request : Request
  packets : List AVPacket
  calls : List DecodeCall

/-- The functions that run such a loop. -/
inductive DecodeFunction where
  | pickBestFrame | prepareAllFrames | prepareFrames (desiredFrameTimeSeconds : ℚ)

inductive LoopFault where
  /-- The answer is none to what was asked. -/
  | unasked
  /-- An empty handle is dereferenced. -/
  | nullDeref
  /-- The call still waits for an answer. -/
  | running
  deriving DecidableEq

/-! ### Frames -/

/-- `sws_scale` on a staging frame: its buffer then, and `none` if it fails. In a frame without a
picture there is nothing to scale, and the buffer stays as it is. -/
def FFmpegStagingVideoFrame.scaled (stagingFrame : FFmpegStagingVideoFrame)
    (codec : AVCodecInternal) (sws_scale : Option (List UInt8 → List UInt8)) :
    Option (List UInt8) :=
  match stagingFrame.decodedFrame.data with
  | none => some stagingFrame.imageByteBuffer
  | some buffer => sws_scale.map fun scale => scale (codec.buffers buffer)

/-- The frame that is made of a staging frame, and the staging frame after. -/
def ffmpegVideoFrameFromStaging (videoStream : FFmpegVideoStreamImpl) (codec : AVCodecInternal)
    (sws_scale : Option (List UInt8 → List UInt8))
    (ffmpegStagingVideoFrame : FFmpegStagingVideoFrame) :
    Option FFmpegVideoFrameImpl × FFmpegStagingVideoFrame :=
  match ffmpegStagingVideoFrame.scaled codec sws_scale with
  | none => (none, ffmpegStagingVideoFrame)
  | some imageByteBuffer =>
    (some ⟨ffmpegStagingVideoFrame.timeSecondsEst,
      some ⟨.r8g8b8a8Unorm, videoStream.width, videoStream.height, imageByteBuffer⟩⟩,
      { ffmpegStagingVideoFrame with imageByteBuffer := imageByteBuffer })

namespace FFmpegVideoStreamImpl

variable (videoStream : FFmpegVideoStreamImpl)

/-- `av_image_get_buffer_size` for `DESIRED_FMT` with an alignment of 1. -/
def imgBufferSize : Nat := videoStream.width * videoStream.height * 4

/-- A new staging frame. -/
def stagingFrame : FFmpegStagingVideoFrame :=
  ⟨0, List.replicate videoStream.imgBufferSize 0, av_frame_alloc, none⟩

def clearPreparedFrames : FFmpegVideoStreamImpl := { videoStream with preparedFrames := [] }

def emplaceBack (frame : Option FFmpegVideoFrameImpl) : FFmpegVideoStreamImpl :=
  { videoStream with preparedFrames := videoStream.preparedFrames ++ [frame] }

/-- `std::sort` compares as soon as there are two elements, and then every one of them. -/
def sortPreparedFrames : Except LoopFault FFmpegVideoStreamImpl :=
  match videoStream.preparedFrames.mapM id with
  | some frames =>
    .ok { videoStream with
      preparedFrames := (frames.mergeSort fun lhs rhs =>
        decide (lhs.timeSecondsEst ≤ rhs.timeSecondsEst)).map some }
  | none =>
    if videoStream.preparedFrames.length < 2 then .ok videoStream else .error .nullDeref

end FFmpegVideoStreamImpl

/-! ### The choice between the staging frames -/

/-- The branches of `ffmpegVideoStreamPickBestFrame` and `ffmpegVideoStreamPrepareFrames`. -/
inductive Branch where
  | currentGood
  /-- The time is negative. -/
  | previousOnly
  | previousCloser
  | currentCloser
  | nextFrame
  deriving DecidableEq

/-- The branch at a time, with the time of the previous frame. -/
def Branch.of (frameDurationSeconds sampleTime prevTime mostAccurateTime : ℚ) : Branch :=
  let diff := |mostAccurateTime - sampleTime|
  if diff < frameDurationSeconds then .currentGood
  else if mostAccurateTime < 0 then .previousOnly
  else if sampleTime < mostAccurateTime then
    let prevDiff := |prevTime - sampleTime|
    let currDiff := |mostAccurateTime - sampleTime|
    if prevDiff < currDiff then .previousCloser else .currentCloser
  else .nextFrame

inductive Staging where
  | current | previous
  deriving DecidableEq

/-- The staging frame that is made into a frame. -/
def Branch.emits : Branch → Option Staging
  | .currentGood => some .current
  | .previousOnly => some .previous
  | .previousCloser => some .previous
  | .currentCloser => some .current
  | .nextFrame => none

namespace DecodeLoop

variable (s : DecodeLoop)

def branch (mostAccurateTime : ℚ) : Branch :=
  .of s.videoStream.frameDurationSeconds s.sampleTime s.prevFrame.timeSecondsEst mostAccurateTime

/-! ### Requests -/

def decode : DecodeLoop :=
  { s with
    request := .decode
    calls := s.calls ++ [⟨s.currFrame.packet, s.endOfStream⟩] }

/-- The search for packets starts; after the end of the stream there is none. -/
def search : DecodeLoop := if s.endOfStream then s.decode else { s with request := .read }

def ret (result : DecodeResult) : DecodeLoop := { s with request := .returned result }

/-- The return in the middle of the loop when FFmpeg fails. -/
def fail : DecodeFunction → DecodeLoop
  | .pickBestFrame => s.ret (.frame none)
  | .prepareAllFrames => s.ret (.count 0)
  | .prepareFrames _ => s.ret (.count 0)

def sortAndCount : Except LoopFault DecodeLoop := do
  let videoStream ← s.videoStream.sortPreparedFrames
  return { s with videoStream := videoStream }.ret (.count videoStream.preparedFrames.length)

/-- What follows the loop. -/
def leave : DecodeFunction → Except LoopFault DecodeLoop
  | .pickBestFrame => .ok (s.ret (.frame none))
  | .prepareAllFrames => s.sortAndCount
  | .prepareFrames _ => s.sortAndCount

/-- The condition of the outer loop. -/
def loop (f : DecodeFunction) (frameAcquired : Bool) : Except LoopFault DecodeLoop :=
  if !s.endOfStream || frameAcquired then .ok s.search else s.leave f

/-! ### Bodies of the outer loop -/

def swap : DecodeLoop := { s with prevFrame := s.currFrame, currFrame := s.prevFrame }

def emplaceBack (frame : Option FFmpegVideoFrameImpl) : DecodeLoop :=
  { s with videoStream := s.videoStream.emplaceBack frame }

/-- `if (frame) { preparedFrames.emplace_back(std::move(frame)); }` -/
def emplaceFrame (frame : Option FFmpegVideoFrameImpl) : DecodeLoop :=
  match frame with
  | some frame => s.emplaceBack (some frame)
  | none => s

/-- The call of `ffmpegVideoFrameFromStaging` on a staging frame. -/
def fromStaging (sws_scale : Option (List UInt8 → List UInt8)) :
    Staging → Option FFmpegVideoFrameImpl × DecodeLoop
  | .current =>
    let made := ffmpegVideoFrameFromStaging s.videoStream s.codec sws_scale s.currFrame
    (made.1, { s with currFrame := made.2 })
  | .previous =>
    let made := ffmpegVideoFrameFromStaging s.videoStream s.codec sws_scale s.prevFrame
    (made.1, { s with prevFrame := made.2 })

/-- A staging frame is made into a frame, which is prepared. -/
def emplaceFrom (sws_scale : Option (List UInt8 → List UInt8)) (staging : Staging) : DecodeLoop :=
  let made := s.fromStaging sws_scale staging
  made.2.emplaceFrame made.1

def nextSample (desiredFrameTimeSeconds : ℚ) : DecodeLoop :=
  { s with sampleTime := s.sampleTime + desiredFrameTimeSeconds }

/-- How the body of the loop ends. -/
inductive Exit where
  /-- At its end, or with `continue`. -/
  | next (s : DecodeLoop)
  /-- With `break`. -/
  | leave (s : DecodeLoop)
  | ret (s : DecodeLoop) (result : DecodeResult)

/-- A staging frame is made into a frame, which is returned. -/
def returnFrom (sws_scale : Option (List UInt8 → List UInt8)) (staging : Staging) : Exit :=
  let made := s.fromStaging sws_scale staging
  .ret made.2 (.frame made.1)

def pickBestFrameBody (mostAccurateTime : ℚ) (sws_scale : Option (List UInt8 → List UInt8)) :
    Exit :=
  match s.branch mostAccurateTime with
  | .currentGood => s.returnFrom sws_scale .current
  | .previousOnly => s.returnFrom sws_scale .previous
  | .previousCloser => s.returnFrom sws_scale .previous
  | .currentCloser => s.returnFrom sws_scale .current
  | .nextFrame => if 0 ≤ mostAccurateTime then .next s.swap else .next s

def prepareAllFramesBody (mostAccurateTime : ℚ) (sws_scale : Option (List UInt8 → List UInt8)) :
    Exit :=
  if mostAccurateTime < 0 then .leave s
  else
    let made := s.fromStaging sws_scale .current
    .next (made.2.emplaceBack made.1)

def prepareFramesBody (desiredFrameTimeSeconds mostAccurateTime : ℚ)
    (sws_scale : Option (List UInt8 → List UInt8)) : Exit :=
  match s.branch mostAccurateTime with
  | .currentGood =>
    .next ((s.emplaceFrom sws_scale .current).nextSample desiredFrameTimeSeconds)
  | .previousOnly =>
    .next ((s.emplaceFrom sws_scale .previous).swap.nextSample desiredFrameTimeSeconds)
  | .previousCloser =>
    .next ((s.emplaceFrom sws_scale .previous).swap.nextSample desiredFrameTimeSeconds)
  | .currentCloser =>
    .next ((s.emplaceFrom sws_scale .current).swap.nextSample desiredFrameTimeSeconds)
  | .nextFrame => if 0 ≤ mostAccurateTime then .next s.swap else .next s

def body (mostAccurateTime : ℚ) (sws_scale : Option (List UInt8 → List UInt8)) :
    DecodeFunction → Exit
  | .pickBestFrame => s.pickBestFrameBody mostAccurateTime sws_scale
  | .prepareAllFrames => s.prepareAllFramesBody mostAccurateTime sws_scale
  | .prepareFrames desired => s.prepareFramesBody desired mostAccurateTime sws_scale

/-! ### One answer -/

/-- A read starts with `videoFrameFreePacket`. -/
def freePacket : DecodeLoop := { s with currFrame := { s.currFrame with packet := none } }

def receivePacket (packet : AVPacket) : DecodeLoop :=
  { s with
    currFrame := { s.currFrame with packet := some packet }
    packets := s.packets ++ [packet] }

/-- `avcodec_decode_video2` writes the current staging frame. -/
def receiveFrame (data : Option Nat) (best_effort_timestamp : Int) (buffers : Nat → List UInt8) :
    DecodeLoop :=
  { s with
    currFrame := { s.currFrame with decodedFrame := ⟨data, best_effort_timestamp⟩ }
    codec := s.codec.decode data buffers }

def setTime (mostAccurateTime : ℚ) : DecodeLoop :=
  { s with currFrame := { s.currFrame with timeSecondsEst := mostAccurateTime } }

/-- The decoder returned; `picture` is `didRetrievePicture > 0`. -/
def receivePicture (f : DecodeFunction) (picture : Bool)
    (sws_scale : Option (List UInt8 → List UInt8)) : Except LoopFault DecodeLoop :=
  if !picture && !s.endOfStream then .ok s.search
  else
    let mostAccurateTime :=
      s.currFrame.decodedFrame.best_effort_timestamp * s.videoStream.primaryStreamTimeBase
    match (s.setTime mostAccurateTime).body mostAccurateTime sws_scale f with
    | .next s => s.loop f picture
    | .leave s => s.leave f
    | .ret s result => .ok (s.ret result)

def step (f : DecodeFunction) (s : DecodeLoop) (answer : Answer) : Except LoopFault DecodeLoop :=
  match s.request, answer with
  | .read, .readError => .ok (s.freePacket.fail f)
  -- the packet argument is left as it was
  | .read, .endOfFile => .ok { s.freePacket with endOfStream := true }.decode
  | .read, .packet packet =>
    let s := s.freePacket.receivePacket packet
    .ok (if packet.stream_index = s.videoStream.primaryStreamIndex then s.decode else s.search)
  | .decode, .decodeError => .ok (s.fail f)
  | .decode, .decoded data timestamp buffers sws_scale =>
    (s.receiveFrame data timestamp buffers).receivePicture f data.isSome sws_scale
  | _, _ => .error .unasked

/-- What a loop does with an answer it asked for. -/
lemma step_cases {f : DecodeFunction} {s s' : DecodeLoop} {answer : Answer}
    (h : step f s answer = .ok s') :
    (s.request = .read ∧ answer = .readError ∧ s' = s.freePacket.fail f) ∨
      (s.request = .read ∧ answer = .endOfFile ∧
        s' = { s.freePacket with endOfStream := true }.decode) ∨
      (∃ packet, s.request = .read ∧ answer = .packet packet ∧
        packet.stream_index = s.videoStream.primaryStreamIndex ∧
          s' = (s.freePacket.receivePacket packet).decode) ∨
      (∃ packet, s.request = .read ∧ answer = .packet packet ∧
        packet.stream_index ≠ s.videoStream.primaryStreamIndex ∧
          s' = (s.freePacket.receivePacket packet).search) ∨
      (s.request = .decode ∧ answer = .decodeError ∧ s' = s.fail f) ∨
      ∃ data timestamp buffers sws_scale, s.request = .decode ∧
        answer = .decoded data timestamp buffers sws_scale ∧
          (s.receiveFrame data timestamp buffers).receivePicture f data.isSome sws_scale =
            .ok s' := by
  cases hrequest : s.request <;> cases answer <;> simp only [step, hrequest] at h <;> try cases h
  case read.readError => exact .inl ⟨rfl, rfl, rfl⟩
  case read.endOfFile => exact .inr (.inl ⟨rfl, rfl, rfl⟩)
  case read.packet packet =>
    by_cases hprimary : packet.stream_index = s.videoStream.primaryStreamIndex
    · exact .inr (.inr (.inl ⟨packet, rfl, rfl, hprimary, if_pos hprimary⟩))
    · exact .inr (.inr (.inr (.inl ⟨packet, rfl, rfl, hprimary, if_neg hprimary⟩)))
  case decode.decodeError => exact .inr (.inr (.inr (.inr (.inl ⟨rfl, rfl, rfl⟩))))
  case decode.decoded data timestamp buffers sws_scale =>
    exact .inr (.inr (.inr (.inr (.inr ⟨data, timestamp, buffers, sws_scale, rfl, rfl, h⟩))))

/-- A loop that starts on a stream. -/
def start (videoStream : FFmpegVideoStreamImpl) (sampleTime : ℚ) : DecodeLoop :=
  ⟨videoStream, videoStream.stagingFrame, videoStream.stagingFrame, sampleTime, false, .flushed,
    .read, [], []⟩

end DecodeLoop

end GifTools
