import GifTools.FFmpeg.InputStream
import GifTools.FFmpeg.Prepared
import Mathlib.Tactic.NormNum

/-!
# Opening a video stream

The start of the buffer is copied for the demuxer to recognise its format, always 4096 bytes,
while the copy has room for the `int` its size is converted to. The duration of a frame is the
duration of the stream divided by the number of its frames; a container need not know either.
-/

namespace GifTools

/-- What FFmpeg answers while a stream is opened. -/
structure OpenAnswers where
  /-- `avio_alloc_context` returns a context. -/
  pb : Bool
  /-- The format is recognised, as opened or not. -/
  inputFmt : Bool
  /-- `avformat_open_input` succeeds. -/
  inputOpened : Bool
  /-- `avformat_find_stream_info` succeeds. -/
  streamInfoFound : Bool
  /-- `av_find_best_stream` -/
  primaryStreamIndex : Int
  nb_streams : Nat
  time_base : ℚ
  nb_frames : Int
  duration : Int
  /-- `avcodec_open2` succeeds. -/
  codecOpened : Bool
  width : Nat
  height : Nat
  /-- `sws_getCachedContext` returns a context. -/
  swsContext : Bool

inductive OpenFault where
  /-- `std::length_error` -/
  | length
  | copy (fault : CopyFault)
  | divisionByZero
  deriving DecidableEq

namespace OpenAnswers

variable (answers : OpenAnswers)

/-- There is a video stream. -/
structure Found : Prop where
  inputFmt : answers.inputFmt
  inputOpened : answers.inputOpened
  streamInfoFound : answers.streamInfoFound
  nonneg : 0 ≤ answers.primaryStreamIndex
  lt : answers.primaryStreamIndex < answers.nb_streams

/-- The frames of the video stream can be decoded and scaled. -/
structure Decodes : Prop where
  codecOpened : answers.codecOpened
  swsContext : answers.swsContext

/-- The stream that is opened. -/
def videoStream : FFmpegVideoStreamImpl where
  preparedFrames := []
  primaryStreamIndex := answers.primaryStreamIndex
  frameCount := answers.nb_frames
  durationSeconds := answers.duration * answers.time_base
  frameDurationSeconds := (answers.duration.tdiv answers.nb_frames : Int) * answers.time_base
  primaryStreamTimeBase := answers.time_base
  width := answers.width
  height := answers.height

end OpenAnswers

namespace FFmpegVideoStreamImpl

open FFmpegInputStreamImpl

/-- `std::vector::resize` of an empty vector. A negative `int` is too large a size. -/
def resize (n : Int) : Except OpenFault (List UInt8) :=
  if n < 0 then .error .length else .ok (List.replicate n.toNat 0)

/-- The bytes copied to the probe buffer. -/
def probe (ffmpegInputStream : FFmpegInputStreamImpl) : Except OpenFault (List UInt8) := do
  let buf_size := min (toInt32 ffmpegInputStream.bufferSize) 4096
  let probeBuffer ← resize buf_size
  (memcpy probeBuffer.length ffmpegInputStream.contents 0 4096).mapError OpenFault.copy

/-- `ffmpegVideoStreamOpen`, from the format on. -/
def openPrimaryStream (answers : OpenAnswers) :
    Except OpenFault (Option FFmpegVideoStreamImpl) :=
  if !answers.inputFmt then .ok none
  else if !answers.inputOpened then .ok none
  else if !answers.streamInfoFound then .ok none
  else if answers.primaryStreamIndex < 0 ∨ answers.nb_streams ≤ answers.primaryStreamIndex then
    .ok none
  else if answers.nb_frames = 0 then .error .divisionByZero
  else if !answers.codecOpened then .ok none
  else if !answers.swsContext then .ok none
  else .ok (some answers.videoStream)

def ffmpegVideoStreamOpen (ffmpegInputStream : Option FFmpegInputStreamImpl)
    (answers : OpenAnswers) : Except OpenFault (Option FFmpegVideoStreamImpl) :=
  match ffmpegInputStream with
  | none => .ok none
  | some ffmpegInputStream =>
    if !answers.pb then .ok none
    else do
      let _ ← probe ffmpegInputStream
      openPrimaryStream answers

variable {ffmpegInputStream : Option FFmpegInputStreamImpl} {stream : FFmpegInputStreamImpl}
  {answers : OpenAnswers}

end FFmpegVideoStreamImpl

end GifTools
