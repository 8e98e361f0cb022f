import GifTools.FFmpeg.InputStream

/-!
# Seeking for FFmpeg

The seek callback of `FFmpegInputStreamImpl` moves the offset without looking at the size of the
buffer and reports an error whenever it moves. The protocol of such callbacks asks for the
opposite: a target in the buffer is reached and returned, any other target is refused. Only
`AVSEEK_SIZE`, which does not move, is answered as the protocol says.
-/

namespace GifTools

namespace FFmpegInputStreamImpl

variable (stream : FFmpegInputStreamImpl)

def SEEK_SET : BitVec 32 := 0

def SEEK_CUR : BitVec 32 := 1

def SEEK_END : BitVec 32 := 2

def AVSEEK_SIZE : BitVec 32 := 0x10000

/-- `AVERROR(EBADF)`. -/
def AVERROR_EBADF : Int := -9

/-- The conversion to `int64_t`, in which the sums wrap. -/
def toInt64 (x : Int) : Int := (BitVec.ofInt 64 x).toInt

/-- `ffmpegInputStreamSeek` for an existing stream: the stream after it and the result. -/
def ffmpegInputStreamSeek (pos : Int) (whence : BitVec 32) : FFmpegInputStreamImpl × Int :=
  let action := whence &&& (SEEK_SET ||| SEEK_CUR ||| SEEK_END ||| AVSEEK_SIZE)
  if action = SEEK_SET then ({ stream with currBufferOffset := pos }, AVERROR_EBADF)
  else if action = SEEK_CUR then
    ({ stream with currBufferOffset := toInt64 (stream.currBufferOffset + pos) }, AVERROR_EBADF)
  else if action = SEEK_END then
    ({ stream with currBufferOffset := toInt64 (stream.bufferSize + pos) }, AVERROR_EBADF)
  else if action = AVSEEK_SIZE then (stream, toInt64 stream.bufferSize)
  else (stream, AVERROR_EBADF)

end FFmpegInputStreamImpl

/-- The values FFmpeg passes as `whence`. -/
inductive Whence where
  | seekSet | seekCur | seekEnd | avseekSize
  deriving DecidableEq

open FFmpegInputStreamImpl in
def Whence.val : Whence → BitVec 32
  | .seekSet => SEEK_SET
  | .seekCur => SEEK_CUR
  | .seekEnd => SEEK_END
  | .avseekSize => AVSEEK_SIZE

/-- The calls FFmpeg makes through the two callbacks. -/
inductive AVIOCall where
  | read (buffer_capacity_bytes_count : BitVec 32)
  | seek (pos : BitVec 64) (whence : Whence)

namespace Reader

open Runs FFmpegInputStreamImpl

/-- One call of a callback. -/
def callStep (r : Reader) : AVIOCall → Except CopyFault Reader
  | .read capacity => r.step capacity.toInt
  | .seek pos whence =>
    .ok { r with stream := (r.stream.ffmpegInputStreamSeek pos.toInt whence.val).1 }

/-! ### The protocol -/

/-- The absolute position a seek asks for. -/
def target (r : Reader) (pos : Int) : Whence → Option Int
  | .seekSet => some pos
  | .seekCur => some (r.stream.currBufferOffset + pos)
  | .seekEnd => some (r.stream.bufferSize + pos)
  | .avseekSize => none

/-- A seek obeys the protocol: the target is reached and returned if it lies in the buffer and
refused otherwise, and a request for the size is answered in place. -/
def SeekObeyed (r : Reader) (pos : Int) (whence : Whence) : Prop :=
  let answer := r.stream.ffmpegInputStreamSeek pos whence.val
  match r.target pos whence with
  | some t =>
    if 0 ≤ t ∧ t ≤ r.stream.bufferSize then
      answer = ({ r.stream with currBufferOffset := t }, t)
    else answer.1 = r.stream ∧ answer.2 < 0
  | none => answer = (r.stream, (r.stream.bufferSize : Int))

/-- Every seek of the calls obeys the protocol, no read accesses memory outside the two buffers,
and the offset is a position in the buffer in every state reached. -/
structure ProtocolRun (r : Reader) (calls : List AVIOCall) : Prop where
  seeks : Along callStep
    (fun r call => ∀ pos whence, call = .seek pos whence → r.SeekObeyed pos.toInt whence) r calls
  returns : ∃ r', Runs.run callStep r calls = .ok r'
  inBuffer : Throughout callStep InBuffer r calls

/-- A seek only asks for the size; a read has no room, or room for exactly what `read` copies. -/
def CallFits (r : Reader) : AVIOCall → Prop
  | .read capacity => capacity.toInt < 0 ∨ r.CapacityFits capacity.toInt
  | .seek _ whence => whence = .avseekSize

/-! ### One seek -/

lemma toInt64_of_lt {x : Int} (h0 : 0 ≤ x) (h : x < 2 ^ 63) : toInt64 x = x := by
  rw [toInt64, BitVec.toInt_ofInt, Int.bmod_eq_of_le_mul_two] <;> omega

/-- A sum that leaves the range of `int64_t` wraps once. -/
lemma toInt64_cases {x : Int} (hlow : -2 ^ 63 ≤ x) (hhigh : x < 2 ^ 64) :
    toInt64 x = x ∨ toInt64 x = x - 2 ^ 64 := by
  rw [toInt64, BitVec.toInt_ofInt, Int.bmod_def]
  omega

lemma ffmpegInputStreamSeek_set (stream : FFmpegInputStreamImpl) (pos : Int) :
    stream.ffmpegInputStreamSeek pos Whence.seekSet.val =
      ({ stream with currBufferOffset := pos }, AVERROR_EBADF) := rfl

lemma ffmpegInputStreamSeek_cur (stream : FFmpegInputStreamImpl) (pos : Int) :
    stream.ffmpegInputStreamSeek pos Whence.seekCur.val =
      ({ stream with currBufferOffset := toInt64 (stream.currBufferOffset + pos) },
        AVERROR_EBADF) := rfl

lemma ffmpegInputStreamSeek_end (stream : FFmpegInputStreamImpl) (pos : Int) :
    stream.ffmpegInputStreamSeek pos Whence.seekEnd.val =
      ({ stream with currBufferOffset := toInt64 (stream.bufferSize + pos) },
        AVERROR_EBADF) := rfl

lemma ffmpegInputStreamSeek_size (stream : FFmpegInputStreamImpl) (pos : Int) :
    stream.ffmpegInputStreamSeek pos Whence.avseekSize.val =
      (stream, toInt64 stream.bufferSize) := rfl

/-- An answer that moves to `offset`, where the target `t` wraps to, and reports an error is never
right: it refuses a target in the buffer and moves to one outside. -/
lemma not_obeyed_of_moves {r : Reader} {pos t offset : Int} {whence : Whence} (hr : r.InBuffer)
    (htarget : r.target pos whence = some t)
    (hseek : r.stream.ffmpegInputStreamSeek pos whence.val =
      ({ r.stream with currBufferOffset := offset }, AVERROR_EBADF))
    (hoffset : offset = r.stream.currBufferOffset → t = r.stream.currBufferOffset) :
    ¬ r.SeekObeyed pos whence := by
  intro h
  simp only [SeekObeyed, htarget, hseek] at h
  split at h
  · rename_i ht
    have hresult : AVERROR_EBADF = t := congrArg Prod.snd h
    simp only [AVERROR_EBADF] at hresult
    omega
  · rename_i ht
    have hmove : offset = r.stream.currBufferOffset :=
      congrArg FFmpegInputStreamImpl.currBufferOffset h.1
    have hlow := hr.1
    have hhigh : 0 ≤ (r.stream.bufferSize : Int) - r.stream.currBufferOffset := hr.2
    rw [hoffset hmove] at ht
    omega

lemma seekObeyed_iff {r : Reader} (hr : r.InBuffer) (hsize : r.stream.contents.length < 2 ^ 63)
    (pos : BitVec 64) (whence : Whence) :
    r.SeekObeyed pos.toInt whence ↔ whence = .avseekSize := by
  have hlow : 0 ≤ r.stream.currBufferOffset := hr.1
  have hhigh : 0 ≤ (r.stream.bufferSize : Int) - r.stream.currBufferOffset := hr.2
  have hsize' : (r.stream.bufferSize : Int) < 2 ^ 63 := by
    rw [bufferSize]
    omega
  have hpos := pos.le_toInt
  have hpos' := pos.toInt_lt
  cases whence with
  | seekSet =>
    exact iff_of_false
      (not_obeyed_of_moves hr rfl (ffmpegInputStreamSeek_set ..) id) (by simp)
  | seekCur =>
    refine iff_of_false (not_obeyed_of_moves hr rfl (ffmpegInputStreamSeek_cur ..) ?_) (by simp)
    intro h
    have := toInt64_cases (x := r.stream.currBufferOffset + pos.toInt) (by omega) (by omega)
    omega
  | seekEnd =>
    refine iff_of_false (not_obeyed_of_moves hr rfl (ffmpegInputStreamSeek_end ..) ?_) (by simp)
    intro h
    have := toInt64_cases (x := r.stream.bufferSize + pos.toInt) (by omega) (by omega)
    omega
  | avseekSize =>
    refine iff_of_true ?_ rfl
    simp only [SeekObeyed, target, ffmpegInputStreamSeek_size]
    rw [toInt64_of_lt (by omega) hsize']

/-! ### Runs of calls -/

lemma step_neg {r : Reader} {capacity : Int} (h : capacity < 0) : r.step capacity = .ok r := by
  simp only [Reader.step, ffmpegInputStreamRead, if_neg (not_le.mpr h)]
  simp [bind, Except.bind, pure, Except.pure]

/-- A read returns only if what it copies is left in the buffer and has room at its destination. -/
lemma capacityFits_of_step {r r' : Reader} {capacity : Int} (hr : r.InBuffer)
    (h0 : 0 ≤ capacity) (hcap : capacity < 2 ^ 31) (h : r.step capacity = .ok r') :
    r.CapacityFits capacity := by
  obtain ⟨_, hread, -⟩ := bind_ok.mp h
  rw [ffmpegInputStreamRead, if_pos h0] at hread
  obtain ⟨_, hread, -⟩ := bind_ok.mp hread
  obtain ⟨bytes, hcopy, -⟩ := bind_ok.mp hread
  have hrem : r.remaining = r.stream.contents.length - r.stream.currBufferOffset := rfl
  change memcpy capacity r.stream.contents r.stream.currBufferOffset
    (max capacity (toInt32 r.remaining)) = _ at hcopy
  rw [capacityFits_iff hr hcap]
  rw [memcpy] at hcopy
  split at hcopy
  · cases hcopy
  · split at hcopy
    · cases hcopy
    · omega

lemma CallFits.step {r : Reader} {call : AVIOCall} (hr : r.InBuffer) (h : r.CallFits call) :
    ∃ r', r.callStep call = .ok r' ∧ r'.InBuffer ∧ r'.stream.contents = r.stream.contents := by
  cases call with
  | seek pos whence =>
    cases h
    exact ⟨r, rfl, hr, rfl⟩
  | read capacity =>
    by_cases h0 : capacity.toInt < 0
    · exact ⟨r, step_neg h0, hr, rfl⟩
    · have hrem : r.remaining = r.stream.contents.length - r.stream.currBufferOffset := rfl
      have hhigh := hr.2
      have hstart : r.stream.currBufferOffset ≤ r.stream.contents.length := by omega
      obtain ⟨r', hstep, h'⟩ := (delivered_init hr.1 hstart).step (r := ⟨r.stream, []⟩)
        (not_lt.mp h0) capacity.toInt_lt (h.resolve_left h0)
      obtain ⟨⟨stream', bytes, _⟩, hread, hr'⟩ := bind_ok.mp hstep
      cases hr'
      refine ⟨⟨stream', r.received ++ bytes⟩, ?_, h'.inBuffer, h'.source⟩
      exact bind_ok.mpr ⟨_, hread, rfl⟩

lemma protocolRun_nil {r : Reader} (hr : r.InBuffer) : r.ProtocolRun [] :=
  ⟨along_nil, ⟨r, rfl⟩, throughout_nil.mpr hr⟩

lemma protocolRun_cons {r : Reader} {call : AVIOCall} {calls : List AVIOCall} :
    r.ProtocolRun (call :: calls) ↔ r.InBuffer ∧
      (∀ pos whence, call = .seek pos whence → r.SeekObeyed pos.toInt whence) ∧
      ∃ r', r.callStep call = .ok r' ∧ r'.ProtocolRun calls := by
  constructor
  · rintro ⟨hseeks, ⟨t, hrun⟩, hin⟩
    obtain ⟨r', hstep, hrun⟩ := run_cons_ok.mp hrun
    obtain ⟨hcall, hseeks⟩ := along_cons.mp hseeks
    obtain ⟨hr, hin⟩ := throughout_cons.mp hin
    exact ⟨hr, hcall, r', hstep, hseeks r' hstep, ⟨t, hrun⟩, hin r' hstep⟩
  · rintro ⟨hr, hcall, r', hstep, ⟨hseeks, ⟨t, hrun⟩, hin⟩⟩
    have hdet : ∀ u, r.callStep call = .ok u → u = r' := fun u hu =>
      Except.ok.inj (hu.symm.trans hstep)
    refine ⟨along_cons.mpr ⟨hcall, ?_⟩, ⟨t, run_cons_ok.mpr ⟨r', hstep, hrun⟩⟩,
      throughout_cons.mpr ⟨hr, ?_⟩⟩
    · intro u hu
      exact hdet u hu ▸ hseeks
    · intro u hu
      exact hdet u hu ▸ hin

lemma callFits_of_obeyed {r r' : Reader} {call : AVIOCall} (hr : r.InBuffer)
    (hsize : r.stream.contents.length < 2 ^ 63)
    (hcall : ∀ pos whence, call = .seek pos whence → r.SeekObeyed pos.toInt whence)
    (hstep : r.callStep call = .ok r') : r.CallFits call := by
  cases call with
  | read capacity =>
    by_cases h0 : capacity.toInt < 0
    · exact .inl h0
    · exact .inr (capacityFits_of_step hr (not_lt.mp h0) capacity.toInt_lt hstep)
  | seek pos whence => exact (seekObeyed_iff hr hsize pos whence).mp (hcall pos whence rfl)

lemma InBuffer.protocolRun_iff_along {r : Reader} {calls : List AVIOCall} (hr : r.InBuffer)
    (hsize : r.stream.contents.length < 2 ^ 63) :
    r.ProtocolRun calls ↔ Along callStep CallFits r calls := by
  induction calls generalizing r with
  | nil => exact iff_of_true (protocolRun_nil hr) along_nil
  | cons call calls ih =>
    rw [protocolRun_cons, along_cons]
    constructor
    · rintro ⟨-, hcall, r', hstep, hrest⟩
      have hfits := callFits_of_obeyed hr hsize hcall hstep
      obtain ⟨u, hu, hin, hcontents⟩ := hfits.step hr
      cases hu.symm.trans hstep
      refine ⟨hfits, fun v hv => ?_⟩
      cases hv.symm.trans hstep
      exact (ih hin (hcontents ▸ hsize)).mp hrest
    · rintro ⟨hfits, hrest⟩
      obtain ⟨u, hu, hin, hcontents⟩ := hfits.step hr
      refine ⟨hr, ?_, u, hu, (ih hin (hcontents ▸ hsize)).mpr (hrest u hu)⟩
      rintro pos whence rfl
      exact (seekObeyed_iff hr hsize pos whence).mpr hfits

/-- From any position in a buffer, a run of seeks and reads obeys the protocol if and only if the
seeks only ask for the size and the capacities of the reads fit. -/
theorem protocolRun_iff {contents : List UInt8} {start : Int} (calls : List AVIOCall)
    (h0 : 0 ≤ start) (hstart : start ≤ contents.length) (hsize : contents.length < 2 ^ 63) :
    ProtocolRun ⟨⟨contents, start⟩, []⟩ calls ↔
      Along callStep CallFits ⟨⟨contents, start⟩, []⟩ calls :=
  (delivered_init h0 hstart).inBuffer.protocolRun_iff_along hsize

theorem protocolRun_size :
    ProtocolRun ⟨⟨[1, 2], 1⟩, []⟩ [.seek 0 .avseekSize, .read 1] ↔
      Along callStep CallFits ⟨⟨[1, 2], 1⟩, []⟩ [.seek 0 .avseekSize, .read 1] :=
  protocolRun_iff _ (by decide) (by decide) (by decide)

/-- A seek to the start of a buffer is refused. -/
theorem not_protocolRun :
    ¬ ∀ (contents : List UInt8) (calls : List AVIOCall),
      ProtocolRun ⟨loadFromBuffer contents, []⟩ calls := by
  intro h
  have hseek := (protocolRun_cons.mp (h [1] [.seek 0 .seekSet])).2.1 0 .seekSet rfl
  have hresult : AVERROR_EBADF = 0 := congrArg Prod.snd hseek
  exact absurd hresult (by decide)

end Reader

end GifTools
