import GifTools.Core.Runs
import Mathlib.Algebra.Order.Ring.Int

/-!
# Reading from a buffer for FFmpeg

`FFmpegInputStreamImpl` hands the bytes of a buffer to FFmpeg's custom I/O. It takes the larger of
the requested and the remaining number of bytes where a cursor takes the smaller, so it works only
when both are equal, or when the remaining number is too large for the `int` it is converted to.
-/

namespace GifTools

/-- Accesses outside the two buffers a copy works on. -/
inductive CopyFault where
  | overRead | overWrite
  deriving DecidableEq

structure FFmpegInputStreamImpl where
  /-- The `bufferSize` bytes behind `bufferDataPtr`. -/
  contents : List UInt8
  currBufferOffset : Int

namespace FFmpegInputStreamImpl

/-- `ffmpegInputStreamLoadFromBuffer`. -/
def loadFromBuffer (contents : List UInt8) : FFmpegInputStreamImpl := ⟨contents, 0⟩

variable (stream : FFmpegInputStreamImpl)

def bufferSize : Nat := stream.contents.length

/-- The conversion to `int`, which keeps the low 32 bits. -/
def toInt32 (x : Int) : Int := (BitVec.ofInt 32 x).toInt

/-- `memcpy` of `n` bytes at an offset of the source to a destination of `capacity` bytes. -/
def memcpy (capacity : Int) (source : List UInt8) (offset n : Int) :
    Except CopyFault (List UInt8) :=
  if offset < 0 ∨ source.length < offset + n then .error .overRead
  else if capacity < n then .error .overWrite
  else .ok ((source.drop offset.toNat).take n.toNat)

/-- `read` into a buffer of `buf_size` bytes: the stream after it, the bytes written to the buffer
and the number returned. -/
def read (buf_size : Int) : Except CopyFault (FFmpegInputStreamImpl × List UInt8 × Int) := do
  let bytes_read := max buf_size (toInt32 (stream.bufferSize - stream.currBufferOffset))
  let bytes ← memcpy buf_size stream.contents stream.currBufferOffset bytes_read
  return ({ stream with currBufferOffset := stream.currBufferOffset + bytes_read }, bytes,
    bytes_read)

/-- `ffmpegInputStreamRead` for an existing stream and destination. -/
def ffmpegInputStreamRead (buffer_capacity_bytes_count : Int) :
    Except CopyFault (FFmpegInputStreamImpl × List UInt8 × Int) :=
  if 0 ≤ buffer_capacity_bytes_count then do
    let (stream', bytes, read_result) ← stream.read buffer_capacity_bytes_count
    let result :=
      if 0 ≤ read_result ∧ read_result ≤ buffer_capacity_bytes_count then read_result else -1
    return (stream', bytes, result)
  else .ok (stream, [], -1)

end FFmpegInputStreamImpl

/-- A stream and all the bytes it handed out so far. -/
structure Reader where
  stream : FFmpegInputStreamImpl
  received : List UInt8

namespace Reader

open Runs FFmpegInputStreamImpl

/-- One call with the given capacity. -/
def step (r : Reader) (capacity : Int) : Except CopyFault Reader := do
  let (stream', bytes, _) ← r.stream.ffmpegInputStreamRead capacity
  return ⟨stream', r.received ++ bytes⟩

/-- What a cursor has in front of it. -/
def remaining (r : Reader) : Int := r.stream.bufferSize - r.stream.currBufferOffset

/-- The offset is a position in the buffer. -/
def InBuffer (r : Reader) : Prop := 0 ≤ r.stream.currBufferOffset ∧ 0 ≤ r.remaining

/-- A call reads like a cursor: it hands out the next `n = min capacity remaining` bytes, advances
by `n` and returns `n`, or an error when there are none. -/
def CursorRead (r : Reader) (capacity : Int) : Prop :=
  let n := min capacity r.remaining
  ∃ result, r.stream.ffmpegInputStreamRead capacity = .ok
      ({ r.stream with currBufferOffset := r.stream.currBufferOffset + n },
        (r.stream.contents.drop r.stream.currBufferOffset.toNat).take n.toNat, result) ∧
    (result = n ∨ n = 0 ∧ result < 0)

/-- The capacity is what remains, or at least what `int` makes of a number too large for it. -/
def CapacityFits (r : Reader) (capacity : Int) : Prop :=
  capacity = r.remaining ∨ 2 ^ 31 ≤ r.remaining ∧ toInt32 r.remaining ≤ capacity

lemma toInt32_of_lt {x : Int} (h0 : 0 ≤ x) (h : x < 2 ^ 31) : toInt32 x = x := by
  rw [toInt32, BitVec.toInt_ofInt, Int.bmod_eq_of_le_mul_two] <;> omega

/-- The larger of the two numbers is the smaller one exactly when the capacity fits. -/
lemma capacityFits_iff {r : Reader} {capacity : Int} (hr : r.InBuffer)
    (hcap : capacity < 2 ^ 31) :
    r.CapacityFits capacity ↔ max capacity (toInt32 r.remaining) = min capacity r.remaining := by
  by_cases hbig : r.remaining < 2 ^ 31
  · rw [CapacityFits, toInt32_of_lt hr.2 hbig]
    omega
  · rw [CapacityFits]
    omega

lemma read_of_fits {r : Reader} {capacity n : Int} (hr : r.InBuffer) (h0 : 0 ≤ capacity)
    (hmax : max capacity (toInt32 r.remaining) = n) (hmin : min capacity r.remaining = n) :
    r.stream.ffmpegInputStreamRead capacity = .ok
      ({ r.stream with currBufferOffset := r.stream.currBufferOffset + n },
        (r.stream.contents.drop r.stream.currBufferOffset.toNat).take n.toNat, n) := by
  have hcopy : memcpy capacity r.stream.contents r.stream.currBufferOffset n =
      .ok ((r.stream.contents.drop r.stream.currBufferOffset.toNat).take n.toNat) := by
    have h1 := hr.1
    have h2 : r.remaining = r.stream.contents.length - r.stream.currBufferOffset := rfl
    rw [memcpy, if_neg (by omega), if_neg (by omega)]
  have hresult : (if 0 ≤ n ∧ n ≤ capacity then n else -1) = n := if_pos (by
    have := hr.2
    omega)
  have hread : r.stream.read capacity = .ok
      ({ r.stream with currBufferOffset := r.stream.currBufferOffset + n },
        (r.stream.contents.drop r.stream.currBufferOffset.toNat).take n.toNat, n) := by
    have hmax' : max capacity (toInt32 (r.stream.bufferSize - r.stream.currBufferOffset)) = n :=
      hmax
    simp only [FFmpegInputStreamImpl.read, hmax', hcopy]
    rfl
  rw [ffmpegInputStreamRead, if_pos h0, hread]
  change Except.ok (_, _, if 0 ≤ n ∧ n ≤ capacity then n else -1) = _
  rw [hresult]

/-- A call advances by the larger number, whatever it returns. -/
lemma offset_of_read {r : Reader} {capacity : Int} (h0 : 0 ≤ capacity)
    {stream' : FFmpegInputStreamImpl} {bytes : List UInt8} {result : Int}
    (h : r.stream.ffmpegInputStreamRead capacity = .ok (stream', bytes, result)) :
    stream'.currBufferOffset =
      r.stream.currBufferOffset + max capacity (toInt32 r.remaining) := by
  rw [ffmpegInputStreamRead, if_pos h0] at h
  obtain ⟨⟨_, _, _⟩, hread, h⟩ := bind_ok.mp h
  obtain ⟨_, -, hread⟩ := bind_ok.mp hread
  cases hread
  cases h
  rfl

lemma cursorRead_iff {r : Reader} {capacity : Int} (hr : r.InBuffer) (h0 : 0 ≤ capacity)
    (hcap : capacity < 2 ^ 31) : r.CursorRead capacity ↔ r.CapacityFits capacity := by
  rw [capacityFits_iff hr hcap]
  constructor
  · rintro ⟨result, hread, -⟩
    have hoffset := offset_of_read h0 hread
    simp only at hoffset
    omega
  · intro heq
    exact ⟨_, read_of_fits hr h0 heq rfl, .inl rfl⟩

/-- Where a reader that started at offset `start` stands when it received the bytes in between. -/
structure Delivered (contents : List UInt8) (start : Int) (r : Reader) : Prop where
  source : r.stream.contents = contents
  inBuffer : r.InBuffer
  start_le : 0 ≤ start ∧ start ≤ r.stream.currBufferOffset
  received : r.received =
    (contents.drop start.toNat).take (r.stream.currBufferOffset - start).toNat

lemma delivered_init {contents : List UInt8} {start : Int} (h0 : 0 ≤ start)
    (hstart : start ≤ contents.length) : Delivered contents start ⟨⟨contents, start⟩, []⟩ where
  source := rfl
  inBuffer := ⟨h0, Int.sub_nonneg_of_le hstart⟩
  start_le := ⟨h0, le_rfl⟩
  received := by simp

lemma Delivered.step {contents : List UInt8} {start capacity : Int} {r : Reader}
    (h : Delivered contents start r) (h0 : 0 ≤ capacity) (hcap : capacity < 2 ^ 31)
    (hfits : r.CapacityFits capacity) :
    ∃ r', r.step capacity = .ok r' ∧ Delivered contents start r' := by
  obtain ⟨hsource, hr, hstart, hreceived⟩ := h
  obtain ⟨n, hn⟩ : ∃ n, n = min capacity r.remaining := ⟨_, rfl⟩
  have hread := read_of_fits hr h0 ((capacityFits_iff hr hcap).mp hfits |>.trans hn.symm) hn.symm
  have hlow := hr.1
  have hhigh := hr.2
  have hrem : r.remaining = r.stream.contents.length - r.stream.currBufferOffset := rfl
  let bytes := (r.stream.contents.drop r.stream.currBufferOffset.toNat).take n.toNat
  let stream' : FFmpegInputStreamImpl := ⟨r.stream.contents, r.stream.currBufferOffset + n⟩
  have hstep : r.step capacity = .ok ⟨stream', r.received ++ bytes⟩ := by
    rw [Reader.step, hread]
    rfl
  refine ⟨_, hstep, hsource, ⟨?_, ?_⟩, ⟨hstart.1, ?_⟩, ?_⟩
  · change 0 ≤ r.stream.currBufferOffset + n
    omega
  · change 0 ≤ (r.stream.contents.length : Int) - (r.stream.currBufferOffset + n)
    omega
  · change start ≤ r.stream.currBufferOffset + n
    omega
  · have hlen : (r.stream.currBufferOffset + n - start).toNat =
        (r.stream.currBufferOffset - start).toNat + n.toNat := by omega
    have hdrop : r.stream.currBufferOffset.toNat =
        start.toNat + (r.stream.currBufferOffset - start).toNat := by omega
    change r.received ++ bytes =
      (contents.drop start.toNat).take (r.stream.currBufferOffset + n - start).toNat
    rw [hlen, List.take_add, List.drop_drop, ← hdrop, ← hreceived, ← hsource]

/-- As long as the capacities fit, every call returns. -/
lemma Delivered.run {contents : List UInt8} {start : Int} {r : Reader} {capacities : List Int}
    (h : Delivered contents start r) (hcaps : ∀ c ∈ capacities, 0 ≤ c ∧ c < 2 ^ 31)
    (hfits : Along Reader.step CapacityFits r capacities) :
    ∃ r', run Reader.step r capacities = .ok r' ∧ Delivered contents start r' := by
  induction capacities generalizing r with
  | nil => exact ⟨r, rfl, h⟩
  | cons capacity capacities ih =>
    obtain ⟨h0, hcap⟩ := hcaps capacity List.mem_cons_self
    obtain ⟨hfit, hrest⟩ := along_cons.mp hfits
    obtain ⟨r₁, hstep, h₁⟩ := h.step h0 hcap hfit
    obtain ⟨r', hrun, h'⟩ :=
      ih h₁ (fun c hc => hcaps c (List.mem_cons_of_mem _ hc)) (hrest r₁ hstep)
    exact ⟨r', run_cons_ok.mpr ⟨r₁, hstep, hrun⟩, h'⟩

lemma Delivered.along_iff {contents : List UInt8} {start : Int} {r : Reader}
    {capacities : List Int} (h : Delivered contents start r)
    (hcaps : ∀ c ∈ capacities, 0 ≤ c ∧ c < 2 ^ 31) :
    Along Reader.step CursorRead r capacities ↔ Along Reader.step CapacityFits r capacities := by
  induction capacities generalizing r with
  | nil => exact iff_of_true along_nil along_nil
  | cons capacity capacities ih =>
    obtain ⟨h0, hcap⟩ := hcaps capacity List.mem_cons_self
    rw [along_cons, along_cons, cursorRead_iff h.inBuffer h0 hcap]
    apply and_congr_right
    intro hfits
    obtain ⟨r₁, hstep, h₁⟩ := h.step h0 hcap hfits
    have hih := ih h₁ fun c hc => hcaps c (List.mem_cons_of_mem _ hc)
    simp only [hstep, Except.ok.injEq, forall_eq', hih]

/-- Every call of a run reads like a cursor, and together they hand out the bytes passed over. -/
structure CursorRun (r : Reader) (capacities : List Int) : Prop where
  calls : Along Reader.step CursorRead r capacities
  delivered : ∃ r', Runs.run Reader.step r capacities = .ok r' ∧
    Delivered r.stream.contents r.stream.currBufferOffset r'

/-- From any position in the buffer, a run of calls behaves like a cursor if and only if the
capacity of each call fits. -/
theorem cursorRun_iff {contents : List UInt8} {start : Int} {capacities : List Int}
    (h0 : 0 ≤ start) (hstart : start ≤ contents.length)
    (hcaps : ∀ c ∈ capacities, 0 ≤ c ∧ c < 2 ^ 31) :
    CursorRun ⟨⟨contents, start⟩, []⟩ capacities ↔
      Along Reader.step CapacityFits ⟨⟨contents, start⟩, []⟩ capacities := by
  have hinit := delivered_init h0 hstart
  constructor
  · exact fun h => (hinit.along_iff hcaps).mp h.calls
  · exact fun h => ⟨(hinit.along_iff hcaps).mpr h, hinit.run hcaps h⟩

theorem cursorRun_exact :
    CursorRun ⟨⟨[1, 2], 0⟩, []⟩ [2] ↔ Along Reader.step CapacityFits ⟨⟨[1, 2], 0⟩, []⟩ [2] :=
  cursorRun_iff (by decide) (by decide) (by decide)

/-- A call that asks for more than is left reads past the end of the buffer. -/
theorem not_cursorRun :
    ¬ ∀ (contents : List UInt8) (capacities : List Int),
      (∀ c ∈ capacities, 0 ≤ c ∧ c < 2 ^ 31) →
        CursorRun ⟨loadFromBuffer contents, []⟩ capacities := by
  intro h
  obtain ⟨r', hrun, -⟩ := (h [1] [2] (by decide)).delivered
  obtain ⟨r₁, hstep, -⟩ := run_cons_ok.mp hrun
  cases hstep

end Reader

end GifTools
