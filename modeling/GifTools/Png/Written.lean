import GifTools.Core.Chunks
import GifTools.Png.Filtered
import GifTools.Png.Recovered

/-!
# What the PNG writer writes

The file has three chunks with the right check sums, the second of which is a stream of the rows; a
row is the number of a filter and the differences from what this filter predicts.
-/

namespace GifTools

open Chunks Deflate Predict

/-! ### Check sums -/

/-- The table has what dividing eight bits gives. -/
lemma getD_crcTable {k : Nat} (hk : k < 256) :
    crcTable.getD k 0 = Checksum.crcBit^[8] (BitVec.ofNat 32 k) := by
  revert k
  decide +kernel

lemma stbiwCrc32_eq (buffer : List UInt8) : stbiwCrc32 buffer = Checksum.crc32 buffer := by
  rw [stbiwCrc32, Checksum.crc32]
  congr 2
  funext crc b
  have hindex : b.toNat ^^^ (crc &&& 0xff#32).toNat =
      ((crc ^^^ b.toBitVec.setWidth 32) &&& 0xff#32).toNat := by
    have hb : b.toNat &&& 2 ^ 8 - 1 = b.toNat := by
      rw [Nat.and_two_pow_sub_one_eq_mod, Nat.mod_eq_of_lt b.toNat_lt]
    have hwide : (b.toBitVec.setWidth 32).toNat = b.toNat := by
      rw [BitVec.toNat_setWidth_of_le (by decide)]
      rfl
    rw [BitVec.toNat_and, BitVec.toNat_and, BitVec.toNat_xor, hwide, Nat.and_xor_distrib_right,
      Nat.xor_comm]
    exact congrArg _ hb.symm
  have hlt : ((crc ^^^ b.toBitVec.setWidth 32) &&& 0xff#32).toNat < 256 := by
    rw [BitVec.toNat_and]
    exact Nat.lt_succ_of_le Nat.and_le_right
  rw [Checksum.crcByte_eq, hindex, getD_crcTable hlt, BitVec.ofNat_toNat, BitVec.setWidth_eq]

/-! ### Chunks -/

lemma stbiwWp32_eq (v : Nat) : stbiwWp32 v = be32 v := rfl

/-- The check sum is put behind the chunk. -/
lemma stbiwWpcrc_chunk (o : List UInt8) (c : Chunk) (htype : c.type.length = 4) :
    stbiwWpcrc (o ++ be32 c.data.length ++ c.type ++ c.data) c.data.length = o ++ c.bytes := by
  have hlength : (o ++ be32 c.data.length ++ c.type ++ c.data).length - c.data.length - 4 =
      (o ++ be32 c.data.length).length := by
    simp only [List.length_append, length_be32, htype]
    omega
  have hdrop : (o ++ be32 c.data.length ++ c.type ++ c.data).drop
      (o ++ be32 c.data.length).length = c.body := by
    rw [List.append_assoc (o ++ be32 c.data.length), List.drop_left, Chunk.body]
  rw [stbiwWpcrc, hlength, stbiwCrc32_eq, stbiwWp32_eq, hdrop, Chunk.bytes]
  simp only [Chunk.body, List.append_assoc]

def pngSignature : List UInt8 := [137, 80, 78, 71, 13, 10, 26, 10]

/-- The letters of IHDR, IDAT and IEND. -/
def ihdrTag : List UInt8 := [73, 72, 68, 82]

def idatTag : List UInt8 := [73, 68, 65, 84]

def iendTag : List UInt8 := [73, 69, 78, 68]

/-- The colour type of `n` components: 2 stands for colours, and 4 for alpha. -/
def colourType (n : Nat) : UInt8 := (if 3 ≤ n then 2 else 0) + if n % 2 = 0 then 4 else 0

/-- The header of an image of eight bits. -/
def ihdrChunk (x y n : Nat) : Chunk := ⟨ihdrTag, be32 x ++ be32 y ++ [8, colourType n, 0, 0, 0]⟩

def idatChunk (zlib : List UInt8) : Chunk := ⟨idatTag, zlib⟩

def iendChunk : Chunk := ⟨iendTag, []⟩

lemma ofInt_pngCtype {n : Nat} (hn : 0 < n) (hn4 : n ≤ 4) :
    UInt8.ofInt (pngCtype.getD n 0) = colourType n := by
  interval_cases n <;> rfl

/-- `stride_bytes`, or the length of a row. -/
def rowStride (stride x n : Nat) : Nat := if stride = 0 then x * n else stride

/-- The file with these compressed bytes. -/
def pngFile (x y n : Nat) (zlib : List UInt8) : List UInt8 :=
  pngSignature ++ ([ihdrChunk x y n, idatChunk zlib].flatMap Chunk.bytes ++ iendChunk.bytes)

lemma stbiWritePngToMem_ok {globals : StbiWrite} {pixels filt zlib : List UInt8}
    {stride x y n : Nat} (hn : 0 < n) (hn4 : n ≤ 4) (hsize : (x * n + 1) * y < 2 ^ 31)
    (hfilt : pngFilt globals pixels (rowStride stride x n) x y n = .ok filt)
    (hzlib : stbiZlibCompress filt globals.stbi_write_png_compression_level = .ok zlib) :
    stbiWritePngToMem globals pixels stride x y n = .ok (pngFile x y n zlib) := by
  have hihdr : stbiwWpcrc (pngSignature ++ stbiwWp32 13 ++ stbiwWptag "IHDR" ++ stbiwWp32 x ++
      stbiwWp32 y ++ [8, UInt8.ofInt (pngCtype.getD n 0), 0, 0, 0]) 13 =
      pngSignature ++ (ihdrChunk x y n).bytes := by
    rw [← stbiwWpcrc_chunk pngSignature (ihdrChunk x y n) rfl, ofInt_pngCtype hn hn4]
    simp only [ihdrChunk, stbiwWp32_eq, List.append_assoc]
    rfl
  have hidat : ∀ o : List UInt8, stbiwWpcrc (o ++ stbiwWp32 zlib.length ++
      stbiwWptag "IDAT" ++ zlib) zlib.length = o ++ (idatChunk zlib).bytes :=
    fun o => stbiwWpcrc_chunk o (idatChunk zlib) rfl
  have hiend : ∀ o : List UInt8, stbiwWpcrc (o ++ stbiwWp32 0 ++ stbiwWptag "IEND") 0 =
      o ++ iendChunk.bytes := by
    intro o
    rw [← stbiwWpcrc_chunk o iendChunk rfl]
    simp only [iendChunk, List.append_nil, List.length_nil, stbiwWp32_eq]
    rfl
  rw [stbiWritePngToMem, if_neg (not_le.mpr hsize)]
  change (pngFilt globals pixels (rowStride stride x n) x y n >>= _) = _
  rw [hfilt]
  change (stbiZlibCompress filt globals.stbi_write_png_compression_level >>= _) = _
  rw [hzlib, pngFile]
  simp only [List.flatMap_cons, List.flatMap_nil, List.append_nil]
  rw [← List.append_assoc, ← List.append_assoc pngSignature, ← hihdr, ← hidat, ← hiend]
  rfl

/-! ### Rows -/

/-- The rows in decompressed bytes, as the format has them: each has a filter in front, and above
the first one there are zeros. -/
def pngRows (n width : Nat) : Nat → List UInt8 → List UInt8 → Option (List (List UInt8))
  | 0, _, bytes => if bytes = [] then some [] else none
  | _ + 1, _, [] => none
  | y + 1, above, filter :: bytes =>
    if filter.toNat < 5 ∧ width * n ≤ bytes.length then
      let row := restore (pngPredictor (filterOf filter.toNat)) n above [] (bytes.take (width * n))
      (pngRows n width y row (bytes.drop (width * n))).map (row :: ·)
    else none

/-- The sums stay in an `int`: a filter is forced and nothing is summed, or there are few bytes. -/
def StbiWrite.Estimates (globals : StbiWrite) (count : Nat) : Prop :=
  (0 ≤ globals.stbi_write_force_png_filter ∧ globals.stbi_write_force_png_filter < 5) ∨
    count < 2 ^ 24

lemma estimate_ok {line_buffer : List UInt8} (h : line_buffer.length < 2 ^ 24) :
    ∃ est, estimate line_buffer = .ok est := by
  have hfold : ∀ (bytes : List UInt8) (est : Int), est + 128 * bytes.length < 2 ^ 31 →
      ∃ est', bytes.foldlM addEstimate est = .ok est' := by
    intro bytes
    induction bytes with
    | nil => exact fun est _ => ⟨est, rfl⟩
    | cons b bytes ih =>
      intro est hest
      have habs : b.toBitVec.toInt.natAbs ≤ 128 := by
        have hle := b.toBitVec.le_toInt
        have hlt := b.toBitVec.toInt_lt
        omega
      rw [List.length_cons] at hest
      have hbyte : est + b.toBitVec.toInt.natAbs < 2 ^ 31 := by omega
      obtain ⟨est', hok⟩ := ih (est + b.toBitVec.toInt.natAbs) (by omega)
      refine ⟨est', ?_⟩
      rw [List.foldlM_cons, addEstimate, if_pos hbyte]
      exact hok
  exact hfold line_buffer 0 (by omega)

lemma bestFilter_ok {encode : Nat → List UInt8} (h : ∀ f < 5, (encode f).length < 2 ^ 24) :
    ∃ best : Nat × Int, best.1 < 5 ∧
      (List.range 5).foldlM (betterFilter encode) (0, 0x7fffffff) = .ok best := by
  have hfold : ∀ (filters : List Nat) (best : Nat × Int), (∀ f ∈ filters, f < 5) → best.1 < 5 →
      ∃ best' : Nat × Int, best'.1 < 5 ∧
        filters.foldlM (betterFilter encode) best = .ok best' := by
    intro filters
    induction filters with
    | nil => exact fun best _ hbest => ⟨best, hbest, rfl⟩
    | cons f filters ih =>
      intro best hfilters hbest
      have hf := hfilters f List.mem_cons_self
      obtain ⟨est, hest⟩ := estimate_ok (h f hf)
      obtain ⟨best', hlt, hok⟩ := ih (if est < best.2 then (f, est) else best)
        (fun g hg => hfilters g (List.mem_cons_of_mem _ hg)) (by split_ifs; exacts [hf, hbest])
      refine ⟨best', hlt, ?_⟩
      rw [List.foldlM_cons, betterFilter, hest]
      exact hok
  exact hfold (List.range 5) (0, 0x7fffffff) (fun f hf => List.mem_range.mp hf) (by decide)

/-- A row behind the number of its filter. -/
def filteredRow (globals : StbiWrite) (pixels : List UInt8) (stride x y n f j : Nat) : List UInt8 :=
  UInt8.ofNat f :: differences (pngPredictor (filterOf f)) n
    (rowAbove globals.stbi__flip_vertically_on_write pixels stride x y n j)
    (writtenRow globals.stbi__flip_vertically_on_write pixels stride x y n j)

/-- Every row is put behind the number of one of the filters. -/
lemma filtRow_ok {globals : StbiWrite} (pixels : List UInt8) (stride n : Nat) {x y j : Nat}
    (hx : 0 < x) (hj : j < y) (h : globals.Estimates (x * n)) :
    ∃ f < 5, filtRow globals pixels stride x y n j =
      .ok (filteredRow globals pixels stride x y n f j) := by
  have hencode : ∀ f < 5, stbiwEncodePngLine globals.stbi__flip_vertically_on_write pixels stride x
      y j n f = differences (pngPredictor (filterOf f)) n
        (rowAbove globals.stbi__flip_vertically_on_write pixels stride x y n j)
        (writtenRow globals.stbi__flip_vertically_on_write pixels stride x y n j) :=
    fun f hf => stbiwEncodePngLine_eq hx hj hf
  obtain ⟨f, hf, hrow⟩ : ∃ f < 5, rowFilter (if 5 ≤ globals.stbi_write_force_png_filter then -1
      else globals.stbi_write_force_png_filter) (stbiwEncodePngLine
        globals.stbi__flip_vertically_on_write pixels stride x y j n) = .ok f := by
    generalize hforce : (if 5 ≤ globals.stbi_write_force_png_filter then -1
      else globals.stbi_write_force_png_filter) = force
    rw [rowFilter]
    split_ifs with hpos
    · refine ⟨_, ?_, rfl⟩
      split_ifs at hforce <;> omega
    · have hcount : x * n < 2 ^ 24 := h.resolve_left fun hforced => by
        split_ifs at hforce <;> omega
      have hshort : ∀ f < 5, (stbiwEncodePngLine globals.stbi__flip_vertically_on_write pixels
          stride x y j n f).length < 2 ^ 24 := by
        intro f hf
        rwa [hencode f hf, length_differences, length_writtenRow]
      obtain ⟨best, hbest, hok⟩ := bestFilter_ok hshort
      exact ⟨best.1, hbest, by rw [hok]; rfl⟩
  refine ⟨f, hf, ?_⟩
  simp only [filtRow, hrow]
  rw [filteredRow, ← hencode f hf]
  rfl

/-- The rows with these filters. -/
def filteredRows (globals : StbiWrite) (pixels : List UInt8) (stride x y n : Nat)
    (filters : Nat → Nat) : List UInt8 :=
  (List.range y).flatMap fun j => filteredRow globals pixels stride x y n (filters j) j

lemma pngFilt_ok {globals : StbiWrite} (pixels : List UInt8) (stride y : Nat) {x n : Nat}
    (hx : 0 < x) (h : globals.Estimates (x * n)) : ∃ filters : Nat → Nat, (∀ j < y, filters j < 5) ∧
      pngFilt globals pixels stride x y n =
        .ok (filteredRows globals pixels stride x y n filters) := by
  have hrow : ∀ j, ∃ f, j < y → f < 5 ∧ filtRow globals pixels stride x y n j =
      .ok (filteredRow globals pixels stride x y n f j) := by
    intro j
    by_cases hj : j < y
    · obtain ⟨f, hf, hok⟩ := filtRow_ok pixels stride n hx hj h
      exact ⟨f, fun _ => ⟨hf, hok⟩⟩
    · exact ⟨0, fun hlt => absurd hlt hj⟩
  choose filters hfilters using hrow
  have hmap : ∀ rows : List Nat, (∀ j ∈ rows, j < y) →
      rows.mapM (filtRow globals pixels stride x y n) =
        .ok (rows.map fun j => filteredRow globals pixels stride x y n (filters j) j) := by
    intro rows hrows
    induction rows with
    | nil => rfl
    | cons j rows ih =>
      rw [List.mapM_cons, (hfilters j (hrows j List.mem_cons_self)).2,
        ih fun i hi => hrows i (List.mem_cons_of_mem _ hi)]
      rfl
  refine ⟨filters, fun j hj => (hfilters j hj).1, ?_⟩
  rw [pngFilt, hmap _ fun j hj => List.mem_range.mp hj, filteredRows, List.flatMap]
  rfl

section

variable {globals : StbiWrite} {pixels : List UInt8} {stride x y n : Nat} {filters : Nat → Nat}

/-- The rows that are written. -/
def writtenRows (globals : StbiWrite) (pixels : List UInt8) (stride x y n : Nat) :
    List (List UInt8) :=
  (List.range y).map (writtenRow globals.stbi__flip_vertically_on_write pixels stride x y n)

lemma pngRows_filteredRows (globals : StbiWrite) (pixels : List UInt8) (stride : Nat) (hn : 0 < n)
    (hfilters : ∀ j < y, filters j < 5) (j count : Nat) (hj : j + count = y) :
    pngRows n x count
        (rowAbove globals.stbi__flip_vertically_on_write pixels stride x y n j)
        ((List.range' j count).flatMap fun i =>
          filteredRow globals pixels stride x y n (filters i) i) =
      some ((List.range' j count).map
        (writtenRow globals.stbi__flip_vertically_on_write pixels stride x y n)) := by
  induction count generalizing j with
  | zero => rfl
  | succ count ih =>
    have hf := hfilters j (by omega)
    have hbyte : (UInt8.ofNat (filters j)).toNat = filters j := by
      rw [UInt8.toNat_ofNat', Nat.mod_eq_of_lt (by omega)]
    have hlength : (differences (pngPredictor (filterOf (filters j))) n
        (rowAbove globals.stbi__flip_vertically_on_write pixels stride x y n j)
        (writtenRow globals.stbi__flip_vertically_on_write pixels stride x y n j)).length =
        x * n := by rw [length_differences, length_writtenRow]
    have hnext : rowAbove globals.stbi__flip_vertically_on_write pixels stride x y n (j + 1) =
        writtenRow globals.stbi__flip_vertically_on_write pixels stride x y n j :=
      if_neg (Nat.succ_ne_zero j)
    have hrest := ih (j + 1) (by omega)
    rw [hnext] at hrest
    rw [List.range'_succ, List.flatMap_cons, List.map_cons, filteredRow, List.cons_append, pngRows]
    simp only [hbyte, List.take_left' hlength, List.drop_left' hlength, restore_differences hn,
      hrest]
    rw [if_pos ⟨hf, by rw [List.length_append, hlength]; omega⟩]
    rfl

/-- The bytes are a PNG file of eight bits for each of `n` components, in one compressed stream, and
with these rows. -/
def IsPngFile (bytes : List UInt8) (x y n : Nat) (rows : List (List UInt8)) : Prop :=
  ∃ zlib filt, readFile pngSignature iendTag bytes =
      some [ihdrChunk x y n, idatChunk zlib, iendChunk] ∧
    IsFixedStream [0x78, 0x5e] (Checksum.adlerBytes filt) zlib filt ∧
    pngRows n x y [] filt = some rows

lemma length_filteredRows :
    (filteredRows globals pixels stride x y n filters).length = (x * n + 1) * y := by
  have hcount : ∀ count, ((List.range count).flatMap fun j =>
      filteredRow globals pixels stride x y n (filters j) j).length = (x * n + 1) * count := by
    intro count
    induction count with
    | zero => rfl
    | succ count ih =>
      rw [List.range_succ, List.flatMap_append, List.length_append, ih, List.flatMap_singleton,
        filteredRow, List.length_cons, length_differences, length_writtenRow]
      rfl
  exact hcount y

/-- The compressed rows are short enough for the length of a chunk. -/
lemma length_zlibBytes_lt (hsize : 4 * ((x * n + 1) * y) ≤ 5 * 2 ^ 30) (quality : Nat) :
    (zlibBytes (filteredRows globals pixels stride x y n filters) quality).length < 2 ^ 31 := by
  have hbound := length_of_isFixedStream (isFixedStream_zlibBytes
    (filteredRows globals pixels stride x y n filters) quality)
  have hadler : ∀ data, (Checksum.adlerBytes data).length = 4 := fun data => rfl
  rw [length_filteredRows, hadler, List.length_cons, List.length_singleton] at hbound
  omega

/-- What is written is a file of the compressed rows. -/
lemma stbiWritePngToMem_eq_pngFile (globals : StbiWrite) (pixels : List UInt8) (stride : Nat)
    (hx : 0 < x) (hn : 0 < n) (hn4 : n ≤ 4) (hsize : 4 * ((x * n + 1) * y) ≤ 5 * 2 ^ 30)
    (h : globals.Estimates (x * n)) : ∃ filters : Nat → Nat, (∀ j < y, filters j < 5) ∧
      stbiWritePngToMem globals pixels stride x y n = .ok (pngFile x y n (zlibBytes
        (filteredRows globals pixels (rowStride stride x n) x y n filters)
        globals.stbi_write_png_compression_level)) := by
  obtain ⟨filters, hfilters, hfilt⟩ := pngFilt_ok pixels (rowStride stride x n) y hx h
  refine ⟨filters, hfilters, stbiWritePngToMem_ok hn hn4 (by omega) hfilt ?_⟩
  exact stbiZlibCompress_ok (by rwa [length_filteredRows]) _

/-- Whatever filter is forced and however well is compressed, the writer writes a PNG file of the
rows of the image. -/
theorem isPngFile_stbiWritePngToMem (globals : StbiWrite) (pixels : List UInt8)
    (stride x y n : Nat) (hx : 0 < x) (hn : 0 < n) (hn4 : n ≤ 4)
    (hsize : (x * n + 1) * y ≤ 2 ^ 30) (hestimates : globals.Estimates (x * n)) :
    ∃ bytes, stbiWritePngToMem globals pixels stride x y n = .ok bytes ∧
      IsPngFile bytes x y n (writtenRows globals pixels (rowStride stride x n) x y n) := by
  obtain ⟨filters, hfilters, hwrite⟩ :=
    stbiWritePngToMem_eq_pngFile (y := y) globals pixels stride hx hn hn4 (by omega) hestimates
  refine ⟨_, hwrite, _, filteredRows globals pixels (rowStride stride x n) x y n filters, ?_,
    isFixedStream_zlibBytes _ globals.stbi_write_png_compression_level, ?_⟩
  · refine readFile_bytes ?_ rfl rfl (by decide)
    intro c hc
    rcases List.mem_cons.mp hc with rfl | hc
    · exact ⟨rfl, show 13 < 2 ^ 32 by decide, show ihdrTag ≠ iendTag by decide⟩
    · rw [List.mem_singleton.mp hc]
      exact ⟨rfl, (length_zlibBytes_lt (by omega) _).trans (by decide),
        show idatTag ≠ iendTag by decide⟩
  · have hrows := pngRows_filteredRows globals pixels (rowStride stride x n) (x := x) hn hfilters 0
      y (Nat.zero_add y)
    rwa [← List.range_eq_range'] at hrows

end

/-- Three by two pixels of three components. -/
theorem isPngFile_stbiWritePngToMem_colours :
    ∃ bytes, stbiWritePngToMem .default
        [1, 2, 3, 2, 4, 6, 3, 6, 9, 9, 6, 3, 200, 100, 50, 1, 2, 3] 0 3 2 3 = .ok bytes ∧
      IsPngFile bytes 3 2 3 (writtenRows .default
        [1, 2, 3, 2, 4, 6, 3, 6, 9, 9, 6, 3, 200, 100, 50, 1, 2, 3] 9 3 2 3) :=
  isPngFile_stbiWritePngToMem _ _ 0 _ _ _ (by decide) (by decide) (by decide) (by decide)
    (.inr (by decide))

end GifTools
