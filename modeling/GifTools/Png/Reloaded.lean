import GifTools.Png.Load
import GifTools.Png.Written

/-!
# What has been written is loaded

The loader gives back the rows that the writer was given, with four components for each pixel.
-/

namespace GifTools

open Chunks Predict

/-! ### Reading -/

/-- These bytes are still to be read. -/
def StbiContext.At (s : StbiContext) (bytes : List UInt8) : Prop :=
  ∃ done, s.buffer = done ++ bytes ∧ s.img_buffer = done.length

section

variable {s : StbiContext} {b : UInt8} {bytes data : List UInt8} {v : Nat}

lemma stbiGet8_at (h : s.At (b :: bytes)) :
    ∃ s', stbiGet8 s = (b.toNat, s') ∧ s'.At bytes := by
  obtain ⟨done, hbuffer, hpos⟩ := h
  refine ⟨{ s with img_buffer := s.img_buffer + 1 }, ?_, done ++ [b], ?_, ?_⟩
  · have hlt : s.img_buffer < s.buffer.length := by
      rw [hbuffer, hpos, List.length_append, List.length_cons]
      omega
    have hbyte : byteAt s.buffer s.img_buffer = b := by
      rw [byteAt, hbuffer, hpos, List.getD_append_right _ _ _ _ le_rfl, Nat.sub_self]
      rfl
    rw [stbiGet8, if_pos hlt, hbyte]
  · rw [hbuffer, List.append_assoc]
    rfl
  · rw [List.length_append, hpos]
    rfl

lemma stbiGet32be_at (hv : v < 2 ^ 32) (h : s.At (be32 v ++ bytes)) :
    ∃ s', stbiGet32be s = (v, s') ∧ s'.At bytes := by
  obtain ⟨s1, h1, hs1⟩ := stbiGet8_at h
  obtain ⟨s2, h2, hs2⟩ := stbiGet8_at hs1
  obtain ⟨s3, h3, hs3⟩ := stbiGet8_at hs2
  obtain ⟨s4, h4, hs4⟩ := stbiGet8_at hs3
  refine ⟨s4, ?_, hs4⟩
  simp only [stbiGet32be, stbiGet16be, h1, h2, h3, h4, UInt8.toNat_ofNat', Nat.shiftLeft_eq,
    Nat.shiftRight_eq_div_pow, Prod.mk.injEq, and_true]
  omega

lemma stbiGetn_at (h : s.At (data ++ bytes)) :
    ∃ s', stbiGetn s data.length = some (data, s') ∧ s'.At bytes := by
  obtain ⟨done, hbuffer, hpos⟩ := h
  refine ⟨{ s with img_buffer := s.img_buffer + data.length }, ?_, done ++ data, ?_, ?_⟩
  · have hle : s.img_buffer + data.length ≤ s.buffer.length := by
      rw [hbuffer, hpos, List.length_append, List.length_append]
      omega
    rw [stbiGetn, if_pos hle, hbuffer, hpos, List.drop_left, List.take_left' rfl]
  · rw [hbuffer, List.append_assoc]
  · rw [List.length_append, hpos]

lemma checkSig_at {sig : List UInt8} (h : s.At (sig ++ bytes)) :
    ∃ s', checkSig (sig.map UInt8.toNat) s = (true, s') ∧ s'.At bytes := by
  induction sig generalizing s with
  | nil => exact ⟨s, rfl, h⟩
  | cons b sig ih =>
    obtain ⟨s1, h1, hs1⟩ := stbiGet8_at h
    obtain ⟨s', hs', hat⟩ := ih hs1
    refine ⟨s', ?_, hat⟩
    rw [List.map_cons, checkSig, h1]
    simp only [ne_eq, not_true_eq_false, if_false]
    exact hs'

end

/-! ### Rows -/

section

variable {globals : StbiWrite} {pixels : List UInt8} {stride x y n : Nat} {layout : RowLayout}
  {filters : Nat → Nat}

/-- Every row is put back, below the one before it. -/
lemma unfilterRows_filteredRows (globals : StbiWrite) (pixels : List UInt8) (stride : Nat)
    (hx : 0 < x) (hfilters : ∀ j < y, filters j < 5) (hlayout : layout.Fits)
    (hn : layout.filter_bytes = n) (j count : Nat) (hj : j + count = y) :
    unfilterRows layout x (x * n) true count
        (if j = 0 then none else some (layout.spread x
          (writtenRow globals.stbi__flip_vertically_on_write pixels stride x y n (j - 1))))
        ((List.range' j count).flatMap fun i =>
          filteredRow globals pixels stride x y n (filters i) i) =
      .ok ((List.range' j count).map fun i => layout.spread x
        (writtenRow globals.stbi__flip_vertically_on_write pixels stride x y n i)) := by
  induction count generalizing j with
  | zero => rfl
  | succ count ih =>
    have hf := hfilters j (by omega)
    generalize hfilter : filters j = f at hf
    have hbyte : (UInt8.ofNat f).toNat = f := by
      rw [UInt8.toNat_ofNat', Nat.mod_eq_of_lt (by omega)]
    set above := rowAbove globals.stbi__flip_vertically_on_write pixels stride x y n j with habove
    set row := writtenRow globals.stbi__flip_vertically_on_write pixels stride x y n j with hrowdef
    have hrowlen : row.length = layout.filter_bytes * x := by
      rw [hrowdef, length_writtenRow, hn, Nat.mul_comm]
    have hlength : (differences (pngPredictor (filterOf f)) n above row).length = x * n := by
      rw [length_differences, hrowlen, hn, Nat.mul_comm]
    generalize hprior : (if j = 0 then none else some (layout.spread x (writtenRow
      globals.stbi__flip_vertically_on_write pixels stride x y n (j - 1)))) = prior
    have hbelow : Below layout ((if prior.isNone then firstRowFilter else pngFilters).getD f .none)
        (pngPredictor (filterOf f)) above (prior.getD []) x := by
      by_cases hj0 : j = 0
      · rw [if_pos hj0] at hprior
        have hnone : above = [] := if_pos hj0
        rw [← hprior, hnone]
        exact ⟨fun _ _ _ _ => by rw [List.getD_nil]; rfl, fun left i j => by
          rw [List.getD_nil, List.getD_nil]
          exact pngPredictor_first hf left 0 0⟩
      · rw [if_neg hj0] at hprior
        have hsome : above = writtenRow globals.stbi__flip_vertically_on_write pixels stride x y n
            (j - 1) := if_neg hj0
        rw [← hprior, hsome]
        refine ⟨fun q hq k hk => byteAt_spread hlayout ?_ hq hk, fun left i j => ?_⟩
        · rw [length_writtenRow, hn, Nat.mul_comm]
        · rw [Option.isNone_some, if_neg Bool.false_ne_true, getD_pngFilters hf]
    have hunfilter := unfilterRow_differences hlayout hbelow hrowlen hx
    rw [hn] at hunfilter
    have hnext := ih (j + 1) (by omega)
    rw [if_neg (Nat.succ_ne_zero j), Nat.add_sub_cancel, ← hrowdef] at hnext
    rw [List.range'_succ, List.flatMap_cons, List.map_cons, hfilter, filteredRow, ← habove,
      ← hrowdef, List.cons_append, unfilterRows]
    have hhead : ∀ raw, byteAt (UInt8.ofNat f :: raw) 0 = UInt8.ofNat f := fun _ => rfl
    have hdrop : ∀ (k : Nat) (raw : List UInt8),
        (UInt8.ofNat f :: raw).drop (1 + k) = raw.drop k := by
      intro k raw
      rw [Nat.add_comm, List.drop_succ_cons]
    simp only [hhead, hbyte, hdrop, List.drop_one, List.tail_cons, List.take_left' hlength,
      List.drop_left' hlength, hunfilter, hnext]
    rw [if_neg (by omega), if_neg (by simp)]
    rfl

end

/-! ### Components -/

/-- Four components from `n`. -/
def rgbaOf (n : Nat) (p : List UInt8) : List UInt8 :=
  match n with
  | 1 => [byteAt p 0, byteAt p 0, byteAt p 0, 255]
  | 2 => [byteAt p 0, byteAt p 0, byteAt p 0, byteAt p 1]
  | 3 => [byteAt p 0, byteAt p 1, byteAt p 2, 255]
  | _ => p

/-- Rows of pixels with `n` components, as an image with four. -/
def rgbaRows (n x : Nat) (rows : List (List UInt8)) : List UInt8 :=
  rows.flatMap (mapPixels n (rgbaOf n) x)

/-- How many components the loader stores: alpha is put in if this makes four of them. -/
def storedComponents (n : Nat) : Nat := if n = 3 then 4 else n

/-- A pixel as it is stored. -/
def storedPixel (n : Nat) (p : List UInt8) : List Nat :=
  (if n = storedComponents n then p else p ++ [255]).map UInt8.toNat

/-- A pixel as it is stored and then converted. -/
def loadedPixel (n : Nat) (p : List UInt8) : List UInt8 :=
  (if 4 = storedComponents n then storedPixel n p
    else convertPixel 0xff (storedComponents n) 4 (storedPixel n p)).map UInt8.ofNat

lemma loadedPixel_eq {n : Nat} (hn : 0 < n) (hn4 : n ≤ 4) {p : List UInt8} (hp : p.length = n) :
    loadedPixel n p = rgbaOf n p := by
  interval_cases n
  · obtain ⟨a, rfl⟩ := List.length_eq_one_iff.mp hp
    simp [loadedPixel, storedPixel, storedComponents, convertPixel, rgbaOf, byteAt]
  · obtain ⟨a, b, rfl⟩ := List.length_eq_two.mp hp
    simp [loadedPixel, storedPixel, storedComponents, convertPixel, rgbaOf, byteAt]
  · obtain ⟨a, b, c, rfl⟩ := List.length_eq_three.mp hp
    simp [loadedPixel, storedPixel, storedComponents, rgbaOf, byteAt]
  · obtain ⟨a, b, c, d, rfl⟩ := List.length_eq_four.mp hp
    simp [loadedPixel, storedPixel, storedComponents, rgbaOf]

lemma mad3_valid {a b c add : Nat} (hc : 0 < c) (h : a * b * c + add ≤ intMax) :
    stbiMad3sizesValid a b c add = true := by
  have hmul : ∀ k l : Nat, k * l ≤ intMax → stbiMul2sizesValid k l = true := by
    intro k l hkl
    rw [stbiMul2sizesValid]
    split_ifs with hl
    · rfl
    · rw [decide_eq_true_eq, Nat.le_div_iff_mul_le (Nat.pos_of_ne_zero hl)]
      exact hkl
  have hab : a * b ≤ a * b * c := Nat.le_mul_of_pos_right _ hc
  have hadd : stbiAddsizesValid (a * b * c) add = true := by
    rw [stbiAddsizesValid, decide_eq_true_eq]
    omega
  rw [stbiMad3sizesValid, hmul a b (by omega), hmul (a * b) c (by omega), hadd]
  rfl

/-! ### Images -/

section

variable {globals : StbiWrite} {pixels : List UInt8} {stride x y n : Nat}

/-- The extents the loader and the writer can deal with. -/
structure Loadable (x y n : Nat) : Prop where
  x_pos : 0 < x
  y_pos : 0 < y
  x_le : x ≤ 2 ^ 24
  y_le : y ≤ 2 ^ 24
  n_pos : 0 < n
  n_le : n ≤ 4
  size_le : x * y * n ≤ 2 ^ 30
  rgba_le : x * y * 4 ≤ intMax

/-- An image with components of eight bits, as it is written. -/
def writtenFormat (n : Nat) : PngFormat :=
  ⟨n, storedComponents n, 8, (colourType n).toNat⟩

lemma layout_writtenFormat (n : Nat) : (writtenFormat n).layout =
    if n = storedComponents n then ⟨n, [], n⟩ else ⟨n, [255], storedComponents n⟩ := by
  simp [PngFormat.layout, writtenFormat, PngFormat.bytes]

lemma fits_writtenFormat (hn : 0 < n) : (writtenFormat n).layout.Fits := by
  rw [layout_writtenFormat]
  split_ifs with hsame
  · exact ⟨hn, rfl⟩
  · rw [storedComponents] at hsame ⊢
    split_ifs at hsame ⊢ with h3
    · exact ⟨hn, by rw [h3]; rfl⟩
    · exact absurd rfl hsame

lemma stbiCreatePngImage_filteredRows (globals : StbiWrite) (pixels : List UInt8) (stride : Nat)
    (h : Loadable x y n) {filters : Nat → Nat} (hfilters : ∀ j < y, filters j < 5)
    (garbage : Nat → List Nat) : stbiCreatePngImage (writtenFormat n) garbage
        (filteredRows globals pixels stride x y n filters) x y false =
      .ok ((writtenRows globals pixels stride x y n).flatMap fun row =>
        ((writtenFormat n).layout.spread x row).map UInt8.toNat) := by
  have hx := h.x_le
  have hn4 := h.n_le
  have hstored : 0 < storedComponents n ∧ storedComponents n ≤ 4 := by
    have hn := h.n_pos
    rw [storedComponents]
    split_ifs <;> omega
  have hwidth : (writtenFormat n).widthBytes x = x * n := by
    rw [PngFormat.widthBytes, Nat.shiftRight_eq_div_pow, Nat.mul_comm x]
    change (n * x * 8 + 7) / 2 ^ 3 = n * x
    omega
  have hout : stbiMad3sizesValid x y ((writtenFormat n).out_n * (writtenFormat n).bytes) 0 := by
    have hbytes : (writtenFormat n).out_n * (writtenFormat n).bytes = storedComponents n :=
      Nat.mul_one _
    rw [hbytes]
    exact mad3_valid hstored.1 ((Nat.mul_le_mul_left _ hstored.2).trans h.rgba_le)
  have hrow : stbiMad3sizesValid (writtenFormat n).img_n x (writtenFormat n).depth 7 := by
    refine mad3_valid (show 0 < 8 by decide) ?_
    calc n * x * 8 + 7 ≤ 4 * 2 ^ 24 * 8 + 7 :=
          Nat.add_le_add_right (Nat.mul_le_mul_right _ (Nat.mul_le_mul hn4 hx)) _
      _ ≤ intMax := by decide
  have hlength : ¬ (filteredRows globals pixels stride x y n filters).length <
      (writtenFormat n).imgLen x y := by
    rw [length_filteredRows, PngFormat.imgLen, hwidth]
    exact lt_irrefl _
  have hfilter : (writtenFormat n).layout.filter_bytes = n := by
    rw [layout_writtenFormat]
    split_ifs <;> rfl
  have hrows := unfilterRows_filteredRows globals pixels stride h.x_pos hfilters
    (fits_writtenFormat h.n_pos) hfilter 0 y (Nat.zero_add y)
  rw [if_pos rfl, ← List.range_eq_range'] at hrows
  have hsamples : (writtenFormat n).samples x = List.map UInt8.toNat := rfl
  have hnarrow : ¬ (writtenFormat n).depth < 8 := Nat.lt_irrefl 8
  have hwhole : (decide (8 ≤ (writtenFormat n).depth) || decide (x * n ≤ x)) = true := rfl
  rw [stbiCreatePngImage, if_pos (by decide), stbiCreatePngImageRaw, if_neg (not_not.mpr hout),
    if_neg (not_not.mpr hrow), if_neg hlength]
  simp only [hwidth, if_neg hnarrow, hwhole, hsamples]
  rw [filteredRows, hrows]
  change Except.ok _ = _
  rw [writtenRows, List.flatMap_map, List.flatMap_map]

/-! ### Chunks -/

/-- The header of a written image has been read. -/
structure HeaderRead (x y n : Nat) (z : PngLoad) : Prop where
  first_eq : z.first = false
  img_x_eq : z.img_x = x
  img_y_eq : z.img_y = y
  img_n_eq : z.img_n = n
  depth_eq : z.depth = 8
  color_eq : z.color = (colourType n).toNat
  interlace_eq : z.interlace = 0
  pal_img_n_eq : z.pal_img_n = 0
  has_trans_eq : z.has_trans = false
  is_iphone_eq : z.is_iphone = false

lemma HeaderRead.setContext {z : PngLoad} (h : HeaderRead x y n z) (s : StbiContext)
    (idata : Option (List UInt8)) : HeaderRead x y n { z with s := s, idata := idata } :=
  ⟨h.1, h.2, h.3, h.4, h.5, h.6, h.7, h.8, h.9, h.10⟩

lemma parseIHDR_written {s : StbiContext} {rest : List UInt8} (h : Loadable x y n)
    (palette : Vector Nat 1024) (hs : s.At ((ihdrChunk x y n).data ++ rest)) :
    ∃ z, parseIHDR (.start palette s) 13 = .ok z ∧ z.s.At rest ∧ HeaderRead x y n z ∧
      z.idata = none := by
  have hx := h.x_le
  have hy := h.y_le
  have hxpos := h.x_pos
  have hypos := h.y_pos
  have hnpos := h.n_pos
  have hn4 := h.n_le
  simp only [ihdrChunk, List.append_assoc] at hs
  obtain ⟨s1, h1, hs1⟩ := stbiGet32be_at (by omega) hs
  obtain ⟨s2, h2, hs2⟩ := stbiGet32be_at (by omega) hs1
  obtain ⟨s3, h3, hs3⟩ := stbiGet8_at hs2
  obtain ⟨s4, h4, hs4⟩ := stbiGet8_at hs3
  obtain ⟨s5, h5, hs5⟩ := stbiGet8_at hs4
  obtain ⟨s6, h6, hs6⟩ := stbiGet8_at hs5
  obtain ⟨s7, h7, hs7⟩ := stbiGet8_at hs6
  have hcolor : (colourType n).toNat ≤ 6 ∧ (colourType n).toNat ≠ 3 ∧
      (colourType n).toNat &&& 1 = 0 ∧ (if (colourType n).toNat &&& 2 ≠ 0 then 3 else 1) +
        (if (colourType n).toNat &&& 4 ≠ 0 then 1 else 0) = n := by
    interval_cases n <;> decide
  obtain ⟨h6le, h3ne, heven, hcomponents⟩ := hcolor
  have hroom : ¬ 1 <<< 30 / x / n < y := by
    rw [not_lt, Nat.one_shiftLeft, Nat.div_div_eq_div_mul, Nat.le_div_iff_mul_le
      (Nat.mul_pos hxpos hnpos)]
    calc y * (x * n) = x * y * n := by ring
      _ ≤ 2 ^ 30 := h.size_le
  refine ⟨{ PngLoad.start palette s7 with
    first := false
    img_x := x
    img_y := y
    depth := 8
    color := (colourType n).toNat
    img_n := n }, ?_, hs7, ⟨rfl, rfl, rfl, rfl, rfl, rfl, rfl, rfl, rfl, rfl⟩, rfl⟩
  have hsmall : ¬ 1 <<< 24 < x ∧ ¬ 1 <<< 24 < y := by
    rw [Nat.one_shiftLeft]
    omega
  simp only [parseIHDR, PngLoad.start, h1, h2, h3, h4, h5, h6, h7, if_neg h3ne, hcomponents]
  rw [if_neg (by decide), if_neg (by decide), if_neg hsmall.1, if_neg hsmall.2, if_neg (by decide),
    if_neg (by omega), if_neg (by omega), if_neg (by omega), if_neg (by decide), if_neg (by decide),
    if_neg (by decide), if_neg (by omega), if_neg hroom]
  rfl

lemma parseIDAT_written {z : PngLoad} {s : StbiContext} {zlib rest : List UInt8}
    (hz : HeaderRead x y n z) (hidata : z.idata = none) (hpos : 0 < zlib.length)
    (hlt : zlib.length < 2 ^ 31) (hs : s.At (zlib ++ rest)) :
    ∃ s', parseIDAT { z with s := s } zlib.length =
        .ok { z with s := s', idata := some zlib } ∧ s'.At rest := by
  obtain ⟨s', hgetn, hs'⟩ := stbiGetn_at hs
  refine ⟨s', ?_, hs'⟩
  have hint : ¬ (BitVec.ofNat 32 (0 + zlib.length)).toInt < (BitVec.ofNat 32 0).toInt := by
    have hzero : (BitVec.ofNat 32 0).toInt = 0 := rfl
    have hmod : zlib.length % 2 ^ 32 = zlib.length := Nat.mod_eq_of_lt (by omega)
    rw [hzero, Nat.zero_add, BitVec.toInt_eq_toNat_of_lt (by rw [BitVec.toNat_ofNat, hmod]; omega),
      BitVec.toNat_ofNat, hmod]
    omega
  have hioff : ((none : Option (List UInt8)).getD []).length = 0 := rfl
  simp only [parseIDAT, hidata, hioff, hz.first_eq, hz.pal_img_n_eq, hgetn]
  rw [if_neg (by decide), if_neg fun hand => hand.1 rfl, if_neg hint, if_neg (by omega)]
  rfl

section

variable {rounds req_comp t : Nat} {garbage : LoadGarbage} {z : PngLoad} {c : Chunk}
  {rest : List UInt8}

lemma parseChunk_ihdr (z : PngLoad) (length : Nat) :
    parseChunk z length (stbiPngType 'I' 'H' 'D' 'R') = parseIHDR z length := by
  rw [parseChunk, if_neg (by decide), if_pos rfl]

lemma parseChunk_idat (z : PngLoad) (length : Nat) :
    parseChunk z length (stbiPngType 'I' 'D' 'A' 'T') = parseIDAT z length := by
  rw [parseChunk, if_neg (by decide), if_neg (by decide), if_neg (by decide), if_neg (by decide),
    if_pos rfl]

/-- A chunk in front of the last one. -/
lemma chunkStep_chunk (rounds : Nat) (garbage : LoadGarbage) (req_comp : Nat) (z : PngLoad)
    (c : Chunk) {P : PngLoad → Prop} (htype : c.type = be32 t) (ht : t < 2 ^ 32)
    (hend : t ≠ stbiPngType 'I' 'E' 'N' 'D') (hdata : c.data.length < 2 ^ 32)
    (hs : z.s.At (c.bytes ++ rest))
    (h : ∀ s tail, s.At (c.data ++ tail) →
      ∃ z', parseChunk { z with s := s } c.data.length t = .ok z' ∧ z'.s.At tail ∧ P z') :
    ∃ z' s', chunkStep rounds garbage req_comp z = .ok (.inr { z' with s := s' }) ∧ s'.At rest ∧
      P z' := by
  rw [Chunk.bytes, Chunk.body, htype, List.append_assoc, List.append_assoc, List.append_assoc] at hs
  obtain ⟨s1, h1, hs1⟩ := stbiGet32be_at hdata hs
  obtain ⟨s2, h2, hs2⟩ := stbiGet32be_at ht hs1
  obtain ⟨z', hz', hs3, hP⟩ := h s2 _ hs2
  obtain ⟨s4, h4, hs4⟩ := stbiGet32be_at (BitVec.isLt _) hs3
  refine ⟨z', s4, ?_, hs4, hP⟩
  simp only [chunkStep, h1, h2, if_neg hend, hz', Except.map, h4]

lemma chunkStep_iend (rounds : Nat) (garbage : LoadGarbage) (req_comp : Nat) {z : PngLoad}
    (hs : z.s.At iendChunk.bytes) :
    ∃ s', chunkStep rounds garbage req_comp z =
      (parseIEND rounds garbage req_comp { z with s := s' }).map .inl := by
  have htype : iendChunk.body = be32 (stbiPngType 'I' 'E' 'N' 'D') := by decide
  rw [Chunk.bytes, htype] at hs
  obtain ⟨s1, h1, hs1⟩ := stbiGet32be_at (by decide) hs
  obtain ⟨s2, h2, hs2⟩ := stbiGet32be_at (by decide) hs1
  refine ⟨s2, ?_⟩
  simp only [chunkStep, h1, h2, if_true]

lemma parseChunks_inr {z' : PngLoad} (h : chunkStep rounds garbage req_comp z = .ok (.inr z'))
    (k : Nat) : parseChunks rounds garbage req_comp (k + 1) z =
      parseChunks rounds garbage req_comp k z' := by
  rw [parseChunks, h]
  rfl

/-- Room is made for just what the rows take. -/
lemma rawLen_written (h : Loadable x y n) :
    (BitVec.ofNat 32 ((x * 8 + 7) / 8 * y * n + y)).toInt = (((x * n + 1) * y : Nat) : Int) := by
  have hsize := h.size_le
  have hy := h.y_le
  have hbytes : (x * 8 + 7) / 8 = x := by omega
  have hlength : x * y * n + y = (x * n + 1) * y := by ring
  have hmod : ((x * n + 1) * y) % 2 ^ 32 = (x * n + 1) * y := Nat.mod_eq_of_lt (by omega)
  rw [hbytes, hlength, BitVec.toInt_eq_toNat_of_lt (by rw [BitVec.toNat_ofNat, hmod]; omega),
    BitVec.toNat_ofNat, hmod]

lemma parseIEND_written (globals : StbiWrite) (pixels : List UInt8) (stride : Nat)
    {zlib : List UInt8} (h : Loadable x y n) (hz : HeaderRead x y n z)
    (hidata : z.idata = some zlib) {filters : Nat → Nat} (hfilters : ∀ j < y, filters j < 5)
    (hzlib : stbiZlibDecode rounds garbage.tables zlib ((x * n + 1) * y : Nat) true =
      .ok (filteredRows globals pixels stride x y n filters)) :
    parseIEND rounds garbage 4 z = .ok ⟨x, y, 8, storedComponents n,
      (writtenRows globals pixels stride x y n).flatMap fun row =>
        ((writtenFormat n).layout.spread x row).map UInt8.toNat⟩ := by
  have hcomponents : z.imgOutN 4 = storedComponents n := by
    have hn := h.n_pos
    have hn4 := h.n_le
    rw [PngLoad.imgOutN, hz.img_n_eq, hz.pal_img_n_eq, hz.has_trans_eq, storedComponents]
    interval_cases n <;> rfl
  have himage := stbiCreatePngImage_filteredRows globals pixels stride h hfilters garbage.final
  rw [writtenFormat] at himage
  simp only [parseIEND, hz.first_eq, hidata, hz.is_iphone_eq, hz.img_n_eq, hz.depth_eq, hz.color_eq,
    hz.img_x_eq, hz.img_y_eq, hz.pal_img_n_eq, hz.has_trans_eq, hz.interlace_eq, Bool.not_false,
    rawLen_written h, hzlib, hcomponents]
  rw [if_neg (by decide)]
  change (stbiCreatePngImage _ _ _ x y false >>= _) = _
  rw [himage]
  rfl

end

/-! ### Files -/

lemma samples_written (globals : StbiWrite) (pixels : List UInt8) (stride : Nat)
    (h : Loadable x y n) :
    let out := (writtenRows globals pixels stride x y n).flatMap fun row =>
      ((writtenFormat n).layout.spread x row).map UInt8.toNat
    (if 4 = storedComponents n then out
      else mapPixels (storedComponents n) (convertPixel 0xff (storedComponents n) 4) (x * y)
        out).map UInt8.ofNat = rgbaRows n x (writtenRows globals pixels stride x y n) := by
  intro out
  have hrows : ∀ row ∈ writtenRows globals pixels stride x y n, row.length = n * x := by
    intro row hrow
    obtain ⟨j, -, rfl⟩ := List.mem_map.mp hrow
    rw [length_writtenRow, Nat.mul_comm]
  have hcount : (writtenRows globals pixels stride x y n).length = y := by
    rw [writtenRows, List.length_map, List.length_range]
  have hflat : n * (x * y) ≤ (writtenRows globals pixels stride x y n).flatten.length := by
    rw [length_flatten_of_length_eq hrows, hcount, Nat.mul_assoc]
  have hstored : ∀ p : List UInt8, p.length = n →
      (storedPixel n p).length = storedComponents n := by
    intro p hp
    rw [storedPixel, List.length_map]
    split_ifs with hsame
    · rw [hp, ← hsame]
    · rw [storedComponents] at hsame ⊢
      split_ifs at hsame ⊢ with h3
      · rw [List.length_append, hp, h3]
        rfl
      · exact absurd rfl hsame
  have hspread : ∀ row : List UInt8, ((writtenFormat n).layout.spread x row).map UInt8.toNat =
      mapPixels n (storedPixel n) x row := by
    intro row
    rw [RowLayout.spread, map_mapPixels, layout_writtenFormat]
    split_ifs with hsame
    · congr 1
      funext p
      rw [storedPixel, if_pos hsame, List.append_nil]
    · congr 1
      funext p
      rw [storedPixel, if_neg hsame]
  have hout : out = mapPixels n (storedPixel n) (x * y)
      (writtenRows globals pixels stride x y n).flatten := by
    change (writtenRows globals pixels stride x y n).flatMap _ = _
    rw [List.flatMap_congr fun row _ => hspread row, flatMap_mapPixels hrows, hcount]
  have hloaded : (if 4 = storedComponents n then out
      else mapPixels (storedComponents n) (convertPixel 0xff (storedComponents n) 4) (x * y)
        out).map UInt8.ofNat = mapPixels n (loadedPixel n) (x * y)
          (writtenRows globals pixels stride x y n).flatten := by
    rw [hout]
    split_ifs with h4
    · rw [map_mapPixels]
      congr 1
      funext p
      rw [loadedPixel, if_pos h4]
    · rw [mapPixels_mapPixels hstored hflat, map_mapPixels]
      congr 1
      funext p
      rw [loadedPixel, if_neg h4]
  rw [hloaded, mapPixels_congr (fun p hp => loadedPixel_eq h.n_pos h.n_le hp) hflat, rgbaRows,
    flatMap_mapPixels hrows, hcount]

/-- The chunks are read up to the last one, at which the rows are decompressed. -/
lemma stbiParsePngFile_pngFile (h : Loadable x y n) (rounds : Nat) (garbage : LoadGarbage)
    {zlib : List UInt8} (hpos : 0 < zlib.length) (hshort : zlib.length < 2 ^ 31) :
    ∃ z, HeaderRead x y n z ∧ z.idata = some zlib ∧
      stbiParsePngFile rounds garbage ⟨pngFile x y n zlib, 0⟩ 4 = parseIEND rounds garbage 4 z := by
  have hstart : StbiContext.At ⟨pngFile x y n zlib, 0⟩
      (pngSignature ++ ([ihdrChunk x y n, idatChunk zlib].flatMap Chunk.bytes ++
        iendChunk.bytes)) := ⟨[], rfl, rfl⟩
  obtain ⟨s1, hsig, hs1⟩ := checkSig_at hstart
  rw [List.flatMap_cons, List.flatMap_singleton, List.append_assoc] at hs1
  have hihdr : ihdrTag = be32 (stbiPngType 'I' 'H' 'D' 'R') := by decide
  have hidat : idatTag = be32 (stbiPngType 'I' 'D' 'A' 'T') := by decide
  have h13 : (ihdrChunk x y n).data.length = 13 := rfl
  obtain ⟨z2, s2, hstep2, hs2, hz2, hidata2⟩ := chunkStep_chunk rounds garbage 4
    (.start garbage.palette s1) (ihdrChunk x y n)
    (P := fun z => HeaderRead x y n z ∧ z.idata = none) hihdr (by decide) (by decide)
    (by rw [h13]; decide) hs1 fun s tail hs => by
      rw [parseChunk_ihdr, h13]
      exact parseIHDR_written h garbage.palette hs
  obtain ⟨z3, s3, hstep3, hs3, hz3⟩ := chunkStep_chunk rounds garbage 4 { z2 with s := s2 }
    (idatChunk zlib) (P := fun z => ∃ s, z = { z2 with s := s, idata := some zlib }) hidat
    (by decide) (by decide) (show zlib.length < 2 ^ 32 by omega) hs2 fun s tail hs => by
      rw [parseChunk_idat]
      obtain ⟨s', hok, hat⟩ := parseIDAT_written (hz2.setContext s2 _) hidata2 hpos hshort hs
      exact ⟨_, hok, hat, s', rfl⟩
  obtain ⟨s4, rfl⟩ := hz3
  obtain ⟨s5, hstep5⟩ := chunkStep_iend rounds garbage 4
    (z := { z2 with s := s3, idata := some zlib }) hs3
  refine ⟨{ z2 with s := s5, idata := some zlib }, hz2.setContext s5 _, rfl, ?_⟩
  have hheader : stbiCheckPngHeader ⟨pngFile x y n zlib, 0⟩ = (true, s1) := hsig
  obtain ⟨k, hk⟩ : ∃ k, (pngFile x y n zlib).length + 1 = k + 3 := by
    refine ⟨(pngFile x y n zlib).length - 2, ?_⟩
    rw [pngFile, List.length_append]
    change 8 + _ + 1 = 8 + _ - 2 + 3
    omega
  rw [stbiParsePngFile, hheader]
  simp only [hk, not_true_eq_false, if_false]
  rw [parseChunks_inr hstep2, parseChunks_inr hstep3, parseChunks, hstep5]
  cases parseIEND rounds garbage 4 { z2 with s := s5, idata := some zlib } <;> rfl

/-- A file of compressed rows is loaded with four components. -/
lemma stbiDoPng_pngFile (h : Loadable x y n) {rounds : Nat} {garbage : LoadGarbage}
    {zlib : List UInt8} (hpos : 0 < zlib.length) (hshort : zlib.length < 2 ^ 31)
    {filters : Nat → Nat} (hfilters : ∀ j < y, filters j < 5)
    (hdecode : stbiZlibDecode rounds garbage.tables zlib ((x * n + 1) * y : Nat) true =
      .ok (filteredRows globals pixels stride x y n filters)) :
    stbiDoPng rounds garbage ⟨pngFile x y n zlib, 0⟩ 4 =
      .ok ⟨8, x, y, if 4 = storedComponents n then
          (writtenRows globals pixels stride x y n).flatMap fun row =>
            ((writtenFormat n).layout.spread x row).map UInt8.toNat
        else mapPixels (storedComponents n) (convertPixel 0xff (storedComponents n) 4) (x * y)
          ((writtenRows globals pixels stride x y n).flatMap fun row =>
            ((writtenFormat n).layout.spread x row).map UInt8.toNat)⟩ := by
  obtain ⟨z, hz, hidata, hparse⟩ := stbiParsePngFile_pngFile h rounds garbage hpos hshort
  rw [parseIEND_written globals pixels stride h hz hidata hfilters hdecode] at hparse
  have hsizes : stbiMad3sizesValid 4 x y 0 = true := by
    refine mad3_valid h.y_pos ?_
    calc 4 * x * y + 0 = x * y * 4 := by ring
      _ ≤ intMax := h.rgba_le
  rw [stbiDoPng, if_neg (by decide), hparse]
  split_ifs with h4
  · change (if 4 ≠ 0 ∧ 4 ≠ storedComponents n then _ else _ : Except StbiFailure StbiResult) = _
    rw [if_neg fun hand => hand.2 h4]
    rfl
  · change (if 4 ≠ 0 ∧ 4 ≠ storedComponents n then _ else _ : Except StbiFailure StbiResult) = _
    rw [if_pos ⟨by decide, h4⟩]
    change (stbiConvertFormat _ (storedComponents n) 4 x y >>= _) = _
    rw [stbiConvertFormat, if_neg h4, if_neg (not_not.mpr hsizes)]
    rfl

/-- The file is none that the loader of JPEG files takes. -/
lemma stbiJpegTest_pngFile (zlib : List UInt8) : stbiJpegTest (pngFile x y n zlib) = false := rfl

lemma stbiCheckPngHeader_pngFile (zlib : List UInt8) :
    (stbiCheckPngHeader ⟨pngFile x y n zlib, 0⟩).1 = true := by
  have hstart : StbiContext.At ⟨pngFile x y n zlib, 0⟩ (pngSignature ++ _) := ⟨[], rfl, rfl⟩
  obtain ⟨s, hsig, -⟩ := checkSig_at hstart
  have hheader : stbiCheckPngHeader ⟨pngFile x y n zlib, 0⟩ = (true, s) := hsig
  rw [hheader]

/-- What has been written is loaded with four components, whatever filter was forced, whichever way
up it was written and however well it was compressed. -/
lemma stbiLoadMain_written (globals : StbiWrite) (pixels : List UInt8) (stride : Nat)
    (h : Loadable x y n) (hestimates : globals.Estimates (x * n)) {rounds : Nat}
    (hrounds : (x * n + 1) * y < rounds) (garbage : LoadGarbage)
    (jpeg other : List UInt8 → Except StbiFailure StbiResult) :
    ∃ bytes, stbiWritePngToMem globals pixels stride x y n = .ok bytes ∧ bytes ≠ [] ∧
      stbiLoadAndPostprocess8bit (stbiLoadMain jpeg other rounds garbage bytes 4) =
        .ok (rgbaRows n x (writtenRows globals pixels (rowStride stride x n) x y n), x, y) := by
  have hsize : 4 * ((x * n + 1) * y) ≤ 5 * 2 ^ 30 := by
    have hsize := h.size_le
    have hy := h.y_le
    rw [Nat.add_mul, Nat.one_mul, Nat.mul_right_comm]
    omega
  obtain ⟨filters, hfilters, hwrite⟩ := stbiWritePngToMem_eq_pngFile (y := y) globals pixels stride
    h.x_pos h.n_pos h.n_le hsize hestimates
  set filt := filteredRows globals pixels (rowStride stride x n) x y n filters with hfilt
  have hlength : filt.length = (x * n + 1) * y := length_filteredRows
  have hstream := isFixedStream_zlibBytes filt globals.stbi_write_png_compression_level
  have hpos := (header_prefix_of_isFixedStream hstream).length_le
  have hroom : HasRoom (((x * n + 1) * y : Nat) : Int).toNat filt.length :=
    hasRoom_of_le (by rw [hlength, Int.toNat_natCast]) (by rw [Int.toNat_natCast]; omega)
  have hrange : 0 ≤ (((x * n + 1) * y : Nat) : Int) ∧ (((x * n + 1) * y : Nat) : Int) < 2 ^ 31 := by
    omega
  have hdecode := stbiZlibDecode_of_isFixedStream (by decide) hstream hrange hroom
    (hlength.symm ▸ hrounds) garbage.tables
  have hpng := stbiDoPng_pngFile h (Nat.lt_of_lt_of_le (by decide) hpos)
    (length_zlibBytes_lt hsize _) hfilters hdecode
  refine ⟨_, hwrite, List.cons_ne_nil _ _, ?_⟩
  have hsamples := samples_written globals pixels (rowStride stride x n) h
  rw [stbiLoadMain, stbiJpegTest_pngFile, if_neg Bool.false_ne_true, stbiCheckPngHeader_pngFile,
    if_pos rfl, hpng, stbiLoadAndPostprocess8bit, ← hsamples]
  rfl

/-- Written as they lie in memory, the rows are the pixels. -/
lemma rgbaRows_writtenRows (hflip : ¬ globals.stbi__flip_vertically_on_write)
    (hpixels : pixels.length = x * y * n) :
    rgbaRows n x (writtenRows globals pixels (rowStride (x * n) x n) x y n) =
      mapPixels n (rgbaOf n) (x * y) pixels := by
  have hstride : rowStride (x * n) x n = x * n := ite_self _
  have hrows : ∀ row ∈ writtenRows globals pixels (x * n) x y n, row.length = n * x := by
    intro row hrow
    obtain ⟨j, -, rfl⟩ := List.mem_map.mp hrow
    rw [length_writtenRow, Nat.mul_comm]
  have hcount : (writtenRows globals pixels (x * n) x y n).length = y := by
    rw [writtenRows, List.length_map, List.length_range]
  have hrow : ∀ j, writtenRow globals.stbi__flip_vertically_on_write pixels (x * n) x y n j =
      (List.range (x * n)).map fun i => byteAt pixels (x * n * j + i) := by
    intro j
    rw [writtenRow, rowStart, if_neg hflip]
  have hflat : ∀ k, ((List.range k).map fun j => (List.range (x * n)).map fun i =>
      byteAt pixels (x * n * j + i)).flatten = (List.range (x * n * k)).map (byteAt pixels) := by
    intro k
    induction k with
    | zero => rfl
    | succ k ih =>
      rw [List.range_succ, List.map_append, List.flatten_append, ih, Nat.mul_succ, List.range_add,
        List.map_append, List.map_map, List.map_singleton, List.flatten_singleton]
      rfl
  have hpixels' : (List.range (x * n * y)).map (byteAt pixels) = pixels := by
    apply List.ext_getElem
    · rw [List.length_map, List.length_range, hpixels, Nat.mul_right_comm]
    · intro i h1 h2
      rw [List.getElem_map, List.getElem_range, byteAt, List.getD_eq_getElem _ _ h2]
  rw [hstride, rgbaRows, flatMap_mapPixels hrows, hcount, writtenRows,
    List.map_congr_left fun j _ => hrow j, hflat, hpixels']

end

end GifTools
