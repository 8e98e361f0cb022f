import GifTools.Png.Filtered
import GifTools.Png.Interlaced
import GifTools.Png.Load

/-!
# The sizes of loaded images

Every PNG file that is accepted, whatever its depth and colours, interlaced or not, gives as many
samples as its extents and the components that were asked for say.
-/

namespace GifTools

open Runs

/-! ### Rows -/

section

variable {layout : RowLayout} {filter : PngFilter} {prior raw cur : List UInt8} {width : Nat}

lemma length_unfilterPixels (h : layout.Fits) (n : Nat) (raw cur : List UInt8) :
    (unfilterPixels filter layout prior n raw cur).length =
      layout.output_bytes * n + cur.length := by
  induction n generalizing raw cur with
  | zero => rw [unfilterPixels, Nat.mul_zero, Nat.zero_add]
  | succ n ih =>
    rw [unfilterPixels, ih, List.length_append, List.length_append, List.length_map,
      List.length_range, ← h.output_bytes_eq, Nat.mul_succ]
    omega

lemma length_unfilterRow (h : layout.Fits) (hwidth : 0 < width) :
    (unfilterRow filter layout width raw prior).length = layout.output_bytes * width := by
  rw [unfilterRow, length_unfilterPixels h, List.length_append, List.length_map, List.length_range,
    ← h.output_bytes_eq, ← Nat.mul_add_one, Nat.sub_add_cancel hwidth]

lemma length_unfilterRows (h : layout.Fits) (hwidth : 0 < width) {img_width_bytes y : Nat}
    {fits : Bool} {above : Option (List UInt8)} {rows : List (List UInt8)}
    (hrows : unfilterRows layout width img_width_bytes fits y above raw = .ok rows) :
    rows.length = y ∧ ∀ row ∈ rows, row.length = layout.output_bytes * width := by
  induction y generalizing above raw rows with
  | zero =>
    cases hrows
    exact ⟨rfl, fun row hrow => by cases hrow⟩
  | succ y ih =>
    rw [unfilterRows] at hrows
    split at hrows
    · cases hrows
    split at hrows
    · cases hrows
    obtain ⟨rest, hrest, hrows⟩ := bind_ok.mp hrows
    cases hrows
    obtain ⟨hlength, hall⟩ := ih hrest
    refine ⟨by rw [List.length_cons, hlength], fun row hrow => ?_⟩
    rcases List.mem_cons.mp hrow with rfl | hrow
    · exact length_unfilterRow h hwidth
    · exact hall row hrow

end

/-! ### Samples -/

/-- What a header may ask for, with a component put behind the others or not. -/
structure PngFormat.Valid (format : PngFormat) : Prop where
  img_n_pos : 0 < format.img_n
  out_n_eq : format.out_n = format.img_n ∨ format.out_n = format.img_n + 1
  depth_mem : format.depth ∈ [1, 2, 4, 8, 16]

section

variable {format : PngFormat} {x y : Nat} {row raw : List UInt8}

lemma fits_layout (h : format.Valid) : format.layout.Fits := by
  have hpos := h.img_n_pos
  have hbytes : 0 < format.bytes := by
    rw [PngFormat.bytes]
    split_ifs <;> decide
  rw [PngFormat.layout]
  split_ifs with hnarrow hsame
  · exact ⟨Nat.one_pos, rfl⟩
  · exact ⟨Nat.mul_pos hpos hbytes, rfl⟩
  · refine ⟨Nat.mul_pos hpos hbytes, ?_⟩
    rw [List.length_replicate, h.out_n_eq.resolve_left fun heq => hsame heq.symm, Nat.succ_mul]

/-- The pixels in a row as it is stored, or its bytes if there are several samples in each. -/
def PngFormat.rowWidth (format : PngFormat) (x : Nat) : Nat :=
  if format.depth < 8 then format.widthBytes x else x

lemma length_unpackByte {depth : Nat} (hdepth : depth ∈ [1, 2, 4]) (b : UInt8) :
    depth * (unpackByte depth b).length = 8 := by
  simp only [List.mem_cons, List.not_mem_nil, or_false] at hdepth
  rcases hdepth with rfl | rfl | rfl <;> rfl

lemma length_words (n : Nat) {row : List UInt8} (h : row.length = 2 * n) :
    (words row).length = n := by
  induction n generalizing row with
  | zero =>
    rw [List.length_eq_zero_iff.mp h]
    rfl
  | succ n ih =>
    match row, h with
    | hi :: lo :: row, h =>
      rw [words, List.length_cons, ih (by rw [List.length_cons, List.length_cons] at h; omega)]

lemma length_flatMap_unpackByte {depth : Nat} (hdepth : depth ∈ [1, 2, 4]) (row : List UInt8) :
    depth * (row.flatMap (unpackByte depth)).length = 8 * row.length := by
  induction row with
  | nil => rfl
  | cons b row ih =>
    rw [List.flatMap_cons, List.length_append, Nat.mul_add, length_unpackByte hdepth, ih,
      List.length_cons]
    omega

/-- The bytes of a row hold all its samples. -/
lemma length_unpackRow {depth scale img_n out_n : Nat} (hdepth : depth ∈ [1, 2, 4])
    (hout : out_n = img_n ∨ out_n = img_n + 1) (hrow : img_n * x * depth ≤ 8 * row.length) :
    (unpackRow depth scale img_n out_n x row).length = out_n * x := by
  have hpos : 0 < depth := by
    simp only [List.mem_cons, List.not_mem_nil, or_false] at hdepth
    omega
  have hall : x * img_n ≤ (row.flatMap (unpackByte depth)).length := by
    rw [← length_flatMap_unpackByte hdepth row, Nat.mul_comm _ depth] at hrow
    rw [Nat.mul_comm]
    exact Nat.le_of_mul_le_mul_left hrow hpos
  have hcur : (((row.flatMap (unpackByte depth)).take (x * img_n)).map fun v =>
      scale * v % 256).length = img_n * x := by
    rw [List.length_map, List.length_take_of_le hall, Nat.mul_comm]
  rw [unpackRow]
  split_ifs with hsame
  · rw [hcur, hsame]
  · refine (length_mapPixels (fun p hp => ?_) hcur.ge).trans rfl
    rw [List.length_append, hp, List.length_singleton]
    exact (hout.resolve_left fun heq => hsame heq.symm).symm

lemma length_samples (h : format.Valid)
    (hrow : row.length = format.layout.output_bytes * format.rowWidth x) :
    (format.samples x row).length = format.out_n * x := by
  have hdepth := h.depth_mem
  simp only [List.mem_cons, List.not_mem_nil, or_false] at hdepth
  rw [PngFormat.samples]
  by_cases hnarrow : format.depth < 8
  · have hwidth : row.length = (format.img_n * x * format.depth + 7) / 8 := by
      rw [hrow, PngFormat.layout, if_pos hnarrow, PngFormat.rowWidth, if_pos hnarrow,
        PngFormat.widthBytes, Nat.shiftRight_eq_div_pow, Nat.one_mul]
    simp only [if_pos hnarrow]
    refine length_unpackRow ?_ h.out_n_eq (by omega)
    simp only [List.mem_cons, List.not_mem_nil, or_false]
    omega
  · rw [PngFormat.rowWidth, if_neg hnarrow, PngFormat.layout, if_neg hnarrow] at hrow
    have hbytes : row.length = format.out_n * format.bytes * x := by
      rw [hrow]
      split_ifs with hsame
      · rw [hsame]
      · rfl
    rw [if_neg hnarrow]
    rw [PngFormat.bytes] at hbytes
    split_ifs at hbytes ⊢ with hwide
    · refine length_words _ ?_
      rw [hbytes]
      ring
    · rw [List.length_map, hbytes, Nat.mul_one]

/-! ### Images -/

/-- What an image that is made goes through. -/
lemma exists_rows_of_raw {out : List Nat} (hout : stbiCreatePngImageRaw format raw x y = .ok out) :
    stbiMad3sizesValid x y (format.out_n * format.bytes) 0 ∧ ∃ fits rows,
      unfilterRows format.layout (format.rowWidth x) (format.widthBytes x) fits y none raw =
        .ok rows ∧ out = rows.flatMap (format.samples x) := by
  rw [stbiCreatePngImageRaw] at hout
  split at hout
  · cases hout
  split at hout
  · cases hout
  split at hout
  · cases hout
  next hsize _ _ =>
    obtain ⟨rows, hrows, hout⟩ := bind_ok.mp hout
    cases hout
    exact ⟨not_not.mp hsize, _, rows, hrows, rfl⟩

lemma length_stbiCreatePngImageRaw (h : format.Valid) (hx : 0 < x) {out : List Nat}
    (hout : stbiCreatePngImageRaw format raw x y = .ok out) :
    out.length = format.out_n * (x * y) := by
  obtain ⟨-, fits, rows, hrows, rfl⟩ := exists_rows_of_raw hout
  have hwidth : 0 < format.rowWidth x := by
    rw [PngFormat.rowWidth]
    split_ifs
    · rw [PngFormat.widthBytes, Nat.shiftRight_eq_div_pow]
      have hdepth : 0 < format.depth := by
        have hmem := h.depth_mem
        simp only [List.mem_cons, List.not_mem_nil, or_false] at hmem
        omega
      have hbits := Nat.mul_pos (Nat.mul_pos h.img_n_pos hx) hdepth
      omega
    · exact hx
  obtain ⟨hcount, hall⟩ := length_unfilterRows (fits_layout h) hwidth hrows
  have hsamples : ∀ row ∈ rows.map (format.samples x), row.length = format.out_n * x := by
    intro row hrow
    obtain ⟨row', hrow', rfl⟩ := List.mem_map.mp hrow
    exact length_samples h (hall row' hrow')
  rw [List.flatMap_def, length_flatten_of_length_eq hsamples, List.length_map, hcount,
    Nat.mul_assoc]

/-- The images of the passes have the samples of their extents. -/
lemma length_of_reducedImages (h : format.Valid) {img_x img_y n p : Nat} {image_data : List UInt8}
    {images : List (List Nat)}
    (himages : reducedImages format img_x img_y n p image_data = .ok images)
    (q : Nat) (hq : q < n) :
    (images.getD q []).length = format.out_n *
      ((pngPass (p + q)).columns img_x * (pngPass (p + q)).rows img_y) := by
  induction n generalizing p q image_data images with
  | zero => exact absurd hq (Nat.not_lt_zero q)
  | succ n ih =>
    by_cases hempty : (pngPass p).columns img_x ≠ 0 ∧ (pngPass p).rows img_y ≠ 0
    · simp only [reducedImages, if_pos hempty] at himages
      obtain ⟨out, hout, himages⟩ := bind_ok.mp himages
      obtain ⟨rest, hrest, himages⟩ := bind_ok.mp himages
      cases himages
      cases q with
      | zero => exact length_stbiCreatePngImageRaw h (Nat.pos_of_ne_zero hempty.1) hout
      | succ q =>
        rw [List.getD_cons_succ, ih hrest q (by omega), show p + 1 + q = p + (q + 1) by omega]
    · simp only [reducedImages, if_neg hempty] at himages
      obtain ⟨rest, hrest, himages⟩ := bind_ok.mp himages
      cases himages
      cases q with
      | zero =>
        rcases not_and_or.mp hempty with hx | hy
        · rw [Nat.add_zero, not_not.mp hx, Nat.zero_mul]
          rfl
        · rw [Nat.add_zero, not_not.mp hy]
          rfl
      | succ q =>
        rw [List.getD_cons_succ, ih hrest q (by omega), show p + 1 + q = p + (q + 1) by omega]

lemma areReduced_of_ok (h : format.Valid) {image_data : List UInt8} {images : List (List Nat)}
    (himages : reducedImages format x y 7 0 image_data = .ok images) :
    AreReduced format.out_n x y images := by
  intro p hp
  rw [length_of_reducedImages h himages p hp, Nat.zero_add]

/-- The first pass has a pixel, so that memory is needed for the image. -/
lemma allocated_of_interlaced (hx : 0 < x) (hy : 0 < y) {garbage : Nat → List Nat}
    {out : List Nat} (hout : stbiCreatePngImage format garbage raw x y true = .ok out) :
    stbiMad3sizesValid x y (format.out_n * format.bytes) 0 := by
  by_contra hsize
  rw [Bool.not_eq_true] at hsize
  have hfirst : (pngPass 0).columns x ≠ 0 ∧ (pngPass 0).rows y ≠ 0 := by
    refine ⟨?_, ?_⟩
    · change (x + 8 - 1 - 0) / 8 ≠ 0
      omega
    · change (y + 8 - 1 - 0) / 8 ≠ 0
      omega
  rw [stbiCreatePngImage, if_neg (by decide)] at hout
  obtain ⟨final, hfinal, -⟩ := bind_ok.mp hout
  simp only [interlacedPasses, hsize, if_pos hfirst] at hfinal
  cases hraw : stbiCreatePngImageRaw format raw ((pngPass 0).columns x) ((pngPass 0).rows y) with
  | error failure =>
    rw [hraw] at hfinal
    cases hfinal
  | ok out =>
    rw [hraw] at hfinal
    cases hfinal

/-- An image has the samples of its extents, and no more bytes than an `int` can say. -/
lemma length_stbiCreatePngImage (h : format.Valid) (hx : 0 < x) (hy : 0 < y)
    {garbage : Nat → List Nat} {interlaced : Bool} {out : List Nat}
    (hout : stbiCreatePngImage format garbage raw x y interlaced = .ok out) :
    out.length = format.out_n * (x * y) ∧
      stbiMad3sizesValid x y (format.out_n * format.bytes) 0 := by
  cases interlaced with
  | false =>
    rw [stbiCreatePngImage, if_pos (by decide)] at hout
    exact ⟨length_stbiCreatePngImageRaw h hx hout, (exists_rows_of_raw hout).1⟩
  | true =>
    have hsize := allocated_of_interlaced hx hy hout
    have heq : stbiCreatePngImage format garbage raw x y true =
        (reducedImages format x y 7 0 raw).map (deinterlace format.out_n x y) :=
      stbiCreatePngImage_eq format garbage raw x y hsize
    rw [heq] at hout
    cases himages : reducedImages format x y 7 0 raw with
    | error failure =>
      rw [himages] at hout
      cases hout
    | ok images =>
      rw [himages] at hout
      cases hout
      exact ⟨length_deinterlace (areReduced_of_ok h himages), hsize⟩

/-- An interlaced image is the one whose grids are the seven images that the file holds; what the
memory held before is gone. -/
theorem stbiCreatePngImage_interlaced_ok_iff (h : format.Valid) (hx : 0 < x) (hy : 0 < y)
    (garbage : Nat → List Nat) (out : List Nat) :
    stbiCreatePngImage format garbage raw x y true = .ok out ↔
      stbiMad3sizesValid x y (format.out_n * format.bytes) 0 ∧
        out.length = format.out_n * (x * y) ∧
        ∃ images, reducedImages format x y 7 0 raw = .ok images ∧
          ∀ p < 7, images.getD p [] = gridOf format.out_n x y (pngPass p) out := by
  constructor
  · intro hout
    have hsize := allocated_of_interlaced hx hy hout
    rw [stbiCreatePngImage_eq format garbage raw x y hsize] at hout
    cases himages : reducedImages format x y 7 0 raw with
    | error failure =>
      rw [himages] at hout
      cases hout
    | ok images =>
      rw [himages] at hout
      obtain ⟨hlength, hgrids⟩ := (eq_deinterlace_iff (areReduced_of_ok h himages)).mp
        (Except.ok.inj hout).symm
      exact ⟨hsize, hlength, images, rfl, hgrids⟩
  · rintro ⟨hsize, hlength, images, himages, hgrids⟩
    rw [stbiCreatePngImage_eq format garbage raw x y hsize, himages,
      (eq_deinterlace_iff (areReduced_of_ok h himages)).mpr ⟨hlength, hgrids⟩]
    rfl

/-- Two by two pixels, of which two are passes of their own. -/
theorem stbiCreatePngImage_interlaced_ok_square :
    stbiCreatePngImage ⟨1, 1, 8, 0⟩ (fun _ => []) [0, 1, 0, 2, 0, 3, 4] 2 2 true =
      .ok [1, 2, 3, 4] :=
  (stbiCreatePngImage_interlaced_ok_iff ⟨by decide, .inl rfl, by decide⟩ (by decide) (by decide)
    _ _).mpr ⟨by decide, rfl, [[1], [], [], [], [], [2], [3, 4]], rfl, by decide⟩

end

/-! ### Headers -/

lemma ite_error {A : Type} {c : Prop} [Decidable c] {e : StbiFailure} {x : Except StbiFailure A}
    {a : A} : (if c then .error e else x) = .ok a ↔ ¬ c ∧ x = .ok a := by
  by_cases h : c
  · rw [if_pos h]
    exact ⟨fun hno => (nomatch hno), fun hand => absurd h hand.1⟩
  · rw [if_neg h]
    exact ⟨fun hok => ⟨h, hok⟩, fun hand => hand.2⟩

/-- The components of a pixel of this colour type. -/
def colorComponents (color : Nat) : Nat :=
  if color = 3 then 1
  else (if color &&& 2 ≠ 0 then 3 else 1) + (if color &&& 4 ≠ 0 then 1 else 0)

lemma colorComponents_pos (color : Nat) : 0 < colorComponents color := by
  rw [colorComponents]
  split_ifs <;> decide

lemma colorComponents_le (color : Nat) : colorComponents color ≤ 4 := by
  rw [colorComponents]
  split_ifs <;> decide

/-- What a header that is accepted says. -/
structure PngLoad.Header (z : PngLoad) : Prop where
  img_x_pos : 0 < z.img_x
  img_x_le : z.img_x ≤ 2 ^ 24
  img_y_pos : 0 < z.img_y
  img_y_le : z.img_y ≤ 2 ^ 24
  depth_mem : z.depth ∈ [1, 2, 4, 8, 16]
  img_n_pos : 0 < z.img_n
  img_n_le : z.img_n ≤ 4
  /-- With a palette, a pixel is an index, and no colour is transparent. -/
  palette : z.pal_img_n ≠ 0 → z.img_n = 1 ∧ z.depth ≠ 16 ∧ z.has_trans = false
  trans : z.has_trans → z.img_n = 1 ∨ z.img_n = 3

/-- Of the chunks that have been read the first was the header. -/
structure PngLoad.Sane (z : PngLoad) : Prop where
  first : z.first → z.pal_img_n = 0 ∧ z.has_trans = false
  header : ¬ z.first → z.Header

section

variable {z z' : PngLoad} {length type : Nat}

lemma sane_start (palette : Vector Nat 1024) (s : StbiContext) : (PngLoad.start palette s).Sane :=
  ⟨fun _ => ⟨rfl, rfl⟩, fun h => absurd rfl h⟩

lemma PngLoad.Sane.congr (h : z.Sane) (hfirst : z'.first = z.first) (hx : z'.img_x = z.img_x)
    (hy : z'.img_y = z.img_y) (hdepth : z'.depth = z.depth) (hn : z'.img_n = z.img_n)
    (hpal : z'.pal_img_n = z.pal_img_n) (htrans : z'.has_trans = z.has_trans) : z'.Sane := by
  refine ⟨fun hz' => ?_, fun hz' => ?_⟩
  · rw [hpal, htrans]
    exact h.first (hfirst ▸ hz')
  · have hz := h.header (hfirst ▸ hz')
    exact ⟨hx ▸ hz.1, hx ▸ hz.2, hy ▸ hz.3, hy ▸ hz.4, hdepth ▸ hz.5, hn ▸ hz.6, hn ▸ hz.7,
      by rw [hpal, hn, hdepth, htrans]; exact hz.8, by rw [htrans, hn]; exact hz.9⟩

lemma sane_parseIHDR (hz : z.Sane) (h : parseIHDR z length = .ok z') : z'.Sane := by
  rcases h1 : stbiGet32be z.s with ⟨x, s1⟩
  rcases h2 : stbiGet32be s1 with ⟨y, s2⟩
  rcases h3 : stbiGet8 s2 with ⟨depth, s3⟩
  rcases h4 : stbiGet8 s3 with ⟨color, s4⟩
  rcases h5 : stbiGet8 s4 with ⟨comp, s5⟩
  rcases h6 : stbiGet8 s5 with ⟨filter, s6⟩
  rcases h7 : stbiGet8 s6 with ⟨interlace, s7⟩
  simp only [parseIHDR, h1, h2, h3, h4, h5, h6, h7, ite_error] at h
  obtain ⟨hfirst, -, hx, hy, hdepth, -, hwide, -, -, -, -, hpos, -, h⟩ := h
  rw [Nat.one_shiftLeft] at hx hy
  obtain ⟨hpal, htrans⟩ := hz.first (not_not.mp hfirst)
  cases h
  refine ⟨fun hno => absurd hno Bool.false_ne_true, fun _ => ?_⟩
  refine ⟨by change 0 < x; omega, by change x ≤ _; omega, by change 0 < y; omega,
    by change y ≤ _; omega, ?_, colorComponents_pos color, colorComponents_le color,
    fun hindex => ?_, fun hcolour => ?_⟩
  · simp only [List.mem_cons, List.not_mem_nil, or_false]
    omega
  · have h3 : color = 3 := by
      by_contra h3
      exact hindex ((if_neg h3).trans hpal)
    exact ⟨if_pos h3, fun hdepth => hwide ⟨h3, hdepth⟩, htrans⟩
  · exact absurd (htrans.symm.trans hcolour) Bool.false_ne_true

lemma sane_parsePLTE (hz : z.Sane) (h : parsePLTE z length = .ok z') : z'.Sane := by
  simp only [parsePLTE, ite_error] at h
  obtain ⟨-, -, -, h⟩ := h
  cases h
  exact hz.congr rfl rfl rfl rfl rfl rfl rfl

lemma sane_parseTRNS (hz : z.Sane) (h : parseTRNS z length = .ok z') : z'.Sane := by
  simp only [parseTRNS, ite_error] at h
  obtain ⟨hfirst, -, h⟩ := h
  have hheader := hz.header hfirst
  by_cases hpal : z.pal_img_n ≠ 0
  · rw [if_pos hpal] at h
    simp only [ite_error] at h
    obtain ⟨-, -, h⟩ := h
    cases h
    have hindex := hheader.palette hpal
    exact ⟨fun hno => absurd hno hfirst, fun _ => ⟨hheader.1, hheader.2, hheader.3, hheader.4,
      hheader.5, hheader.6, hheader.7, fun _ => hindex, hheader.9⟩⟩
  · rw [if_neg hpal] at h
    simp only [ite_error] at h
    obtain ⟨hodd, -, h⟩ := h
    cases h
    have hpos := hheader.img_n_pos
    have hle := hheader.img_n_le
    have hn : z.img_n = 1 ∨ z.img_n = 3 := by
      generalize z.img_n = n at hodd hpos hle
      interval_cases n <;> simp at hodd ⊢
    exact ⟨fun hno => absurd hno hfirst, fun _ => ⟨hheader.1, hheader.2, hheader.3, hheader.4,
      hheader.5, hheader.6, hheader.7, fun hno => absurd hno hpal, fun _ => hn⟩⟩

lemma sane_parseIDAT (hz : z.Sane) (h : parseIDAT z length = .ok z') : z'.Sane := by
  simp only [parseIDAT, ite_error] at h
  obtain ⟨-, -, -, h⟩ := h
  cases hdata : stbiGetn z.s length with
  | none =>
    rw [hdata] at h
    cases h
  | some data =>
    rw [hdata] at h
    cases h
    exact hz.congr rfl rfl rfl rfl rfl rfl rfl

lemma sane_parseAncillary (hz : z.Sane) (h : parseAncillary z length type = .ok z') : z'.Sane := by
  simp only [parseAncillary, ite_error] at h
  obtain ⟨-, -, h⟩ := h
  cases h
  exact hz.congr rfl rfl rfl rfl rfl rfl rfl

lemma sane_parseChunk (hz : z.Sane) (h : parseChunk z length type = .ok z') : z'.Sane := by
  rw [parseChunk] at h
  split at h
  · cases h
    exact hz.congr rfl rfl rfl rfl rfl rfl rfl
  split at h
  · exact sane_parseIHDR hz h
  split at h
  · exact sane_parsePLTE hz h
  split at h
  · exact sane_parseTRNS hz h
  split at h
  · exact sane_parseIDAT hz h
  · exact sane_parseAncillary hz h

end

/-! ### Components -/

section

variable {out_n count : Nat} {out : List Nat}

/-- A colour that counts as transparent keeps its components. -/
lemma length_stbiComputeTransparency {full : Nat} {tc : List Nat}
    (hout : out.length = out_n * count) :
    (stbiComputeTransparency full out_n tc count out).length = out_n * count := by
  refine length_mapPixels (fun p hp => ?_) hout.ge
  by_cases htwo : out_n = 2
  · rw [if_pos htwo]
    exact htwo.symm
  · rw [if_neg htwo]
    split_ifs
    · rw [List.length_set, hp]
    · exact hp

lemma length_stbiExpandPngPalette {palette : Vector Nat 1024} {pal_img_n : Nat} {out' : List Nat}
    (hpal : pal_img_n = 3 ∨ pal_img_n = 4) (hout : out.length = count)
    (h : stbiExpandPngPalette palette pal_img_n count out = .ok out') :
    out'.length = pal_img_n * count ∧ stbiMad2sizesValid count pal_img_n 0 := by
  rw [stbiExpandPngPalette, ite_error] at h
  obtain ⟨hsize, h⟩ := h
  cases h
  refine ⟨length_mapPixels (fun p hp => ?_) (by rw [hout, Nat.one_mul]), not_not.mp hsize⟩
  rw [List.length_map, List.length_range]
  rcases hpal with rfl | rfl <;> rfl

lemma length_convertPixel {full n : Nat} (hn : 0 < n) (hn4 : n ≤ 4) (hne : 4 ≠ n)
    (p : List Nat) : (convertPixel full n 4 p).length = 4 := by
  interval_cases n
  · rfl
  · rfl
  · rfl
  · exact absurd rfl hne

end

/-! ### Files -/

/-- What the parser makes has the samples of its extents, of which there are at most four for each
pixel; with four of them the bytes of a pixel fit into an `int` in all. -/
structure PngOut.Whole (p : PngOut) : Prop where
  img_x_pos : 0 < p.img_x
  img_x_le : p.img_x ≤ 2 ^ 24
  img_y_pos : 0 < p.img_y
  img_y_le : p.img_y ≤ 2 ^ 24
  img_out_n_pos : 0 < p.img_out_n
  img_out_n_le : p.img_out_n ≤ 4
  length_eq : p.out.length = p.img_out_n * (p.img_x * p.img_y)
  fits : p.img_out_n = 4 → p.img_x * p.img_y * 4 ≤ intMax

lemma mul2_le {a b : Nat} (hb : 0 < b) (h : stbiMul2sizesValid a b) : a * b ≤ intMax := by
  rw [stbiMul2sizesValid, if_neg hb.ne', decide_eq_true_eq, Nat.le_div_iff_mul_le hb] at h
  exact h

lemma mad3_le {a b c add : Nat} (hc : 0 < c) (h : stbiMad3sizesValid a b c add) :
    a * b * c ≤ intMax := by
  rw [stbiMad3sizesValid, Bool.and_eq_true, Bool.and_eq_true] at h
  exact mul2_le hc h.1.2

lemma mad2_le {a b add : Nat} (hb : 0 < b) (h : stbiMad2sizesValid a b add) :
    a * b ≤ intMax := by
  rw [stbiMad2sizesValid, Bool.and_eq_true] at h
  exact mul2_le hb h.1

section

variable {z : PngLoad} {rounds : Nat} {garbage : LoadGarbage} {p : PngOut}

/-- With four components asked for, one is put behind three of them or behind a transparent
colour. -/
lemma valid_format (h : z.Header) :
    (⟨z.img_n, z.imgOutN 4, z.depth, z.color⟩ : PngFormat).Valid ∧ 0 < z.imgOutN 4 ∧
      z.imgOutN 4 ≤ 4 := by
  have hpos := h.img_n_pos
  have hle := h.img_n_le
  have htrans := h.trans
  rw [PngLoad.imgOutN]
  split_ifs with hmore
  · refine ⟨⟨hpos, .inr rfl, h.depth_mem⟩, by omega, ?_⟩
    rcases hmore with ⟨hfour, -⟩ | hhas
    · omega
    · have := htrans hhas
      omega
  · exact ⟨⟨hpos, .inl rfl, h.depth_mem⟩, hpos, hle⟩

lemma whole_parseIEND (hz : z.Sane) (h : parseIEND rounds garbage 4 z = .ok p) : p.Whole := by
  rw [parseIEND, ite_error] at h
  obtain ⟨hfirst, h⟩ := h
  have hheader := hz.header hfirst
  cases hidata : z.idata with
  | none =>
    rw [hidata] at h
    cases h
  | some idata =>
    rw [hidata] at h
    obtain ⟨expanded, -, h⟩ := bind_ok.mp h
    obtain ⟨out, hout, h⟩ := bind_ok.mp h
    obtain ⟨hvalid, hpos, hle⟩ := valid_format hheader
    obtain ⟨hlength, hsize⟩ := length_stbiCreatePngImage hvalid hheader.img_x_pos
      hheader.img_y_pos hout
    have hlength' : (if z.has_trans then stbiComputeTransparency
        (if z.depth = 16 then 65535 else 255) (z.imgOutN 4) z.tc (z.img_x * z.img_y) out
        else out).length = z.imgOutN 4 * (z.img_x * z.img_y) := by
      split_ifs
      · exact length_stbiComputeTransparency hlength
      · exact length_stbiComputeTransparency hlength
      · exact hlength
    by_cases hpal : z.pal_img_n ≠ 0
    · rw [if_pos hpal] at h
      obtain ⟨out', hout', h⟩ := bind_ok.mp h
      cases h
      obtain ⟨hindex, -, htrans⟩ := hheader.palette hpal
      have hone : z.imgOutN 4 = 1 := by
        rw [PngLoad.imgOutN, hindex, htrans]
        rfl
      obtain ⟨hexpanded, hfits⟩ := length_stbiExpandPngPalette (.inr rfl)
        (hlength'.trans (by rw [hone, Nat.one_mul])) hout'
      exact ⟨hheader.img_x_pos, hheader.img_x_le, hheader.img_y_pos, hheader.img_y_le,
        Nat.succ_pos 3, le_rfl, hexpanded, fun _ => mad2_le (Nat.succ_pos 3) hfits⟩
    · rw [if_neg hpal] at h
      cases h
      refine ⟨hheader.img_x_pos, hheader.img_x_le, hheader.img_y_pos, hheader.img_y_le, hpos, hle,
        hlength', fun hfour => ?_⟩
      have hbytes : 0 < PngFormat.bytes ⟨z.img_n, z.imgOutN 4, z.depth, z.color⟩ := by
        rw [PngFormat.bytes]
        split_ifs <;> decide
      calc z.img_x * z.img_y * 4
          ≤ z.img_x * z.img_y * (z.imgOutN 4 *
              PngFormat.bytes ⟨z.img_n, z.imgOutN 4, z.depth, z.color⟩) := by
            refine Nat.mul_le_mul_left _ ?_
            change z.imgOutN 4 = 4 at hfour
            rw [hfour]
            exact Nat.le_mul_of_pos_right _ hbytes
        _ ≤ intMax := mad3_le (Nat.mul_pos hpos hbytes) hsize

/-- A chunk keeps what the ones before it said, and the last one makes the image. -/
lemma sane_chunkStep (hz : z.Sane) {next : PngOut ⊕ PngLoad}
    (h : chunkStep rounds garbage 4 z = .ok next) :
    (∀ p, next = .inl p → p.Whole) ∧ ∀ z', next = .inr z' → z'.Sane := by
  rcases h1 : stbiGet32be z.s with ⟨length, s1⟩
  rcases h2 : stbiGet32be s1 with ⟨type, s2⟩
  have hs : ∀ s, PngLoad.Sane { z with s := s } := fun s => hz.congr rfl rfl rfl rfl rfl rfl rfl
  simp only [chunkStep, h1, h2] at h
  split at h
  · cases hp : parseIEND rounds garbage 4 { z with s := s2 } with
    | error failure =>
      rw [hp] at h
      cases h
    | ok p =>
      rw [hp] at h
      cases h
      refine ⟨fun q hq => ?_, fun _ hno => (nomatch hno)⟩
      cases hq
      exact whole_parseIEND (hs s2) hp
  · cases hp : parseChunk { z with s := s2 } length type with
    | error failure =>
      rw [hp] at h
      cases h
    | ok z1 =>
      rw [hp] at h
      cases h
      refine ⟨fun _ hno => (nomatch hno), fun z' hz' => ?_⟩
      cases hz'
      exact (sane_parseChunk (hs s2) hp).congr rfl rfl rfl rfl rfl rfl rfl

lemma whole_parseChunks (n : Nat) (hz : z.Sane) (h : parseChunks rounds garbage 4 n z = .ok p) :
    p.Whole := by
  induction n generalizing z with
  | zero => cases h
  | succ n ih =>
    rw [parseChunks] at h
    obtain ⟨next, hnext, h⟩ := bind_ok.mp h
    obtain ⟨hlast, hmore⟩ := sane_chunkStep hz hnext
    cases next with
    | inl q =>
      cases h
      exact hlast p rfl
    | inr z' => exact ih (hmore z' rfl) h

/-- An image of four components. -/
structure StbiResult.Whole (ri : StbiResult) : Prop where
  x_pos : 0 < ri.x
  x_le : ri.x ≤ 2 ^ 24
  y_pos : 0 < ri.y
  y_le : ri.y ≤ 2 ^ 24
  length_eq : ri.samples.length = ri.x * ri.y * 4
  fits : ri.x * ri.y * 4 ≤ intMax

lemma whole_stbiParsePngFile {s : StbiContext} (h : stbiParsePngFile rounds garbage s 4 = .ok p) :
    p.Whole := by
  rcases hsig : stbiCheckPngHeader s with ⟨ok, s'⟩
  simp only [stbiParsePngFile, hsig, ite_error] at h
  exact whole_parseChunks _ (sane_start _ _) h.2

section

variable {data out : List Nat} {n x y : Nat}

lemma length_stbiConvertFormat (hn : 0 < n) (hn4 : n ≤ 4) (hne : 4 ≠ n) (hy : 0 < y)
    (hdata : data.length = n * (x * y)) (h : stbiConvertFormat data n 4 x y = .ok out) :
    out.length = x * y * 4 ∧ x * y * 4 ≤ intMax := by
  rw [stbiConvertFormat, if_neg hne, ite_error] at h
  obtain ⟨hsize, h⟩ := h
  cases h
  refine ⟨(length_mapPixels (fun p _ => length_convertPixel hn hn4 hne p) hdata.ge).trans
    (Nat.mul_comm _ _), ?_⟩
  calc x * y * 4 = 4 * x * y := by ring
    _ ≤ intMax := mad3_le hy (not_not.mp hsize)

lemma length_stbiConvertFormat16 (hn : 0 < n) (hn4 : n ≤ 4) (hne : 4 ≠ n)
    (hdata : data.length = n * (x * y)) (h : stbiConvertFormat16 data n 4 x y = .ok out) :
    out.length = x * y * 4 ∧ x * y * 4 ≤ intMax := by
  rw [stbiConvertFormat16, if_neg hne, ite_error] at h
  obtain ⟨hsize, h⟩ := h
  cases h
  refine ⟨(length_mapPixels (fun p _ => length_convertPixel hn hn4 hne p) hdata.ge).trans
    (Nat.mul_comm _ _), ?_⟩
  have hmax : intMax = 2 ^ 31 - 1 := rfl
  have hmul : 4 * x * y = x * y * 4 := by ring
  rw [hmul] at hsize
  omega

end

/-- Every PNG file that is accepted gives an image with four bytes or words for each pixel. -/
lemma whole_stbiDoPng {s : StbiContext} {ri : StbiResult}
    (h : stbiDoPng rounds garbage s 4 = .ok ri) : ri.Whole := by
  rw [stbiDoPng, if_neg (by decide)] at h
  obtain ⟨p, hp, h⟩ := bind_ok.mp h
  have hwhole := whole_stbiParsePngFile hp
  by_cases hfour : 4 = p.img_out_n
  · simp only [if_neg fun hand : (4 : Nat) ≠ 0 ∧ 4 ≠ p.img_out_n => hand.2 hfour] at h
    cases h
    refine ⟨hwhole.1, hwhole.2, hwhole.3, hwhole.4, ?_, hwhole.fits hfour.symm⟩
    exact hwhole.length_eq.trans (by rw [← hfour, Nat.mul_comm])
  · simp only [if_pos (⟨by decide, hfour⟩ : (4 : Nat) ≠ 0 ∧ 4 ≠ p.img_out_n)] at h
    generalize (if p.depth < 8 then 8 else p.depth) = bits at h
    split at h
    · obtain ⟨samples, hsamples, h⟩ := bind_ok.mp h
      cases h
      have hsize := length_stbiConvertFormat hwhole.img_out_n_pos hwhole.img_out_n_le hfour
        hwhole.img_y_pos hwhole.length_eq hsamples
      exact ⟨hwhole.1, hwhole.2, hwhole.3, hwhole.4, hsize.1, hsize.2⟩
    · obtain ⟨samples, hsamples, h⟩ := bind_ok.mp h
      cases h
      have hsize := length_stbiConvertFormat16 hwhole.img_out_n_pos hwhole.img_out_n_le hfour
        hwhole.length_eq hsamples
      exact ⟨hwhole.1, hwhole.2, hwhole.3, hwhole.4, hsize.1, hsize.2⟩

end

end GifTools
