import GifTools.Gif.Frame

/-!
# The end of the image data

Behind the code of the last pixel `GifWriteLzwImage` writes a clear code and the end code. The clear
code is as wide as the last data code, but a decoder learns a word with that code, and if the word
takes the last code of its width the decoder reads the clear code one bit wider than it was written.
Which images reach this depends on the number of words they are cut into (`WidthSettled`).
-/

namespace GifTools

open Lzw

/-- Behind the code of the `n`-th index come a clear code as wide as the decoder reads codes there,
the end code with 9 bits, and fewer than 8 zeros. -/
def Closes (n : Nat) (payload : List UInt8) : Prop :=
  let (d, rest) := Decoder.readUntil 8 n (Decoder.start 8) (Bits.byteBits payload)
  ∃ k < 8, rest = Bits.natBits d.width (clearCode 8) ++
    (Bits.natBits 9 (endCode 8) ++ List.replicate k false)

/-- The words the indices are cut into since the dictionary was last emptied, without the last one,
are not as many as the codes of 9, 10 or 11 bits have room for. -/
def WidthSettled (indices : List Nat) : Prop :=
  (phraseCount 8 indices - 1) % 3838 ∉ [254, 766, 1790]

instance (indices : List Nat) : Decidable (WidthSettled indices) :=
  inferInstanceAs (Decidable (_ ∉ _))

/-! ### When the widths agree -/

/-- The next code after `L` words is the first of a greater width. -/
lemma first_of_width_iff {L : Nat} (hL : L < 3838) :
    258 + L = 2 ^ (257 + L).size ↔ L ∈ [254, 766, 1790] := by
  simp only [List.mem_cons, List.not_mem_nil, or_false]
  constructor
  · intro h
    have hle : (257 + L).size ≤ 12 := Nat.size_le.mpr (by omega)
    have hlt : 8 < (257 + L).size := Nat.lt_size.mpr (by omega)
    generalize (257 + L).size = width at h hle hlt
    have : width = 9 ∨ width = 10 ∨ width = 11 ∨ width = 12 := by omega
    rcases this with rfl | rfl | rfl | rfl <;> omega
  · rintro (rfl | rfl | rfl) <;> decide

lemma width_eq_iff_widthSettled {indices : List Nat} (hne : indices ≠ []) :
    (lastDecoder 8 indices).width = (lastEncoder 8 indices).width 8 ↔ WidthSettled indices := by
  have hlen : (lastEncoder 8 indices).dict.length = (phraseCount 8 indices - 1) % 3838 :=
    length_dict_lastEncoder (by decide) hne
  have hlt : (phraseCount 8 indices - 1) % 3838 < 3838 := Nat.mod_lt _ (by decide)
  have hfirst := first_of_width_iff hlt
  rw [width_eq_iff, Encoder.width, lastCode, hlen]
  exact not_congr hfirst

/-- For data whose bits are those of the encoder. -/
lemma closes_iff {indices : List Nat} (hne : indices ≠ []) (hlt : ∀ x ∈ indices, x < 2 ^ 8)
    {payload : List UInt8} {k : Nat} (hk : k < 8)
    (hbits : Bits.byteBits payload = encode 8 indices ++ List.replicate k false) :
    Closes indices.length payload ↔ WidthSettled indices := by
  have hread := readUntil_encode (by decide) (by decide) hne hlt (List.replicate k false)
  rw [← width_eq_iff_widthSettled hne, Closes, hbits, hread]
  constructor
  · rintro ⟨k', -, hrest⟩
    exact width_eq_of_closing (by decide) hrest
  · intro hwidth
    refine ⟨k, hk, ?_⟩
    rw [closing, hwidth, List.append_assoc]

/-! ### Frames of the builder -/

/-- The data behind the header of the frame that was added closes as a decoder expects it. -/
def FrameCloses (builder : GifBuilderGIFH) (image : Image) (delay : Nat) (env : Uninit)
    (after : GifBuilderGIFH) : Prop :=
  let width := uint32 image.width
  let height := uint32 image.height
  ∃ pal data payload, framePalette builder.writer image.pixels width height env = .ok pal ∧
    after.vectorBuffer.contents = builder.vectorBuffer.contents ++
      (headerBytes width height (uint32 delay) pal ++ data) ∧
    subBlocks 0 data = some (payload, []) ∧ Closes (width * height) payload

section

variable {search : PaletteSearch} {builder after : GifBuilderGIFH} {image : Image} {delay : Nat}
  {env : Uninit} {pal : GifPalette} {canvas : List GifPixel}

lemma frameCloses_iff (hwidth : 0 < uint32 image.width) (hheight : 0 < uint32 image.height)
    (hframe : FrameMade search builder.writer image.pixels (uint32 image.width)
      (uint32 image.height) env pal canvas)
    (hbuffer : after.vectorBuffer = gifWriteLzwImage builder.vectorBuffer (bytesOf canvas) 0 0
      (uint32 image.width) (uint32 image.height) (uint32 delay) pal env.chunk) :
    FrameCloses builder image delay env after ↔ WidthSettled
      ((rowIndices (bytesOf canvas) (uint32 image.width) (uint32 image.height)).map
        UInt8.toNat) := by
  obtain ⟨blocks, hblocks, hcontents, k, hk, hbits⟩ := contents_gifWriteLzwImage
    builder.vectorBuffer (bytesOf canvas) (uint32 delay) hwidth hheight hframe.bitDepth env.chunk
  rw [← hbuffer] at hcontents
  have hpayload := subBlocks_blocks hblocks []
  have hne := rowIndices_ne_nil (bytesOf canvas) hwidth hheight
  have hcloses := closes_iff (by simpa using hne) (toNat_lt_of_mem _) hk hbits
  rw [List.length_map, length_rowIndices] at hcloses
  rw [← hcloses]
  constructor
  · rintro ⟨pal', data, payload, hpal, hcontents', hdata, h⟩
    obtain rfl := Except.ok.inj (hframe.palette.symm.trans hpal)
    have heq := hcontents.symm.trans hcontents'
    rw [List.append_cancel_left_eq, List.append_cancel_left_eq] at heq
    rw [← heq, hpayload] at hdata
    cases hdata
    exact h
  · exact fun h => ⟨_, _, _, hframe.palette, hcontents, hpayload, h⟩

/-- The data of a frame closes as a decoder expects it exactly if the widths agree for the pixel
indices that `GifThresholdImage` leaves. -/
theorem gifBuilderAddImage_closes_iff (hwidth : 0 < uint32 image.width)
    (hheight : 0 < uint32 image.height)
    (h : gifBuilderAddImage search builder (some image) delay env = .ok (true, after)) :
    ∃ pal canvas, FrameMade search builder.writer image.pixels (uint32 image.width)
        (uint32 image.height) env pal canvas ∧
      (FrameCloses builder image delay env after ↔ WidthSettled
        ((rowIndices (bytesOf canvas) (uint32 image.width) (uint32 image.height)).map
          UInt8.toNat)) := by
  obtain ⟨hstream, hdelay, hformat⟩ := gifBuilderAddImage_true h
  obtain ⟨pal, canvas, hframe, heq⟩ := (gifBuilderAddImage_ok hstream hdelay hformat).mp h
  cases heq
  exact ⟨pal, canvas, hframe, frameCloses_iff hwidth hheight hframe rfl⟩

end

/-! ### A first frame of one colour -/

/-- All pixels the same. -/
def uniformImage (width height : Nat) (p : GifPixel) : Image :=
  ⟨.r8g8b8a8Unorm, width, height, List.replicate (width * height) p⟩

/-- As the first frame it is accepted and gets one index for all pixels, so its data closes as
expected or not depending on their number alone. -/
lemma gifBuilderAddImage_uniformImage {search : PaletteSearch} {width height : Nat}
    (hwidth : 0 < width) (hheight : 0 < height) (hsize : 127 * (width * height) < 2 ^ 31)
    (garbage : Pixels) (p : GifPixel) (env : Uninit) :
    ∃ after, gifBuilderAddImage search (gifBuilderInitialize garbage width height 10)
        (some (uniformImage width height p)) 10 env = .ok (true, after) ∧
      ∃ x, FrameCloses (gifBuilderInitialize garbage width height 10) (uniformImage width height p)
        10 env after ↔ WidthSettled (List.replicate (width * height) x) := by
  have hw := Nat.le_mul_of_pos_right width hheight
  have hh := Nat.le_mul_of_pos_left height hwidth
  have hw' : uint32 (uniformImage width height p).width = width := uint32_of_lt (by
    change width < _
    omega)
  have hh' : uint32 (uniformImage width height p).height = height := uint32_of_lt (by
    change height < _
    omega)
  have hlength : (uniformImage width height p).pixels.length = width * height :=
    List.length_replicate
  rw [gifBuilderInitialize_eq garbage hwidth hheight (by omega)]
  generalize hb : GifBuilderGIFH.mk ⟨true, (List.range (width * height)).map garbage, true⟩
    ⟨screenBytes width height (uint32 10)⟩ = builder
  obtain ⟨hpos, hle⟩ : 0 ≤ changedPixels builder.writer.lastFrame
        (pixelsOf (uniformImage width height p).pixels) width height ∧
      changedPixels builder.writer.lastFrame (pixelsOf (uniformImage width height p).pixels) width
        height ≤ (width * height : Nat) := changedPixels_le (by omega)
  obtain ⟨_, assign, -, hmade⟩ := exists_gifMakePalette hpos (by omega)
  have hframe : FrameMade search builder.writer (uniformImage width height p).pixels
      (uint32 (uniformImage width height p).width) (uint32 (uniformImage width height p).height)
      env (madePalette assign env.pal) (List.replicate (width * height) (thresholdPixel search
        (madePalette assign env.pal) env.beyond none p)) := by
    rw [hw', hh']
    constructor
    · rw [framePalette_eq (by rw [uint32_of_lt (by omega), hlength]), hmade]
    · rw [uint32_of_lt (by omega), ← hb]
      exact (gifThresholdImage_first hlength (by simp)).trans
        (congrArg Except.ok List.map_replicate)
  generalize thresholdPixel search _ env.beyond none p = q at hframe
  have hadd := (gifBuilderAddImage_ok (by rw [← hb]) (by decide : 10 ≠ 0) rfl).mpr
    ⟨_, _, hframe, rfl⟩
  refine ⟨_, hadd, q.a.toNat, ?_⟩
  rw [frameCloses_iff (hwidth.trans_eq hw'.symm) (hheight.trans_eq hh'.symm) hframe rfl, hw', hh',
    rowIndices_bytesOf List.length_replicate (by omega), List.map_replicate, List.map_replicate]

/-- A frame of 424 words: the codes get wider once. -/
theorem gifBuilderAddImage_closes_iff_uniformImage :
    ∃ after, gifBuilderAddImage closestIndex (gifBuilderInitialize (fun _ => default) 300 300 10)
        (some (uniformImage 300 300 ⟨1, 2, 3, 255⟩)) 10 default = .ok (true, after) ∧
      ∃ pal canvas, FrameMade closestIndex
          (gifBuilderInitialize (fun _ => default) 300 300 10).writer
          (uniformImage 300 300 ⟨1, 2, 3, 255⟩).pixels 300 300 default pal canvas ∧
        (FrameCloses (gifBuilderInitialize (fun _ => default) 300 300 10)
            (uniformImage 300 300 ⟨1, 2, 3, 255⟩) 10 default after ↔
          WidthSettled ((rowIndices (bytesOf canvas) 300 300).map UInt8.toNat)) := by
  obtain ⟨after, hadd, -⟩ := gifBuilderAddImage_uniformImage (Nat.zero_lt_succ 299)
    (Nat.zero_lt_succ 299) (by decide) (fun _ => default) ⟨1, 2, 3, 255⟩ default
  exact ⟨after, hadd, gifBuilderAddImage_closes_iff (by decide) (by decide) hadd⟩

/-- A first frame of 180 x 180 pixels of one colour is cut into 255 words. -/
theorem not_frameCloses_uniformImage :
    ∃ after, gifBuilderAddImage closestIndex (gifBuilderInitialize (fun _ => default) 180 180 10)
        (some (uniformImage 180 180 ⟨1, 2, 3, 255⟩)) 10 default = .ok (true, after) ∧
      ¬ FrameCloses (gifBuilderInitialize (fun _ => default) 180 180 10)
        (uniformImage 180 180 ⟨1, 2, 3, 255⟩) 10 default after := by
  obtain ⟨after, hadd, x, hcloses⟩ := gifBuilderAddImage_uniformImage
    (Nat.zero_lt_succ 179) (Nat.zero_lt_succ 179) (by decide) (fun _ => default) ⟨1, 2, 3, 255⟩
    default
  -- 1 + 2 + ... + 254 + 15 pixels
  have hcount : phraseCount 8 (List.replicate (180 * 180) x) = 255 :=
    phraseCount_replicate (n := 254) (k := 14) (by decide) (by decide) x
  refine ⟨after, hadd, fun h => hcloses.mp h ?_⟩
  rw [hcount]
  decide

end GifTools
