import GifTools.Gif.Builder
import GifTools.Gif.Format
import GifTools.Gif.Split

/-!
# What a frame looks like in the file

The bytes of the header and of one frame, and that the parsers read them back: a frame of the size
of the canvas whose indices are the alpha bytes `GifThresholdImage` left there, with a colour table
that gives the opaque ones the colours that are displayed.
-/

namespace GifTools

open Lzw

/-! ### Bytes written -/

section

variable (buffer : GifVectorFileBuffer)

@[simp] lemma contents_putc (c : Nat) :
    (buffer.putc c).contents = buffer.contents ++ [UInt8.ofNat c] := rfl

@[simp] lemma contents_puts (sv : String) :
    (buffer.puts sv).contents = buffer.contents ++ asciiBytes sv := rfl

/-- The colours of the local table: black for the transparent index, then those of the palette. -/
def paletteTable (pPal : GifPalette) : List Rgb :=
  (0, 0, 0) :: (List.range' 1 (2 ^ pPal.bitDepth - 1)).map fun ii =>
    (pPal.r ii, pPal.g ii, pPal.b ii)

@[simp] lemma length_paletteTable (pPal : GifPalette) :
    (paletteTable pPal).length = 2 ^ pPal.bitDepth := by
  have := Nat.two_pow_pos pPal.bitDepth
  rw [paletteTable, List.length_cons, List.length_map, List.length_range']
  omega

lemma getElem?_paletteTable {pPal : GifPalette} {ind : Nat} (h0 : ind ≠ 0)
    (h : ind < 2 ^ pPal.bitDepth) :
    (paletteTable pPal)[ind]? = some (pPal.r ind, pPal.g ind, pPal.b ind) := by
  obtain ⟨k, rfl⟩ := Nat.exists_eq_succ_of_ne_zero h0
  rw [paletteTable, List.getElem?_cons_succ, List.getElem?_map,
    List.getElem?_eq_getElem (by rw [List.length_range']; omega), List.getElem_range',
    Option.map_some, Nat.one_mul, Nat.add_comm]

lemma contents_gifWritePalette (pPal : GifPalette) :
    (gifWritePalette pPal buffer).contents =
      buffer.contents ++ tableBytes (paletteTable pPal) := by
  have hfold (ks : List Nat) (buffer : GifVectorFileBuffer) :
      (ks.foldl (fun buffer ii =>
        ((buffer.putc (pPal.r ii).toNat).putc (pPal.g ii).toNat).putc (pPal.b ii).toNat)
          buffer).contents =
        buffer.contents ++ tableBytes (ks.map fun ii => (pPal.r ii, pPal.g ii, pPal.b ii)) := by
    induction ks generalizing buffer with
    | nil => simp [tableBytes]
    | cons ii ks ih =>
      rw [List.foldl_cons, ih]
      simp [tableBytes]
  rw [gifWritePalette, hfold]
  simp [paletteTable, tableBytes]

/-- The bytes of a frame up to its minimum code size. -/
def headerBytes (width height delay : Nat) (pPal : GifPalette) : List UInt8 :=
  [0x21, 0xf9, 0x04] ++ (5 :: (wordBytes delay ++ (0 :: ([0, 0x2c] ++ (wordBytes 0 ++
    (wordBytes 0 ++ (wordBytes width ++ (wordBytes height ++ (0x87 ::
      (tableBytes (paletteTable pPal) ++ [8]))))))))))

lemma contents_gifWriteImageHeader (width height delay : Nat) {pPal : GifPalette}
    (hdepth : pPal.bitDepth = 8) :
    (gifWriteImageHeader buffer 0 0 width height delay pPal).contents =
      buffer.contents ++ headerBytes width height delay pPal := by
  simp only [gifWriteImageHeader, contents_putc, contents_gifWritePalette, hdepth, headerBytes,
    wordBytes, List.append_assoc, List.cons_append, List.nil_append]
  rfl

/-- The bytes in front of the frames. -/
def screenBytes (width height delay : Nat) : List UInt8 :=
  asciiBytes "GIF89a" ++ (wordBytes width ++ (wordBytes height ++
    (0xf0 :: ([0, 0] ++ (tableBytes [(0, 0, 0), (0, 0, 0)] ++
      if delay ≠ 0 then netscapeExtension else [])))))

lemma contents_gifBegin (garbage : Pixels) (width height delay : Nat) :
    (gifBegin ⟨[]⟩ garbage width height delay).2.contents = screenBytes width height delay := by
  by_cases hdelay : delay = 0
  · simp only [gifBegin, hdelay, screenBytes, contents_putc, contents_puts, wordBytes, ne_eq,
      not_true_eq_false, if_false, List.nil_append, List.append_assoc]
    rfl
  · simp only [gifBegin, screenBytes, contents_putc, contents_puts, wordBytes, ne_eq, hdelay,
      not_false_eq_true, if_true, List.nil_append, List.append_assoc]
    rfl

end

/-- The builder before the first call. -/
lemma gifBuilderInitialize_eq (garbage : Pixels) {width height : Nat} (hwidth : 0 < width)
    (hheight : 0 < height) (hsize : 4 * (width * height) < 2 ^ 32) (delay : Nat) :
    gifBuilderInitialize garbage width height delay =
      ⟨⟨true, (List.range (width * height)).map garbage, true⟩,
        ⟨screenBytes width height (uint32 delay)⟩⟩ := by
  have hw := Nat.le_mul_of_pos_right width hheight
  have hh := Nat.le_mul_of_pos_left height hwidth
  have hn : uint32 (width * height * 4) / 4 = width * height := by
    rw [uint32_of_lt (by omega), Nat.mul_div_cancel _ (by decide)]
  rw [gifBuilderInitialize, uint32_of_lt (by omega : width < 2 ^ 32),
    uint32_of_lt (by omega : height < 2 ^ 32), ← contents_gifBegin garbage, ← hn]
  rfl

/-! ### The frame a call writes -/

section

/-- What `GifWriteFrame` makes: the local palette, and what `GifThresholdImage` leaves in
`oldImage`. -/
structure FrameMade (search : PaletteSearch) (writer : GifWriter) (image : List GifPixel)
    (width height : Nat) (env : Uninit) (pal : GifPalette) (canvas : List GifPixel) : Prop where
  palette : framePalette writer image width height env = .ok pal
  canvas : gifThresholdImage search pal env.beyond (!writer.firstFrame) (uint32 (width * height))
    image writer.oldImage = .ok canvas

variable {search : PaletteSearch} {writer : GifWriter} {image : List GifPixel}
  {width height delay : Nat} {env : Uninit} {buffer : GifVectorFileBuffer} {pal : GifPalette}
  {canvas : List GifPixel}

lemma framePalette_ok (h : framePalette writer image width height env = .ok pal) :
    gifMakePalette writer.lastFrame (pixelsOf image) width height 8 env.pal = .ok pal := by
  rw [framePalette] at h
  split at h
  · cases h
  · exact h

/-- The image has as many pixels as are copied. -/
lemma framePalette_eq (himage : uint32 (width * height) ≤ image.length) :
    framePalette writer image width height env =
      gifMakePalette writer.lastFrame (pixelsOf image) width height 8 env.pal := by
  have hcopy : copyBytes width height ≤ 4 * uint32 (width * height) := by
    rw [copyBytes, uint32, uint32]
    omega
  exact if_neg (by omega)

lemma FrameMade.bitDepth (h : FrameMade search writer image width height env pal canvas) :
    pal.bitDepth = 8 :=
  gifMakePalette_bitDepth (framePalette_ok h.palette)

lemma gifWriteFrame_ok (hstream : writer.stream = true)
    {r : Bool × GifWriter × GifVectorFileBuffer} :
    gifWriteFrame search writer buffer image width height delay env = .ok r ↔
      ∃ pal canvas, FrameMade search writer image width height env pal canvas ∧
        r = (true, { writer with firstFrame := false, oldImage := canvas },
          gifWriteLzwImage buffer (bytesOf canvas) 0 0 width height delay pal env.chunk) := by
  rw [gifWriteFrame, if_neg (by simp [hstream]), Runs.bind_ok]
  constructor
  · rintro ⟨pal, hpal, h⟩
    obtain ⟨canvas, hcanvas, h⟩ := Runs.bind_ok.mp h
    cases h
    exact ⟨pal, canvas, ⟨hpal, hcanvas⟩, rfl⟩
  · rintro ⟨pal, canvas, ⟨hpal, hcanvas⟩, rfl⟩
    exact ⟨pal, hpal, Runs.bind_ok.mpr ⟨canvas, hcanvas, rfl⟩⟩

end

/-! ### The frame `AddImage` adds -/

section

variable {search : PaletteSearch} {builder after : GifBuilderGIFH} {image : Image} {delay : Nat}
  {env : Uninit}

lemma gifBuilderAddImage_eq (hdelay : delay ≠ 0) (hformat : image.format = .r8g8b8a8Unorm) :
    gifBuilderAddImage search builder (some image) delay env = do
      let (result, writer, vectorBuffer) ← gifWriteFrame search builder.writer
        builder.vectorBuffer image.pixels (uint32 image.width) (uint32 image.height)
        (uint32 delay) env
      return (result, ⟨writer, vectorBuffer⟩) := by
  rw [gifBuilderAddImage, if_neg hdelay, if_neg (not_not.mpr hformat)]

/-- A call that does not refuse the image returns if a frame is made. -/
lemma gifBuilderAddImage_ok (hstream : builder.writer.stream = true) (hdelay : delay ≠ 0)
    (hformat : image.format = .r8g8b8a8Unorm) {r : Bool × GifBuilderGIFH} :
    gifBuilderAddImage search builder (some image) delay env = .ok r ↔
      ∃ pal canvas, FrameMade search builder.writer image.pixels (uint32 image.width)
          (uint32 image.height) env pal canvas ∧
        r = (true, ⟨⟨true, canvas, false⟩,
          gifWriteLzwImage builder.vectorBuffer (bytesOf canvas) 0 0 (uint32 image.width)
            (uint32 image.height) (uint32 delay) pal env.chunk⟩) := by
  rw [gifBuilderAddImage_eq hdelay hformat, Runs.bind_ok]
  constructor
  · rintro ⟨⟨result, writer, vectorBuffer⟩, hwrite, h⟩
    obtain ⟨pal, canvas, hframe, heq⟩ := (gifWriteFrame_ok hstream).mp hwrite
    cases heq
    cases h
    exact ⟨pal, canvas, hframe, by rw [hstream]⟩
  · rintro ⟨pal, canvas, hframe, rfl⟩
    refine ⟨_, (gifWriteFrame_ok hstream).mpr ⟨pal, canvas, hframe, rfl⟩, ?_⟩
    rw [hstream]
    rfl

lemma gifBuilderAddImage_refused {imageObj : Option Image}
    (h : builder.writer.stream = false ∨ delay = 0 ∨
      ¬ ∃ image ∈ imageObj, image.format = .r8g8b8a8Unorm) :
    gifBuilderAddImage search builder imageObj delay env = .ok (false, builder) := by
  cases imageObj with
  | none => rfl
  | some image =>
    rw [gifBuilderAddImage]
    by_cases hdelay : delay = 0
    · rw [if_pos hdelay]
    · rw [if_neg hdelay]
      by_cases hformat : image.format = .r8g8b8a8Unorm
      · rw [if_neg (not_not.mpr hformat), gifWriteFrame]
        have hstream : builder.writer.stream = false := by
          rcases h with h | h | h
          · exact h
          · exact absurd h hdelay
          · exact absurd ⟨image, rfl, hformat⟩ h
        rw [hstream]
        rfl
      · rw [if_pos hformat]

/-- A call that writes a frame. -/
lemma gifBuilderAddImage_true
    (h : gifBuilderAddImage search builder (some image) delay env = .ok (true, after)) :
    builder.writer.stream = true ∧ delay ≠ 0 ∧ image.format = .r8g8b8a8Unorm := by
  by_contra hnot
  rw [gifBuilderAddImage_refused] at h
  · cases h
  · by_cases hstream : builder.writer.stream = true
    · by_cases hdelay : delay = 0
      · exact .inr (.inl hdelay)
      · refine .inr (.inr ?_)
        rintro ⟨image', himage, hformat⟩
        cases himage
        exact hnot ⟨hstream, hdelay, hformat⟩
    · exact .inl (Bool.not_eq_true _ ▸ hstream)

end

/-- The bytes of a frame: its header, and sub-blocks with the bits of the encoder. -/
lemma contents_gifWriteLzwImage (buffer : GifVectorFileBuffer) (image : Nat → UInt8) (delay : Nat)
    {width height : Nat} (hwidth : 0 < width) (hheight : 0 < height) {pPal : GifPalette}
    (hdepth : pPal.bitDepth = 8) (chunk : Nat → UInt8) :
    ∃ blocks : List (List UInt8), (∀ bytes ∈ blocks, bytes ≠ [] ∧ bytes.length ≤ 255) ∧
      (gifWriteLzwImage buffer image 0 0 width height delay pPal chunk).contents =
        buffer.contents ++
          (headerBytes width height delay pPal ++ (blocks.flatMap block ++ [0])) ∧
      ∃ k < 8, Bits.byteBits blocks.flatten =
        encode 8 ((rowIndices image width height).map UInt8.toNat) ++ List.replicate k false := by
  obtain ⟨blocks, hblocks, hcontents, hbits⟩ := writes_encode (by decide) (by decide)
    (gifWriteImageHeader buffer 0 0 width height delay pPal)
    (rowIndices_ne_nil image hwidth hheight) (fun x _ => x.toNat_lt) chunk
  refine ⟨blocks, hblocks, ?_, hbits⟩
  rw [gifWriteLzwImage, hdepth, hcontents, contents_gifWriteImageHeader buffer _ _ _ hdepth,
    List.append_assoc]

/-! ### Thresholding a frame -/

/-- With a pixel for each of the image and of the canvas, no access is out of bounds. -/
lemma gifThresholdImage_ok {search : PaletteSearch} {pPal : GifPalette} {beyond : Nat → Int}
    {hasLast : Bool} {n : Nat} {nextFrame outFrame : List GifPixel} (hnext : nextFrame.length = n)
    (hout : outFrame.length = n) :
    gifThresholdImage search pPal beyond hasLast n nextFrame outFrame =
      .ok (List.zipWith (fun next out =>
        thresholdPixel search pPal beyond (if hasLast then some out else none) next)
          nextFrame outFrame) := by
  induction n generalizing nextFrame outFrame with
  | zero =>
    obtain rfl := List.length_eq_zero_iff.mp hnext
    obtain rfl := List.length_eq_zero_iff.mp hout
    rfl
  | succ n ih =>
    obtain ⟨next, nextFrame, rfl⟩ := List.exists_cons_of_length_eq_add_one hnext
    obtain ⟨out, outFrame, rfl⟩ := List.exists_cons_of_length_eq_add_one hout
    rw [gifThresholdImage, ih (Nat.succ.inj hnext) (Nat.succ.inj hout)]
    rfl

/-- In a first frame the canvas plays no role. -/
lemma gifThresholdImage_first {search : PaletteSearch} {pPal : GifPalette}
    {beyond : Nat → Int} {n : Nat} {nextFrame outFrame : List GifPixel}
    (hnext : nextFrame.length = n) (hout : outFrame.length = n) :
    gifThresholdImage search pPal beyond false n nextFrame outFrame =
      .ok (nextFrame.map (thresholdPixel search pPal beyond none)) := by
  rw [gifThresholdImage_ok hnext hout]
  apply congrArg Except.ok
  apply List.ext_getElem
  · simp [hnext, hout]
  · intro i hi hi'
    simp

/-- The pixel indices of a canvas are its alpha bytes. -/
lemma rowIndices_bytesOf {canvas : List GifPixel} {width height : Nat}
    (hlen : canvas.length = width * height) (h : 4 * (width * height) ≤ 2 ^ 32) :
    rowIndices (bytesOf canvas) width height = canvas.map GifPixel.a := by
  rw [rowIndices_eq h, ← hlen]
  apply List.ext_getElem (by simp)
  intro i hi hi'
  have hlt : i < canvas.length := by simpa using hi'
  rw [List.getElem_map, List.getElem_map, List.getElem_range, bytesOf,
    show (4 * i + 3) / 4 = i by omega, show (4 * i + 3) % 4 = 3 by omega, pixelsOf,
    List.getD_eq_getElem?_getD, List.getElem?_eq_getElem hlt]
  rfl

/-! ### Frames read back -/

/-- A frame of the file with the given extents in its descriptor: its indices are the alpha bytes of
the canvas, and the opaque ones stand for the colours there. -/
structure FrameOf (width height delay : Nat) (canvas : List GifPixel) (frame : GifFrame) :
    Prop where
  disposal : frame.disposal = 1
  transparent : frame.transparent = some 0
  delay : frame.delay = delay
  corner : frame.left = 0 ∧ frame.top = 0
  size : frame.width = width ∧ frame.height = height
  table : frame.localTable.length = 256
  minCodeSize : frame.minCodeSize = 8
  indices : (decode 8 (Bits.byteBits frame.data)).take canvas.length =
    canvas.map fun p => p.a.toNat
  colors : ∀ p ∈ canvas, p.a ≠ 0 → frame.localTable[p.a.toNat]? = some p.rgb

/-- Bytes that are parsed as the frame, whatever follows them. -/
structure Parses (frame : GifFrame) (bytes : List UInt8) : Prop where
  parse : ∀ rest, parseFrame (bytes ++ rest) = some (frame, rest)
  head : ∃ tail, bytes = 0x21 :: 0xf9 :: tail

lemma parses_frame (width height delay : Nat) {pPal : GifPalette} (hdepth : pPal.bitDepth = 8)
    {blocks : List (List UInt8)} (hblocks : ∀ bytes ∈ blocks, bytes ≠ [] ∧ bytes.length ≤ 255) :
    Parses ⟨1, some 0, delay % 2 ^ 16, 0, 0, width % 2 ^ 16, height % 2 ^ 16, paletteTable pPal, 8,
        blocks.flatten⟩
      (headerBytes width height delay pPal ++ (blocks.flatMap block ++ [0])) where
  parse rest := by
    have htable : parseTable 256 (tableBytes (paletteTable pPal) ++
        (8 :: (blocks.flatMap block ++ 0 :: rest))) =
          some (paletteTable pPal, 8 :: (blocks.flatMap block ++ 0 :: rest)) := by
      have h := parseTable_tableBytes (paletteTable pPal) (8 :: (blocks.flatMap block ++ 0 :: rest))
      rwa [length_paletteTable, hdepth] at h
    have hbytes : headerBytes width height delay pPal ++ (blocks.flatMap block ++ [0]) ++ rest =
        [0x21, 0xf9, 0x04] ++ (5 :: (wordBytes delay ++ (0 :: ([0, 0x2c] ++ (wordBytes 0 ++
          (wordBytes 0 ++ (wordBytes width ++ (wordBytes height ++ (0x87 ::
            (tableBytes (paletteTable pPal) ++
              (8 :: (blocks.flatMap block ++ 0 :: rest)))))))))))) := by
      simp [headerBytes]
    rw [hbytes]
    apply parse_bind (expect_append _ _)
    apply parse_bind (parseByte_cons _ _)
    apply parse_bind (parseWord_wordBytes delay _)
    apply parse_bind (parseByte_cons _ _)
    apply parse_bind (expect_append _ _)
    apply parse_bind (parseWord_wordBytes 0 _)
    apply parse_bind (parseWord_wordBytes 0 _)
    apply parse_bind (parseWord_wordBytes width _)
    apply parse_bind (parseWord_wordBytes height _)
    apply parse_bind (parseByte_cons _ _)
    apply parse_bind (show tableSize 0x87 = some 256 from rfl)
    apply parse_bind htable
    apply parse_bind (parseByte_cons _ _)
    exact parse_bind (subBlocks_blocks hblocks rest) rfl
  head := ⟨_, rfl⟩

/-! ### Pixels of a frame -/

section

variable {search : PaletteSearch} {pPal : GifPalette} {beyond : Nat → Int}
  {lastFrame : Option GifPixel} {nextFrame : GifPixel}

/-- A pixel is transparent exactly if its colour is the displayed one. -/
lemma thresholdPixel_transparent_iff (hsearch : search.InRange) (hdepth : pPal.bitDepth = 8) :
    (thresholdPixel search pPal beyond lastFrame nextFrame).a = 0 ↔
      ∃ last, lastFrame = some last ∧ last.rgb = nextFrame.rgb := by
  have hopaque : UInt8.ofNat (search pPal beyond nextFrame) ≠ 0 := by
    obtain ⟨hne, hlt⟩ := hsearch pPal beyond nextFrame hdepth
    intro h
    have := congrArg UInt8.toNat h
    rw [UInt8.toNat_ofNat', Nat.mod_eq_of_lt hlt] at this
    exact hne this
  cases lastFrame with
  | none => simpa [thresholdPixel] using hopaque
  | some last =>
    by_cases hrgb : last.rgb = nextFrame.rgb
    · simp [thresholdPixel, hrgb, kGifTransIndex]
    · simpa [thresholdPixel, hrgb] using hopaque

/-- A transparent pixel has the colour it should have. -/
lemma thresholdPixel_rgb {last : GifPixel} (h : last.rgb = nextFrame.rgb) :
    (thresholdPixel search pPal beyond (some last) nextFrame).rgb = nextFrame.rgb := by
  rw [thresholdPixel]
  simp only [if_pos h]
  exact h

/-- The other pixels have the colour of their index. -/
lemma thresholdPixel_color (hsearch : search.InRange) (hdepth : pPal.bitDepth = 8)
    (h : (thresholdPixel search pPal beyond lastFrame nextFrame).a ≠ 0) :
    (paletteTable pPal)[(thresholdPixel search pPal beyond lastFrame nextFrame).a.toNat]? =
      some (thresholdPixel search pPal beyond lastFrame nextFrame).rgb := by
  obtain ⟨hne, hlt⟩ := hsearch pPal beyond nextFrame hdepth
  have hcolor : (paletteTable pPal)[(UInt8.ofNat (search pPal beyond nextFrame)).toNat]? =
      some (pPal.r (search pPal beyond nextFrame), pPal.g (search pPal beyond nextFrame),
        pPal.b (search pPal beyond nextFrame)) := by
    rw [UInt8.toNat_ofNat', Nat.mod_eq_of_lt hlt]
    exact getElem?_paletteTable hne (by rwa [hdepth])
  cases lastFrame with
  | none => exact hcolor
  | some last =>
    by_cases hrgb : last.rgb = nextFrame.rgb
    · exact absurd ((thresholdPixel_transparent_iff hsearch hdepth).mpr ⟨last, rfl, hrgb⟩) h
    · rw [show thresholdPixel search pPal beyond (some last) nextFrame = _ from if_neg hrgb]
      exact hcolor

end

/-! ### An accepted image -/

/-- What is written for a canvas whose opaque pixels have the colours of their indices. -/
lemma gifWriteLzwImage_frame (buffer : GifVectorFileBuffer) {canvas : List GifPixel}
    {width height : Nat} (hwidth : 0 < width) (hheight : 0 < height) (delay : Nat)
    (hsize : 4 * (width * height) < 2 ^ 32) (hlen : canvas.length = width * height)
    {pPal : GifPalette} (hdepth : pPal.bitDepth = 8)
    (hcolor : ∀ p ∈ canvas, p.a ≠ 0 → (paletteTable pPal)[p.a.toNat]? = some p.rgb)
    (chunk : Nat → UInt8) :
    ∃ frame bytes,
      (gifWriteLzwImage buffer (bytesOf canvas) 0 0 width height delay pPal chunk).contents =
        buffer.contents ++ bytes ∧
      Parses frame bytes ∧
      FrameOf (width % 2 ^ 16) (height % 2 ^ 16) (delay % 2 ^ 16) canvas frame := by
  obtain ⟨blocks, hblocks, hcontents, k, -, hbits⟩ :=
    contents_gifWriteLzwImage buffer (bytesOf canvas) delay hwidth hheight hdepth chunk
  have hne := rowIndices_ne_nil (bytesOf canvas) hwidth hheight
  rw [rowIndices_bytesOf hlen hsize.le] at hbits hne
  have hne' : (canvas.map GifPixel.a).map UInt8.toNat ≠ [] := by simpa using hne
  have htake := take_decode_encode (by decide) (by decide) hne' (toNat_lt_of_mem _)
    (List.replicate k false)
  rw [← hbits, List.length_map, List.length_map, List.map_map] at htake
  have htable : (paletteTable pPal).length = 256 := by
    rw [length_paletteTable, hdepth]
    rfl
  exact ⟨_, _, hcontents, parses_frame width height delay hdepth hblocks,
    ⟨rfl, rfl, rfl, ⟨rfl, rfl⟩, ⟨rfl, rfl⟩, htable, rfl, htake, hcolor⟩⟩

/-- The bytes of an accepted image are a frame of the file, and what is in `oldImage` then is the
canvas of that frame. -/
theorem gifBuilderAddImage_accepted {search : PaletteSearch} (hsearch : search.InRange)
    {builder : GifBuilderGIFH} {image : Image} {delay : Nat}
    (hstream : builder.writer.stream = true) (hdelay : delay ≠ 0)
    (hformat : image.format = .r8g8b8a8Unorm) (hwidth : 0 < image.width)
    (hheight : 0 < image.height) (hsize : 127 * (image.width * image.height) < 2 ^ 31)
    (himage : image.pixels.length = image.width * image.height)
    (hold : builder.writer.oldImage.length = image.width * image.height) (env : Uninit) :
    ∃ pPal canvas frame bytes, pPal.bitDepth = 8 ∧
      canvas = List.zipWith (fun next out => thresholdPixel search pPal env.beyond
        (if !builder.writer.firstFrame then some out else none) next)
          image.pixels builder.writer.oldImage ∧
      gifBuilderAddImage search builder (some image) delay env =
        .ok (true, ⟨⟨true, canvas, false⟩, ⟨builder.vectorBuffer.contents ++ bytes⟩⟩) ∧
      Parses frame bytes ∧
      FrameOf (image.width % 2 ^ 16) (image.height % 2 ^ 16) (delay % 2 ^ 16) canvas frame := by
  have hw := Nat.le_mul_of_pos_right image.width hheight
  have hh := Nat.le_mul_of_pos_left image.height hwidth
  have hw' : uint32 image.width = image.width := uint32_of_lt (by omega)
  have hh' : uint32 image.height = image.height := uint32_of_lt (by omega)
  have hn : uint32 (image.width * image.height) = image.width * image.height :=
    uint32_of_lt (by omega)
  obtain ⟨hpos, hle⟩ : 0 ≤ changedPixels builder.writer.lastFrame (pixelsOf image.pixels)
        image.width image.height ∧
      changedPixels builder.writer.lastFrame (pixelsOf image.pixels) image.width image.height ≤
        (image.width * image.height : Nat) := changedPixels_le (by omega)
  obtain ⟨_, _, -, hmade⟩ := exists_gifMakePalette hpos (by omega)
  obtain ⟨pPal, hpal⟩ : ∃ pPal, framePalette builder.writer image.pixels image.width image.height
      env = .ok pPal := ⟨_, (framePalette_eq (by omega)).trans (hmade env.pal)⟩
  have hdepth : pPal.bitDepth = 8 := gifMakePalette_bitDepth (framePalette_ok hpal)
  have hcanvas : gifThresholdImage search pPal env.beyond (!builder.writer.firstFrame)
      (uint32 (image.width * image.height)) image.pixels builder.writer.oldImage =
        .ok (List.zipWith (fun next out => thresholdPixel search pPal env.beyond
          (if !builder.writer.firstFrame then some out else none) next)
            image.pixels builder.writer.oldImage) := by
    rw [hn, gifThresholdImage_ok himage hold]
  generalize hzip : List.zipWith _ image.pixels builder.writer.oldImage = canvas at hcanvas
  have hlen : canvas.length = image.width * image.height := by
    rw [← hzip, List.length_zipWith, himage, hold, Nat.min_self]
  have hcolor : ∀ p ∈ canvas, p.a ≠ 0 → (paletteTable pPal)[p.a.toNat]? = some p.rgb := by
    intro p hp
    rw [← hzip, List.mem_iff_getElem] at hp
    obtain ⟨i, hi, rfl⟩ := hp
    rw [List.getElem_zipWith]
    exact thresholdPixel_color hsearch hdepth
  obtain ⟨frame, bytes, hcontents, hparses, hframe⟩ := gifWriteLzwImage_frame
    builder.vectorBuffer hwidth hheight (uint32 delay) (by omega) hlen hdepth hcolor env.chunk
  rw [show uint32 delay % 2 ^ 16 = delay % 2 ^ 16 from Nat.mod_mod_of_dvd _ (by decide)] at hframe
  refine ⟨pPal, canvas, frame, bytes, hdepth, hzip.symm, ?_, hparses, hframe⟩
  apply (gifBuilderAddImage_ok hstream hdelay hformat).mpr
  rw [hw', hh']
  exact ⟨pPal, canvas, ⟨hpal, hcanvas⟩, by rw [← hcontents]⟩

end GifTools
