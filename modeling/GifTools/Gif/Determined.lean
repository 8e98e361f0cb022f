import GifTools.Core.Secrets
import GifTools.Gif.Extents
import GifTools.Gif.File
import GifTools.Gif.Nearest
import GifTools.Gif.Searched

/-!
# Frames that determine their bytes

The local palette of `GifWriteFrame` is not initialised. With a changed pixel for each colour
`GifMakePalette` assigns all that is read of it later. With fewer the local colour table has what
was in memory before.
-/

namespace GifTools

/-! ### Bytes are only appended -/

lemma gifWriteCode_appends (buffer : GifVectorFileBuffer) (stat : GifBitStatus) (code n : Nat) :
    buffer.contents <+: (gifWriteCode buffer stat code n).1.contents := by
  induction n generalizing buffer stat code with
  | zero => exact List.prefix_rfl
  | succ n ih =>
    rw [gifWriteCode]
    simp only
    split
    · apply List.IsPrefix.trans _ (ih _ _ _)
      rw [Written.contents_writeChunk]
      exact List.prefix_append _ _
    · exact ih _ _ _

lemma flushChunk_appends (buffer : GifVectorFileBuffer) (stat : GifBitStatus) :
    buffer.contents <+: (flushChunk buffer stat).contents := by
  rw [flushChunk]
  simp only [contents_putc]
  apply List.IsPrefix.trans _ (List.prefix_append _ _)
  split
  · rw [Written.contents_writeChunk]
    exact List.prefix_append _ _
  · exact List.prefix_rfl

lemma lzwPixel_appends (m : Nat) (s : LzwState) (x : UInt8) :
    s.out.1.contents <+: (lzwPixel m s x).out.1.contents := by
  rw [lzwPixel]
  simp only
  split
  · exact List.prefix_rfl
  split
  · exact List.prefix_rfl
  split
  · exact (gifWriteCode_appends _ _ _ _).trans (gifWriteCode_appends _ _ _ _)
  · exact gifWriteCode_appends _ _ _ _

lemma foldl_appends {A : Type} {f : LzwState → A → LzwState}
    (hf : ∀ s a, s.out.1.contents <+: (f s a).out.1.contents) (xs : List A) (s : LzwState) :
    s.out.1.contents <+: (xs.foldl f s).out.1.contents := by
  induction xs generalizing s with
  | nil => exact List.prefix_rfl
  | cons a xs ih => exact (hf s a).trans (ih _)

/-- Also for a frame without pixels. -/
lemma gifWriteLzwImage_appends (buffer : GifVectorFileBuffer) (image : Nat → UInt8)
    (width height delay : Nat) {pPal : GifPalette} (hdepth : pPal.bitDepth = 8)
    (chunk : Nat → UInt8) :
    buffer.contents ++ headerBytes width height delay pPal <+:
      (gifWriteLzwImage buffer image 0 0 width height delay pPal chunk).contents := by
  rw [gifWriteLzwImage, gifWriteImageData, ← contents_gifWriteImageHeader buffer _ _ _ hdepth]
  apply List.IsPrefix.trans _ (flushChunk_appends _ _)
  apply List.IsPrefix.trans _ (gifWriteCode_appends _ _ _ _)
  apply List.IsPrefix.trans _ (gifWriteCode_appends _ _ _ _)
  apply List.IsPrefix.trans _ (gifWriteCode_appends _ _ _ _)
  refine List.IsPrefix.trans ?_ (foldl_appends (fun s yy => ?_) _ _)
  · exact gifWriteCode_appends _ _ _ _
  · exact foldl_appends (fun s xx => lzwPixel_appends _ s _) _ s

/-- The bytes of a header show its colours. -/
lemma paletteTable_eq_of_headerBytes {width height delay : Nat} {pPal pPal' : GifPalette}
    (hdepth : pPal.bitDepth = 8) (hdepth' : pPal'.bitDepth = 8)
    (h : headerBytes width height delay pPal = headerBytes width height delay pPal') :
    paletteTable pPal = paletteTable pPal' := by
  simp only [headerBytes, wordBytes, List.cons_append, List.nil_append, List.cons.injEq,
    true_and] at h
  have hparse := parseTable_tableBytes (paletteTable pPal) [8]
  have hparse' := parseTable_tableBytes (paletteTable pPal') [8]
  rw [length_paletteTable, hdepth, h] at hparse
  rw [length_paletteTable, hdepth', hparse, Option.some.injEq, Prod.mk.injEq] at hparse'
  exact hparse'.1

lemma length_headerBytes (width height delay : Nat) (pPal : GifPalette) :
    (headerBytes width height delay pPal).length = 19 + 3 * 2 ^ pPal.bitDepth := by
  have htable (table : List Rgb) : (tableBytes table).length = 3 * table.length := by
    simp [tableBytes, List.length_flatMap, Nat.mul_comm]
  simp only [headerBytes, wordBytes, List.length_append, List.length_cons, List.length_nil, htable,
    length_paletteTable]
  omega

/-- So do the bytes written from there on. -/
lemma paletteTable_eq_of_appends {width height delay : Nat} {pPal pPal' : GifPalette}
    (hdepth : pPal.bitDepth = 8) (hdepth' : pPal'.bitDepth = 8) {contents xs : List UInt8}
    (h : contents ++ headerBytes width height delay pPal <+: xs)
    (h' : contents ++ headerBytes width height delay pPal' <+: xs) :
    paletteTable pPal = paletteTable pPal' := by
  have hlength : (contents ++ headerBytes width height delay pPal).length =
      (contents ++ headerBytes width height delay pPal').length := by
    rw [List.length_append, List.length_append, length_headerBytes, length_headerBytes, hdepth,
      hdepth']
  have heq := (List.prefix_of_prefix_length_le h h' hlength.le).eq_of_length hlength
  exact paletteTable_eq_of_headerBytes hdepth hdepth' (List.append_cancel_left heq)

lemma read_color_of_paletteTable {pPal pPal' : GifPalette} (hdepth : pPal.bitDepth = 8)
    (hdepth' : pPal'.bitDepth = 8) (h : paletteTable pPal = paletteTable pPal') {e : Nat}
    (he : 0 < e) (he' : e < 256) : pPal.read (.color e) = pPal'.read (.color e) := by
  have hlt : e < 2 ^ pPal.bitDepth := by rwa [hdepth]
  have hlt' : e < 2 ^ pPal'.bitDepth := by rwa [hdepth']
  have hcolor := getElem?_paletteTable he.ne' hlt
  have hcolor' := getElem?_paletteTable he.ne' hlt'
  rw [h, hcolor', Option.some.injEq, Prod.mk.injEq, Prod.mk.injEq] at hcolor
  obtain ⟨hr, hg, hb⟩ := hcolor
  rw [GifPalette.read, GifPalette.read, hr, hg, hb]

/-! ### Palettes with the same entries -/

/-- The entries that are read of a palette of 256 colours are the same. -/
structure GifPalette.SameEntries (pal pal' : GifPalette) : Prop where
  depth : pal.bitDepth = 8
  depth' : pal'.bitDepth = 8
  color : ∀ e, e < 256 → pal.read (.color e) = pal'.read (.color e)
  node : ∀ j, 0 < j → j < 256 → pal.read (.node j) = pal'.read (.node j)

namespace GifPalette.SameEntries

variable {pal pal' : GifPalette}

lemma rgb_eq (h : pal.SameEntries pal') {e : Nat} (he : e < 256) :
    pal.r e = pal'.r e ∧ pal.g e = pal'.g e ∧ pal.b e = pal'.b e :=
  rgb_eq_of_read (h.color e he)

lemma closestIndex_eq (h : pal.SameEntries pal') (beyond : Nat → Int) (p : GifPixel) :
    closestIndex pal beyond p = closestIndex pal' beyond p := by
  apply closestIndex_congr (h.depth.trans h.depth'.symm)
  intro event hevent
  rcases mem_searchEvents h.depth (by decide) (by decide) hevent with
    ⟨e, he, rfl⟩ | ⟨j, hj, hj', rfl | rfl⟩
  · exact h.color e he
  · exact h.node j hj hj'
  · rfl

lemma thresholdPixel_eq (h : pal.SameEntries pal') (beyond : Nat → Int) :
    thresholdPixel closestIndex pal beyond = thresholdPixel closestIndex pal' beyond := by
  funext lastFrame nextFrame
  have hind := h.closestIndex_eq beyond nextFrame
  have hlt := (closestIndex_inRange pal' beyond nextFrame h.depth').2
  obtain ⟨hr, hg, hb⟩ := h.rgb_eq hlt
  simp only [thresholdPixel, hind, hr, hg, hb]

lemma gifThresholdImage_eq (h : pal.SameEntries pal') (beyond : Nat → Int) (hasLast : Bool)
    (n : Nat) (nextFrame outFrame : List GifPixel) :
    gifThresholdImage closestIndex pal beyond hasLast n nextFrame outFrame =
      gifThresholdImage closestIndex pal' beyond hasLast n nextFrame outFrame := by
  induction n generalizing nextFrame outFrame with
  | zero => rfl
  | succ n ih =>
    cases nextFrame with
    | nil => rfl
    | cons next nextFrame =>
      cases outFrame with
      | nil => rfl
      | cons out outFrame =>
        rw [gifThresholdImage, gifThresholdImage, ih, h.thresholdPixel_eq]

lemma paletteTable_eq (h : pal.SameEntries pal') : paletteTable pal = paletteTable pal' := by
  rw [paletteTable, paletteTable, h.depth, h.depth']
  apply congrArg (List.cons _)
  apply List.map_congr_left
  intro e he
  obtain ⟨hr, hg, hb⟩ := h.rgb_eq (show e < 256 by
    have := List.mem_range'_1.mp he
    omega)
  rw [hr, hg, hb]

lemma gifWriteLzwImage_eq (h : pal.SameEntries pal') (buffer : GifVectorFileBuffer)
    (image : Nat → UInt8) (width height delay : Nat) (chunk : Nat → UInt8) :
    gifWriteLzwImage buffer image 0 0 width height delay pal chunk =
      gifWriteLzwImage buffer image 0 0 width height delay pal' chunk := by
  have hheader : gifWriteImageHeader buffer 0 0 width height delay pal =
      gifWriteImageHeader buffer 0 0 width height delay pal' := by
    have hcontents : (gifWriteImageHeader buffer 0 0 width height delay pal).contents =
        (gifWriteImageHeader buffer 0 0 width height delay pal').contents := by
      rw [contents_gifWriteImageHeader buffer _ _ _ h.depth,
        contents_gifWriteImageHeader buffer _ _ _ h.depth', headerBytes, headerBytes,
        h.paletteTable_eq]
    exact congrArg GifVectorFileBuffer.mk hcontents
  rw [gifWriteLzwImage, gifWriteLzwImage, hheader, h.depth, h.depth']

end GifPalette.SameEntries

/-! ### Calls -/

namespace AddImageCall

/-- The number of pixels of an image that `GifMakePalette` passes to `GifSplitPalette`. -/
def changed (builder : GifBuilderGIFH) (image : Image) : Int :=
  changedPixels builder.writer.lastFrame (pixelsOf image.pixels) (uint32 image.width)
    (uint32 image.height)

/-- The calls differ at most in what was in the memory of the local palette. -/
structure SameButPalette (call call' : AddImageCall) : Prop where
  imageObj : call.imageObj = call'.imageObj
  delay : call.delay = call'.delay
  beyond : call.env.beyond = call'.env.beyond
  chunk : call.env.chunk = call'.env.chunk

/-- The image has all of its pixels. -/
def WellFormed (call : AddImageCall) : Prop :=
  ∀ image, call.imageObj = some image → image.pixels.length = image.width * image.height

/-- The call is refused, or stays in a canvas of so many bytes and makes a palette: no product is
too large. -/
def IsDefined (canvasBytes : Nat) (builder : GifBuilderGIFH) (call : AddImageCall) : Prop :=
  StaysIn closestIndex canvasBytes builder call ∧
    ∀ image, call.Accepts builder image → ∃ pal, framePalette builder.writer image.pixels
      (uint32 image.width) (uint32 image.height) call.env = .ok pal

/-- An image that is not refused has no more pixels than the canvas, a changed one for each colour,
and not so many that a product is too large. -/
def Determined (canvasBytes : Nat) (builder : GifBuilderGIFH) (call : AddImageCall) : Prop :=
  ∀ image, call.Accepts builder image →
    4 * (uint32 image.width * uint32 image.height) ≤ canvasBytes ∧
      255 ≤ changed builder image ∧ changed builder image * 127 < 2 ^ 31

namespace SameButPalette

variable {a b c : AddImageCall}

lemma refl (a : AddImageCall) : SameButPalette a a := ⟨rfl, rfl, rfl, rfl⟩

lemma trans (hab : SameButPalette a b) (hbc : SameButPalette b c) : SameButPalette a c :=
  ⟨hab.imageObj.trans hbc.imageObj, hab.delay.trans hbc.delay, hab.beyond.trans hbc.beyond,
    hab.chunk.trans hbc.chunk⟩

lemma accepts (h : SameButPalette a b) {builder : GifBuilderGIFH} {image : Image}
    (ha : a.Accepts builder image) : b.Accepts builder image := by
  rw [Accepts, ← h.imageObj, ← h.delay]
  exact ha

lemma symm (h : SameButPalette a b) : SameButPalette b a :=
  ⟨h.imageObj.symm, h.delay.symm, h.beyond.symm, h.chunk.symm⟩

end SameButPalette

variable {builder after : GifBuilderGIFH} {call call' : AddImageCall} {image : Image} {n : Nat}

/-- With the colours and nodes of two palettes independent of the memory, these are the same. -/
lemma sameEntries_madePalette {pixels pixels' : Pixels} {numPixels : Nat}
    {assign : GifPalette → GifPalette}
    (h : Splits 8 pixels 0 numPixels 1 256 128 64 1 pixels' assign) (hmany : 255 ≤ numPixels)
    {pPal pPal' : GifPalette} (hdepth : (madePalette assign pPal).bitDepth = 8)
    (hdepth' : (madePalette assign pPal').bitDepth = 8) :
    (madePalette assign pPal).SameEntries (madePalette assign pPal') where
  depth := hdepth
  depth' := hdepth'
  color _ he := h.madePalette_color hmany he _ _
  node _ hj hj' := h.madePalette_node hmany hj hj' _ _

/-- What fits the canvas is a number of pixels that fits an `int`. -/
lemma extents_lt (h : HasCanvas n builder) (hn : n < 2 ^ 32)
    (hfits : 4 * (uint32 image.width * uint32 image.height) ≤ n) (hwell : call.WellFormed)
    (haccepts : call.Accepts builder image) :
    uint32 (uint32 image.width * uint32 image.height) ≤ image.pixels.length ∧
      uint32 (uint32 image.width * uint32 image.height) ≤ builder.writer.oldImage.length ∧
      0 ≤ changed builder image := by
  have hsize := h.size
  have hmod : uint32 (uint32 image.width * uint32 image.height) ≤ _ := Nat.mod_le _ (2 ^ 32)
  have hextents : uint32 image.width * uint32 image.height ≤ image.width * image.height :=
    Nat.mul_le_mul (Nat.mod_le _ _) (Nat.mod_le _ _)
  have hpixels := hwell image haccepts.2.1
  exact ⟨by omega, by omega, (changedPixels_le (by omega)).1⟩

/-- An image that stays in the canvas is written. -/
lemma step_isOk (h : HasCanvas n builder) (hn : n < 2 ^ 32) (hwell : call.WellFormed)
    (hdef : IsDefined n builder call) : ∃ after, step closestIndex builder call = .ok after := by
  by_cases haccepts : ∃ image, call.Accepts builder image
  · obtain ⟨image, haccepts⟩ := haccepts
    have hfits := (staysIn_iff h hn).mp hdef.1 image haccepts
    obtain ⟨pal, hpal⟩ := hdef.2 image haccepts
    obtain ⟨himage, hold, -⟩ := extents_lt h hn hfits hwell haccepts
    obtain ⟨canvas, hcanvas⟩ : ∃ canvas, gifThresholdImage closestIndex pal call.env.beyond
        (!builder.writer.firstFrame) (uint32 (uint32 image.width * uint32 image.height))
          image.pixels builder.writer.oldImage = .ok canvas := gifThresholdImage_isOk himage hold
    exact ⟨_, step_made haccepts ⟨hpal, hcanvas⟩⟩
  · exact ⟨builder, step_refused (not_exists.mp haccepts)⟩

/-- What is written stays, and the header of a frame is written first. -/
lemma step_appends (haccepts : call.Accepts builder image)
    (hstep : step closestIndex builder call = .ok after) :
    ∃ pal, framePalette builder.writer image.pixels (uint32 image.width) (uint32 image.height)
        call.env = .ok pal ∧ pal.bitDepth = 8 ∧
      builder.vectorBuffer.contents ++ headerBytes (uint32 image.width) (uint32 image.height)
        (uint32 call.delay) pal <+: after.vectorBuffer.contents := by
  obtain ⟨pal, canvas, hframe, rfl⟩ := step_accepted haccepts hstep
  exact ⟨pal, hframe.palette, hframe.bitDepth,
    gifWriteLzwImage_appends _ _ _ _ _ hframe.bitDepth _⟩

lemma step_grows (hstep : step closestIndex builder call = .ok after) :
    builder.vectorBuffer.contents <+: after.vectorBuffer.contents := by
  by_cases haccepts : ∃ image, call.Accepts builder image
  · obtain ⟨image, haccepts⟩ := haccepts
    obtain ⟨_, -, -, happ⟩ := step_appends haccepts hstep
    exact (List.prefix_append _ _).trans happ
  · rw [step_refused (not_exists.mp haccepts)] at hstep
    cases hstep
    exact List.prefix_rfl

/-- The palettes of a determined frame, over any memory. -/
lemma Determined.exists_palette (h : HasCanvas n builder) (hn : n < 2 ^ 32)
    (hwell : call.WellFormed) (hdet : Determined n builder call)
    (haccepts : call.Accepts builder image) :
    ∃ made : GifPalette → GifPalette,
      (∀ env, framePalette builder.writer image.pixels (uint32 image.width) (uint32 image.height)
        env = .ok (made env.pal)) ∧ ∀ pPal pPal', (made pPal).SameEntries (made pPal') := by
  obtain ⟨hfits, hmany, hproduct⟩ := hdet image haccepts
  obtain ⟨himage, -, hpos⟩ := extents_lt h hn hfits hwell haccepts
  obtain ⟨_, assign, hsplits, hmade⟩ := exists_gifMakePalette hpos hproduct
  refine ⟨madePalette assign, fun env => (framePalette_eq himage).trans (hmade env.pal), ?_⟩
  intro pPal pPal'
  rw [changed] at hmany
  exact sameEntries_madePalette hsplits (by omega) (gifMakePalette_bitDepth (hmade pPal))
    (gifMakePalette_bitDepth (hmade pPal'))

lemma Determined.isDefined (h : HasCanvas n builder) (hn : n < 2 ^ 32) (hwell : call.WellFormed)
    (hdet : Determined n builder call) : IsDefined n builder call := by
  constructor
  · exact (staysIn_iff h hn).mpr fun image haccepts => (hdet image haccepts).1
  · intro image haccepts
    obtain ⟨made, hmade, -⟩ := hdet.exists_palette h hn hwell haccepts
    exact ⟨_, hmade call.env⟩

/-- A call that is determined does the same over other memory. -/
lemma Determined.step_eq (h : HasCanvas n builder) (hn : n < 2 ^ 32) (hwell : call.WellFormed)
    (hdet : Determined n builder call) (halike : SameButPalette call call') :
    step closestIndex builder call = step closestIndex builder call' := by
  by_cases haccepts : ∃ image, call.Accepts builder image
  · obtain ⟨image, haccepts⟩ := haccepts
    obtain ⟨made, hmade, hsame⟩ := hdet.exists_palette h hn hwell haccepts
    have hentries := hsame call.env.pal call'.env.pal
    obtain ⟨after, hstep⟩ := step_isOk h hn hwell (hdet.isDefined h hn hwell)
    obtain ⟨pal, canvas, ⟨hpal, hcanvas⟩, rfl⟩ := step_accepted haccepts hstep
    obtain rfl := Except.ok.inj ((hmade call.env).symm.trans hpal)
    rw [hentries.gifThresholdImage_eq, halike.beyond] at hcanvas
    rw [hstep, step_made (halike.accepts haccepts) ⟨hmade call'.env, hcanvas⟩,
      hentries.gifWriteLzwImage_eq, halike.delay, halike.chunk]
  · rw [step_refused (not_exists.mp haccepts), step_refused]
    intro image haccepts'
    exact haccepts ⟨image, halike.symm.accepts haccepts'⟩

/-- A call that is defined but not determined writes a colour that was in the memory before. -/
lemma IsDefined.reveals (h : HasCanvas n builder) (hn : n < 2 ^ 32) (hwell : call.WellFormed)
    (hdef : IsDefined n builder call) (hnot : ¬ Determined n builder call)
    (hstep : step closestIndex builder call = .ok after) :
    ∃ call', SameButPalette call call' ∧ ∀ after', step closestIndex builder call' = .ok after' →
      ∀ xs, after.vectorBuffer.contents <+: xs → ¬ after'.vectorBuffer.contents <+: xs := by
  simp only [Determined, not_forall] at hnot
  obtain ⟨image, haccepts, hnot⟩ := hnot
  have hfits := (staysIn_iff h hn).mp hdef.1 image haccepts
  obtain ⟨himage, -, hpos⟩ := extents_lt h hn hfits hwell haccepts
  obtain ⟨pal, hpal⟩ := hdef.2 image haccepts
  have hproduct : changed builder image * 127 < 2 ^ 31 :=
    lt_of_gifMakePalette (framePalette_ok hpal)
  have hfew : changed builder image < 255 := by
    by_contra hmany
    exact hnot ⟨hfits, not_lt.mp hmany, hproduct⟩
  obtain ⟨_, assign, hsplits, hmade⟩ := exists_gifMakePalette hpos hproduct
  have hframe (env : Uninit) : framePalette builder.writer image.pixels (uint32 image.width)
      (uint32 image.height) env = .ok (madePalette assign env.pal) :=
    (framePalette_eq himage).trans (hmade env.pal)
  rw [changed] at hfew
  obtain ⟨e, he, hlt, hkeeps⟩ := hsplits.exists_madePalette_keeps (by omega)
  obtain ⟨pPal, hpPal⟩ : ∃ pPal, pPal = call.env.pal.setColor e (call.env.pal.r e + 1) 0 0 :=
    ⟨_, rfl⟩
  obtain ⟨call', hcall'⟩ : ∃ call' : AddImageCall,
    call' = { call with env := { call.env with pal := pPal } } := ⟨_, rfl⟩
  have halike : SameButPalette call call' := by
    rw [hcall']
    exact ⟨rfl, rfl, rfl, rfl⟩
  refine ⟨call', halike, ?_⟩
  intro after' hstep' xs hxs hxs'
  obtain ⟨made, hmade, hdepth, happ⟩ := step_appends haccepts hstep
  obtain ⟨made', hmade', hdepth', happ'⟩ := step_appends (halike.accepts haccepts) hstep'
  rw [← halike.delay] at happ'
  have htable := paletteTable_eq_of_appends hdepth hdepth' (happ.trans hxs) (happ'.trans hxs')
  have hread := read_color_of_paletteTable hdepth hdepth' htable he hlt
  obtain rfl := Except.ok.inj ((hframe _).symm.trans hmade)
  obtain rfl := Except.ok.inj ((hframe _).symm.trans hmade')
  rw [hkeeps, hkeeps, hcall', hpPal, GifPalette.read_setColor, GifPalette.read,
    List.cons.injEq] at hread
  have hred : call.env.pal.r e ≠ call.env.pal.r e + 1 := by simp
  exact hred hread.1

/-- Calls of `AddImage` as operations whose secret is the memory of the palette. -/
lemma rules (hn : n < 2 ^ 32) : Secrets.Rules (step closestIndex) SameButPalette
    (fun builder => builder.vectorBuffer.contents) (HasCanvas n) WellFormed (IsDefined n)
    (Determined n) where
  trans := .trans
  refl := .refl
  wellFormed halike hwell image himage := hwell image (halike.imageObj.trans himage)
  step_ok h hwell hdef := step_isOk h hn hwell hdef
  keeps h hstep := hasCanvas_step h hstep
  grows _ hstep := step_grows hstep
  isDefined h hwell hdet := hdet.isDefined h hn hwell
  same h hwell hdet halike := hdet.step_eq h hn hwell halike
  reveals h hwell hdef hnot hstep := hdef.reveals h hn hwell hnot hstep

/-- Whatever is in the memory of the local palettes, all calls are defined, and the file is the
same. -/
structure Reproducible (canvasBytes : Nat) (builder : GifBuilderGIFH) (calls : List AddImageCall) :
    Prop where
  isDefined : Secrets.Always (step closestIndex) SameButPalette (IsDefined canvasBytes) builder
    calls
  same : ∀ calls' calls'' after after', List.Forall₂ SameButPalette calls calls' →
    List.Forall₂ SameButPalette calls calls'' →
    Runs.run (step closestIndex) builder calls' = .ok after →
    Runs.run (step closestIndex) builder calls'' = .ok after' →
    (gifBuilderFinalize after).1 = (gifBuilderFinalize after').1

/-- The file has the bytes written and a trailer. -/
lemma reproducible_iff (h : HasCanvas n builder) {calls : List AddImageCall} :
    Reproducible n builder calls ↔
      Secrets.Always (step closestIndex) SameButPalette (IsDefined n) builder calls ∧
        Secrets.SameOutput (step closestIndex) SameButPalette
          (fun builder => builder.vectorBuffer.contents) builder calls := by
  have hfinalize {calls' calls'' : List AddImageCall} {after after' : GifBuilderGIFH}
      (hrun : Runs.run (step closestIndex) builder calls' = .ok after)
      (hrun' : Runs.run (step closestIndex) builder calls'' = .ok after') :
      (gifBuilderFinalize after).1 = (gifBuilderFinalize after').1 ↔
        after.vectorBuffer.contents = after'.vectorBuffer.contents := by
    have hopen := Runs.run_invariant (fun _ _ _ => hasCanvas_step) h hrun
    have hopen' := Runs.run_invariant (fun _ _ _ => hasCanvas_step) h hrun'
    rw [(BuilderRun.gifBuilderFinalize_open hopen.stream).1,
      (BuilderRun.gifBuilderFinalize_open hopen'.stream).1, Option.some.injEq]
    exact List.append_left_inj _
  constructor
  · rintro ⟨hdef, hsame⟩
    refine ⟨hdef, ?_⟩
    intro xs ys t t' hxs hys ht ht'
    exact (hfinalize ht ht').mp (hsame _ _ _ _ hxs hys ht ht')
  · rintro ⟨hdef, hsame⟩
    refine ⟨hdef, ?_⟩
    intro calls' calls'' after after' hcalls' hcalls'' hrun hrun'
    exact (hfinalize hrun hrun').mpr (hsame _ _ _ _ hcalls' hcalls'' hrun hrun')

/-- A row of shades of red. -/
def addRow (width : Nat) : AddImageCall :=
  ⟨some ⟨.r8g8b8a8Unorm, width, 1,
    (List.range width).map fun i => ⟨UInt8.ofNat i, 0, 0, 255⟩⟩, 10, default⟩

lemma wellFormed_addRow (width : Nat) : (addRow width).WellFormed := by
  intro image himage
  cases himage
  simp

/-- All of its pixels are changed in a first frame. -/
lemma changed_addRow {width : Nat} (hwidth : width < 2 ^ 31) (garbage : Pixels)
    (h : SameButPalette (addRow width) call)
    (haccepts : call.Accepts (gifBuilderInitialize garbage width 1 10) image) :
    uint32 image.width * uint32 image.height = width ∧
      changed (gifBuilderInitialize garbage width 1 10) image = width := by
  obtain ⟨-, himage, -⟩ := h.symm.accepts haccepts
  cases himage
  have hextents : uint32 width * uint32 1 = width := by
    rw [uint32_of_lt (by omega), uint32_of_lt (by decide), Nat.mul_one]
  refine ⟨hextents, ?_⟩
  change int32 (uint32 width * uint32 1 : Nat) = width
  rw [hextents, int32_of_lt hwidth]

lemma canvasBytes_row {width : Nat} (hwidth : 4 * width < 2 ^ 32) :
    canvasBytes width 1 = 4 * width := by
  rw [canvasBytes, uint32_of_lt (by omega : width < 2 ^ 32), uint32_of_lt (by decide : 1 < 2 ^ 32),
    Nat.mul_one, Nat.mul_comm, uint32_of_lt hwidth]

/-- The file does not depend on the memory of the local palettes exactly if all frames are
determined. -/
theorem reproducible_iff_determined (garbage : Pixels) (width height delay : Nat)
    {calls : List AddImageCall} (hcalls : ∀ call ∈ calls, call.WellFormed) :
    Reproducible (canvasBytes width height) (gifBuilderInitialize garbage width height delay)
        calls ↔
      Secrets.Always (step closestIndex) SameButPalette
        (Determined (canvasBytes width height)) (gifBuilderInitialize garbage width height delay)
        calls := by
  have h := hasCanvas_initialize garbage width height delay
  have hn : canvasBytes width height < 2 ^ 32 := Nat.mod_lt _ (by decide)
  rw [reproducible_iff h]
  exact (rules hn).always_iff h hcalls

theorem reproducible_addRow : Reproducible (canvasBytes 255 1)
    (gifBuilderInitialize (fun _ => default) 255 1 10) [addRow 255] := by
  have hwell : ∀ call ∈ [addRow 255], call.WellFormed := by
    intro call hcall
    rw [List.mem_singleton.mp hcall]
    exact wellFormed_addRow 255
  rw [reproducible_iff_determined _ _ _ _ hwell, Secrets.always_singleton]
  intro call halike image haccepts
  obtain ⟨hextents, hchanged⟩ := changed_addRow (by decide) (fun _ => default) halike haccepts
  rw [hextents, hchanged, canvasBytes_row (by decide)]
  decide

/-- A frame of one pixel: its calls are defined, but the file depends on the memory. -/
theorem not_reproducible_addRow :
    Secrets.Always (step closestIndex) SameButPalette (IsDefined (canvasBytes 1 1))
        (gifBuilderInitialize (fun _ => default) 1 1 10) [addRow 1] ∧
      ¬ Reproducible (canvasBytes 1 1) (gifBuilderInitialize (fun _ => default) 1 1 10)
        [addRow 1] := by
  have h := hasCanvas_initialize (fun _ => default) 1 1 10
  have hn : canvasBytes 1 1 < 2 ^ 32 := by decide
  have hwell : ∀ call ∈ [addRow 1], call.WellFormed := by
    intro call hcall
    rw [List.mem_singleton.mp hcall]
    exact wellFormed_addRow 1
  constructor
  · rw [Secrets.always_singleton]
    intro call halike
    have hfits : Fits (canvasBytes 1 1) (gifBuilderInitialize (fun _ => default) 1 1 10) call := by
      intro image haccepts
      rw [(changed_addRow (by decide) (fun _ => default) halike haccepts).1]
      decide
    constructor
    · exact (staysIn_iff h hn).mpr hfits
    · intro image haccepts
      have hwell' := (rules hn).wellFormed halike (wellFormed_addRow 1)
      obtain ⟨himage, -, -⟩ := extents_lt h hn (hfits image haccepts) hwell' haccepts
      have hchanged := (changed_addRow (by decide) (fun _ => default) halike haccepts).2
      rw [changed] at hchanged
      obtain ⟨_, _, -, hmade⟩ := exists_gifMakePalette (by rw [hchanged]; decide)
        (by rw [hchanged]; decide)
      exact ⟨_, (framePalette_eq himage).trans (hmade _)⟩
  · intro hsame
    rw [reproducible_iff h, (rules hn).always_iff h hwell, Secrets.always_singleton] at hsame
    have haccepts : (addRow 1).Accepts (gifBuilderInitialize (fun _ => default) 1 1 10) _ :=
      ⟨rfl, rfl, by decide, rfl⟩
    have hdet := (hsame _ (.refl _) _ haccepts).2.1
    rw [(changed_addRow (by decide) (fun _ => default) (.refl _) haccepts).2] at hdet
    exact absurd hdet (by decide)

end AddImageCall

end GifTools
