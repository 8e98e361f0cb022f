import GifTools.Gif.Frame

/-!
# The extents of an image and of the canvas

`GifBegin` allocates `oldImage` for the extents of the builder, but `AddImage` passes those of the
image on: the functions that compare, replace and compress the frame touch as many pixels of
`oldImage` as the image has. What they touch is listed here, as offsets of bytes.
-/

namespace GifTools

/-! ### The bytes of `oldImage` that are touched -/

/-- The comparison of two colours stops at the first difference. -/
def comparedBytes (last next : GifPixel) (ii : Nat) : List Nat :=
  if last.r ≠ next.r then [4 * ii]
  else if last.g ≠ next.g then [4 * ii, 4 * ii + 1]
  else [4 * ii, 4 * ii + 1, 4 * ii + 2]

/-- `GifPickChangedPixels` reads the last frame. -/
def pickedBytes (lastFrame frame : Pixels) (numPixels : Int) : List Nat :=
  (List.range numPixels.toNat).flatMap fun ii => comparedBytes (lastFrame ii) (frame ii) ii

/-- `GifThresholdImage` reads the last frame, if there is one, and writes the next in its place. -/
def thresholdBytes (lastFrame : Option Pixels) (nextFrame : Pixels) (numPixels : Nat) : List Nat :=
  (List.range numPixels).flatMap fun ii =>
    (lastFrame.elim [] fun last => comparedBytes (last ii) (nextFrame ii) ii) ++
      [4 * ii, 4 * ii + 1, 4 * ii + 2, 4 * ii + 3]

/-- `GifWriteLzwImage` reads the alpha bytes; the index is a `uint32_t`. -/
def lzwBytes (width height : Nat) : List Nat :=
  (List.range height).flatMap fun yy =>
    (List.range width).map fun xx => ((yy * width + xx) * 4 + 3) % 2 ^ 32

/-- `GifWriteFrame`. -/
def frameBytes (writer : GifWriter) (image : Pixels) (width height : Nat) : List Nat :=
  let oldImage := writer.lastFrame
  (oldImage.elim [] fun last => pickedBytes last image (int32 (width * height : Nat))) ++
    thresholdBytes oldImage image (uint32 (width * height : Nat)) ++ lzwBytes width height

/-- One call of `AddImage`. -/
structure AddImageCall where
  imageObj : Option Image
  delay : Nat
  env : Uninit

namespace AddImageCall

variable (search : PaletteSearch) (call : AddImageCall) (builder : GifBuilderGIFH)

def step (builder : GifBuilderGIFH) (call : AddImageCall) : Except PixelFault GifBuilderGIFH := do
  let (_, builder) ← gifBuilderAddImage search builder call.imageObj call.delay call.env
  return builder

/-- The image is not refused: the file is open, and the call passes an image with four bytes a
pixel and a delay. -/
def Accepts (image : Image) : Prop :=
  builder.writer.stream = true ∧ call.imageObj = some image ∧ call.delay ≠ 0 ∧
    image.format = .r8g8b8a8Unorm

/-- The bytes of `oldImage` that the call touches. -/
def bytes : List Nat :=
  match call.imageObj with
  | none => []
  | some image =>
    if call.delay = 0 then []
    else if image.format ≠ .r8g8b8a8Unorm then []
    else if !builder.writer.stream then []
    else frameBytes builder.writer (pixelsOf image.pixels) (uint32 image.width)
      (uint32 image.height)

/-- It is refused and has no effect, or touches a canvas of so many bytes only. -/
def StaysIn (canvasBytes : Nat) (builder : GifBuilderGIFH) (call : AddImageCall) : Prop :=
  gifBuilderAddImage search builder call.imageObj call.delay call.env = .ok (false, builder) ∨
    ∀ offset ∈ call.bytes builder, offset < canvasBytes

/-- The pixels of an image that is not refused are no more than those of the canvas. -/
def Fits (canvasBytes : Nat) (builder : GifBuilderGIFH) (call : AddImageCall) : Prop :=
  ∀ image, call.Accepts builder image → 4 * (uint32 image.width * uint32 image.height) ≤ canvasBytes

end AddImageCall

/-- The size of the canvas that is allocated for a builder, a `uint32_t`. -/
def canvasBytes (width height : Nat) : Nat := uint32 (uint32 width * uint32 height * 4)

/-! ### The bytes of a frame -/

section

variable {lastFrame : Option Pixels} {last frame : Pixels} {width height offset : Nat}

lemma lt_of_mem_comparedBytes {p q : GifPixel} {ii : Nat}
    (h : offset ∈ comparedBytes p q ii) : offset < 4 * (ii + 1) := by
  rw [comparedBytes] at h
  split at h
  · simp at h
    omega
  split at h
  · simp at h
    omega
  · simp at h
    omega

lemma lt_of_mem_pickedBytes {numPixels : Int} (h : offset ∈ pickedBytes last frame numPixels) :
    offset < 4 * numPixels.toNat := by
  obtain ⟨ii, hii, h⟩ := List.mem_flatMap.mp h
  rw [List.mem_range] at hii
  have := lt_of_mem_comparedBytes h
  omega

lemma lt_of_mem_thresholdBytes {numPixels : Nat}
    (h : offset ∈ thresholdBytes lastFrame frame numPixels) : offset < 4 * numPixels := by
  obtain ⟨ii, hii, h⟩ := List.mem_flatMap.mp h
  rw [List.mem_range] at hii
  have hlt : offset < 4 * (ii + 1) := by
    rcases List.mem_append.mp h with h | h
    · cases lastFrame with
      | none => cases h
      | some last => exact lt_of_mem_comparedBytes h
    · simp at h
      omega
  omega

lemma lt_of_mem_lzwBytes (h : offset ∈ lzwBytes width height) : offset < 4 * (width * height) := by
  obtain ⟨yy, hyy, h⟩ := List.mem_flatMap.mp h
  obtain ⟨xx, hxx, rfl⟩ := List.mem_map.mp h
  rw [List.mem_range] at hyy hxx
  have hrow : (yy + 1) * width ≤ height * width := Nat.mul_le_mul_right _ hyy
  have := Nat.mod_le ((yy * width + xx) * 4 + 3) (2 ^ 32)
  rw [Nat.add_mul, Nat.one_mul, Nat.mul_comm height] at hrow
  omega

/-- The pixel behind a canvas that is too small is one of those compressed. -/
lemma exists_mem_lzwBytes {n : Nat} (h : n < width * height) (hn : 4 * n + 3 < 2 ^ 32) :
    4 * n + 3 ∈ lzwBytes width height := by
  have hwidth : 0 < width := by
    by_contra hzero
    rw [Nat.eq_zero_of_not_pos hzero, Nat.zero_mul] at h
    omega
  apply List.mem_flatMap.mpr
  refine ⟨n / width, List.mem_range.mpr (Nat.div_lt_of_lt_mul h), ?_⟩
  apply List.mem_map.mpr
  refine ⟨n % width, List.mem_range.mpr (Nat.mod_lt _ hwidth), ?_⟩
  rw [Nat.mul_comm (n / width), Nat.div_add_mod, Nat.mod_eq_of_lt (by omega)]
  omega

/-- A frame stays in the canvas exactly if it has no more pixels. -/
lemma frameBytes_lt_iff (writer : GifWriter) (image : Pixels) (width height : Nat) {n : Nat}
    (hn : 4 * n < 2 ^ 32) :
    (∀ offset ∈ frameBytes writer image width height, offset < 4 * n) ↔
      4 * (width * height) ≤ 4 * n := by
  constructor
  · intro h
    by_contra hlarge
    have hmem : 4 * n + 3 ∈ lzwBytes width height :=
      exists_mem_lzwBytes (by omega) (by omega)
    have := h _ (List.mem_append_right _ hmem)
    omega
  · intro hle offset h
    rcases List.mem_append.mp h with h | h
    · rcases List.mem_append.mp h with h | h
      · have hint := int32_le (width * height)
        cases hfirst : writer.firstFrame with
        | true => simp [GifWriter.lastFrame, hfirst] at h
        | false =>
          rw [GifWriter.lastFrame, hfirst] at h
          have := lt_of_mem_pickedBytes h
          omega
      · have := lt_of_mem_thresholdBytes h
        have := Nat.mod_le (width * height) (2 ^ 32)
        rw [uint32] at *
        omega
    · have := lt_of_mem_lzwBytes h
      omega

end

/-! ### The canvas through the calls -/

/-- The writer is open and its canvas has so many bytes. -/
structure HasCanvas (canvasBytes : Nat) (builder : GifBuilderGIFH) : Prop where
  stream : builder.writer.stream = true
  size : 4 * builder.writer.oldImage.length = canvasBytes

lemma hasCanvas_initialize (garbage : Pixels) (width height delay : Nat) :
    HasCanvas (canvasBytes width height) (gifBuilderInitialize garbage width height delay) where
  stream := rfl
  size := by
    have hlength : (gifBuilderInitialize garbage width height delay).writer.oldImage.length =
        canvasBytes width height / 4 := by
      change ((List.range (canvasBytes width height / 4)).map garbage).length = _
      simp
    have hdvd : 4 ∣ canvasBytes width height :=
      (Nat.dvd_mod_iff (by decide)).mpr (Nat.dvd_mul_left _ _)
    rw [hlength, Nat.mul_div_cancel' hdvd]

/-- The frame replaces the pixels in place. -/
lemma length_gifThresholdImage {search : PaletteSearch} {pPal : GifPalette}
    {beyond : Nat → Int} {hasLast : Bool} {n : Nat} {nextFrame outFrame canvas : List GifPixel}
    (h : gifThresholdImage search pPal beyond hasLast n nextFrame outFrame = .ok canvas) :
    canvas.length = outFrame.length := by
  induction n generalizing nextFrame outFrame canvas with
  | zero =>
    cases h
    rfl
  | succ n ih =>
    cases nextFrame with
    | nil => cases h
    | cons next nextFrame =>
      cases outFrame with
      | nil => cases h
      | cons out outFrame =>
        obtain ⟨rest, hrest, hcanvas⟩ := Runs.bind_ok.mp h
        cases hcanvas
        rw [List.length_cons, List.length_cons, ih hrest]

/-- It computes no number that could overflow. -/
lemma gifThresholdImage_ne_overflow {search : PaletteSearch} {pPal : GifPalette}
    {beyond : Nat → Int} {hasLast : Bool} {n : Nat} {nextFrame outFrame : List GifPixel} :
    gifThresholdImage search pPal beyond hasLast n nextFrame outFrame ≠ .error .overflow := by
  induction n generalizing nextFrame outFrame with
  | zero => simp [gifThresholdImage]
  | succ n ih =>
    cases nextFrame with
    | nil => simp [gifThresholdImage]
    | cons next nextFrame =>
      cases outFrame with
      | nil => simp [gifThresholdImage]
      | cons out outFrame =>
        intro herror
        rcases Runs.bind_error.mp herror with herror | ⟨rest, -, herror⟩
        · exact ih herror
        · cases herror

/-- Accesses to the canvas are out of bounds only behind it. -/
lemma gifThresholdImage_ne_canvas {search : PaletteSearch} {pPal : GifPalette}
    {beyond : Nat → Int} {hasLast : Bool} {n : Nat} {nextFrame outFrame : List GifPixel}
    (h : n ≤ outFrame.length) :
    gifThresholdImage search pPal beyond hasLast n nextFrame outFrame ≠ .error .canvas := by
  induction n generalizing nextFrame outFrame with
  | zero => simp [gifThresholdImage]
  | succ n ih =>
    cases nextFrame with
    | nil => simp [gifThresholdImage]
    | cons next nextFrame =>
      cases outFrame with
      | nil => simp at h
      | cons out outFrame =>
        rw [List.length_cons] at h
        intro herror
        rcases Runs.bind_error.mp herror with herror | ⟨rest, -, herror⟩
        · exact ih (by omega) herror
        · cases herror

lemma framePalette_ne_canvas {writer : GifWriter} {image : List GifPixel} {width height : Nat}
    {env : Uninit} : framePalette writer image width height env ≠ .error .canvas := by
  intro h
  rw [framePalette] at h
  split at h
  · cases h
  · rcases gifMakePalette_error h with hfault | hfault
    · cases hfault
    · cases hfault

/-- With enough pixels in the image and the canvas there is no fault. -/
lemma gifThresholdImage_isOk {search : PaletteSearch} {pPal : GifPalette} {beyond : Nat → Int}
    {hasLast : Bool} {n : Nat} {nextFrame outFrame : List GifPixel} (hnext : n ≤ nextFrame.length)
    (hout : n ≤ outFrame.length) :
    ∃ canvas, gifThresholdImage search pPal beyond hasLast n nextFrame outFrame = .ok canvas := by
  induction n generalizing nextFrame outFrame with
  | zero => exact ⟨outFrame, rfl⟩
  | succ n ih =>
    cases nextFrame with
    | nil => simp at hnext
    | cons next nextFrame =>
      cases outFrame with
      | nil => simp at hout
      | cons out outFrame =>
        obtain ⟨canvas, hcanvas⟩ := ih (Nat.le_of_succ_le_succ hnext) (Nat.le_of_succ_le_succ hout)
        rw [gifThresholdImage, hcanvas]
        exact ⟨_, rfl⟩

namespace AddImageCall

variable {search : PaletteSearch} {builder after : GifBuilderGIFH} {call : AddImageCall}
  {image : Image} {n : Nat}

lemma addImage_ok (h : call.Accepts builder image) {r : Bool × GifBuilderGIFH} :
    gifBuilderAddImage search builder call.imageObj call.delay call.env = .ok r ↔
      ∃ pal canvas, FrameMade search builder.writer image.pixels (uint32 image.width)
          (uint32 image.height) call.env pal canvas ∧
        r = (true, ⟨⟨true, canvas, false⟩,
          gifWriteLzwImage builder.vectorBuffer (bytesOf canvas) 0 0 (uint32 image.width)
            (uint32 image.height) (uint32 call.delay) pal call.env.chunk⟩) := by
  obtain ⟨hstream, himage, hdelay, hformat⟩ := h
  rw [himage]
  exact gifBuilderAddImage_ok hstream hdelay hformat

/-- An image that is not refused is written or ends the call. -/
lemma addImage_ne_false (h : call.Accepts builder image) :
    gifBuilderAddImage search builder call.imageObj call.delay call.env ≠
      .ok (false, after) := by
  intro hadd
  obtain ⟨_, _, _, heq⟩ := (addImage_ok h).mp hadd
  cases heq

/-- What ends it is one of the parts of `GifWriteFrame`. -/
lemma addImage_error (h : call.Accepts builder image) {fault : PixelFault}
    (hadd : gifBuilderAddImage search builder call.imageObj call.delay call.env = .error fault) :
    framePalette builder.writer image.pixels (uint32 image.width) (uint32 image.height)
        call.env = .error fault ∨
      ∃ pal, framePalette builder.writer image.pixels (uint32 image.width) (uint32 image.height)
          call.env = .ok pal ∧
        gifThresholdImage search pal call.env.beyond (!builder.writer.firstFrame)
          (uint32 (uint32 image.width * uint32 image.height)) image.pixels
          builder.writer.oldImage = .error fault := by
  obtain ⟨hstream, himage, hdelay, hformat⟩ := h
  rw [himage, gifBuilderAddImage_eq hdelay hformat] at hadd
  rcases Runs.bind_error.mp hadd with hwrite | ⟨_, -, hreturn⟩
  · rw [gifWriteFrame, if_neg (by simp [hstream])] at hwrite
    rcases Runs.bind_error.mp hwrite with hpal | ⟨pal, hpal, hwrite⟩
    · exact .inl hpal
    · rcases Runs.bind_error.mp hwrite with hcanvas | ⟨_, -, hreturn⟩
      · exact .inr ⟨pal, hpal, hcanvas⟩
      · cases hreturn
  · cases hreturn

lemma addImage_refused (h : ∀ image, ¬ call.Accepts builder image) :
    gifBuilderAddImage search builder call.imageObj call.delay call.env =
      .ok (false, builder) := by
  apply gifBuilderAddImage_refused
  cases hstream : builder.writer.stream with
  | false => exact .inl rfl
  | true =>
    by_cases hdelay : call.delay = 0
    · exact .inr (.inl hdelay)
    · refine .inr (.inr ?_)
      rintro ⟨image, himage, hformat⟩
      exact h image ⟨hstream, himage, hdelay, hformat⟩

lemma bytes_eq (h : call.Accepts builder image) :
    call.bytes builder = frameBytes builder.writer (pixelsOf image.pixels) (uint32 image.width)
      (uint32 image.height) := by
  obtain ⟨hstream, himage, hdelay, hformat⟩ := h
  simp [bytes, himage, hdelay, hformat, hstream]

/-- The image that is not refused is the one of the call. -/
lemma Accepts.eq (h : call.Accepts builder image) {image' : Image}
    (h' : call.Accepts builder image') : image' = image :=
  Option.some.inj (h'.2.1.symm.trans h.2.1)

/-- What a call that comes to its end does. -/
lemma step_accepted (h : call.Accepts builder image)
    (hstep : step search builder call = .ok after) :
    ∃ pal canvas, FrameMade search builder.writer image.pixels (uint32 image.width)
        (uint32 image.height) call.env pal canvas ∧
      after = ⟨⟨true, canvas, false⟩,
        gifWriteLzwImage builder.vectorBuffer (bytesOf canvas) 0 0 (uint32 image.width)
          (uint32 image.height) (uint32 call.delay) pal call.env.chunk⟩ := by
  obtain ⟨r, hadd, hreturn⟩ := Runs.bind_ok.mp hstep
  obtain ⟨pal, canvas, hframe, rfl⟩ := (addImage_ok h).mp hadd
  cases hreturn
  exact ⟨pal, canvas, hframe, rfl⟩

lemma step_made (h : call.Accepts builder image) {pal : GifPalette} {canvas : List GifPixel}
    (hframe : FrameMade search builder.writer image.pixels (uint32 image.width)
      (uint32 image.height) call.env pal canvas) :
    step search builder call = .ok ⟨⟨true, canvas, false⟩,
      gifWriteLzwImage builder.vectorBuffer (bytesOf canvas) 0 0 (uint32 image.width)
        (uint32 image.height) (uint32 call.delay) pal call.env.chunk⟩ := by
  rw [step, (addImage_ok h).mpr ⟨pal, canvas, hframe, rfl⟩]
  rfl

lemma step_refused (h : ∀ image, ¬ call.Accepts builder image) :
    step search builder call = .ok builder := by
  rw [step, addImage_refused h]
  rfl

lemma hasCanvas_step (h : HasCanvas n builder) (hstep : step search builder call = .ok after) :
    HasCanvas n after := by
  by_cases haccepts : ∃ image, call.Accepts builder image
  · obtain ⟨image, haccepts⟩ := haccepts
    obtain ⟨pal, canvas, hframe, rfl⟩ := step_accepted haccepts hstep
    exact ⟨rfl, (congrArg (4 * ·) (length_gifThresholdImage hframe.canvas)).trans h.size⟩
  · rw [step_refused (not_exists.mp haccepts)] at hstep
    cases hstep
    exact h

/-- At a builder with a canvas below 4 GiB. -/
lemma staysIn_iff (h : HasCanvas n builder) (hn : n < 2 ^ 32) :
    StaysIn search n builder call ↔ Fits n builder call := by
  have hsize := h.size
  by_cases haccepts : ∃ image, call.Accepts builder image
  · obtain ⟨image, haccepts⟩ := haccepts
    have hframe := frameBytes_lt_iff builder.writer (pixelsOf image.pixels) (uint32 image.width)
      (uint32 image.height) (hsize.trans_lt hn)
    rw [hsize] at hframe
    rw [StaysIn, or_iff_right (addImage_ne_false haccepts), bytes_eq haccepts, hframe]
    constructor
    · intro hle image' haccepts'
      rw [haccepts.eq haccepts']
      exact hle
    · intro hfits
      exact hfits image haccepts
  · constructor
    · intro _ image hacc
      exact absurd ⟨image, hacc⟩ haccepts
    · intro _
      exact .inl (addImage_refused (not_exists.mp haccepts))

/-- Through all calls on a builder, each is refused or stays in the canvas exactly if no image that
is not refused has more pixels than the canvas. -/
theorem along_staysIn_iff (garbage : Pixels) (width height delay : Nat)
    (calls : List AddImageCall) :
    Runs.Along (step search) (StaysIn search (canvasBytes width height))
        (gifBuilderInitialize garbage width height delay) calls ↔
      Runs.Along (step search) (Fits (canvasBytes width height))
        (gifBuilderInitialize garbage width height delay) calls := by
  apply Runs.along_congr (I := HasCanvas (canvasBytes width height))
  · intro builder call after h hstep
    exact hasCanvas_step h hstep
  · intro builder call h
    exact staysIn_iff h (Nat.mod_lt _ (by decide))
  · exact hasCanvas_initialize garbage width height delay

/-- An image of two pixels for a builder of one. -/
theorem not_along_staysIn :
    ¬ ∀ (garbage : Pixels) (width height delay : Nat) (calls : List AddImageCall),
      Runs.Along (step closestIndex) (StaysIn closestIndex (canvasBytes width height))
        (gifBuilderInitialize garbage width height delay) calls := by
  intro h
  let call : AddImageCall :=
    ⟨some ⟨.r8g8b8a8Unorm, 2, 1, [⟨1, 2, 3, 255⟩, ⟨4, 5, 6, 255⟩]⟩, 10, default⟩
  have hstays := (Runs.along_cons.mp (h (fun _ => default) 1 1 10 [call])).1
  have haccepts : call.Accepts (gifBuilderInitialize (fun _ => default) 1 1 10)
    ⟨.r8g8b8a8Unorm, 2, 1, [⟨1, 2, 3, 255⟩, ⟨4, 5, 6, 255⟩]⟩ := ⟨rfl, rfl, by decide, rfl⟩
  have hcanvas := hasCanvas_initialize (fun _ => default) 1 1 10
  have hfits := (staysIn_iff hcanvas (by decide)).mp hstays
  exact absurd (hfits _ haccepts) (by decide)

/-- A call that stays in the canvas does not end with an access behind it. -/
theorem step_ne_canvas (h : HasCanvas n builder) (hn : n < 2 ^ 32)
    (hstays : StaysIn search n builder call) : step search builder call ≠ .error .canvas := by
  intro hstep
  by_cases haccepts : ∃ image, call.Accepts builder image
  · obtain ⟨image, haccepts⟩ := haccepts
    have hfits := (staysIn_iff h hn).mp hstays image haccepts
    have hsize := h.size
    rcases Runs.bind_error.mp hstep with hadd | ⟨_, -, hreturn⟩
    · rcases addImage_error haccepts hadd with hpal | ⟨pal, -, hcanvas⟩
      · exact framePalette_ne_canvas hpal
      · have hmod := Nat.mod_le (uint32 image.width * uint32 image.height) (2 ^ 32)
        exact gifThresholdImage_ne_canvas (hmod.trans (by omega)) hcanvas
    · cases hreturn
  · rw [step_refused (not_exists.mp haccepts)] at hstep
    cases hstep

end AddImageCall

end GifTools
