import GifTools.Gif.File

/-!
# Replaying a file

A viewer draws one frame after the other on a canvas and leaves it in place. The encoder writes a
frame as the difference to what it takes to be displayed, which is not the source of the frame
before but its palettized image. `Deltas` relates the sources, the canvases of the encoder and the
frames of the file along a whole run; the canvases of the viewer are those of the encoder.
-/

namespace GifTools

open Lzw Runs

/-! ### Drawing -/

namespace GifFrame

variable (frame : GifFrame)

/-- The pixel indices in row order. -/
def indices : List Nat :=
  (decode frame.minCodeSize (Bits.byteBits frame.data)).take (frame.width * frame.height)

/-- The pixel of the frame leaves the canvas as it is. -/
def TransparentAt (i : Nat) : Prop :=
  ∃ ind, frame.transparent = some ind ∧ frame.indices[i]? = some ind.toNat

/-- The pixel of the frame that covers a pixel of a canvas `width` pixels wide. -/
def covering (width i : Nat) : Option Nat :=
  let x := i % width
  let y := i / width
  if frame.left ≤ x ∧ x < frame.left + frame.width ∧ frame.top ≤ y ∧ y < frame.top + frame.height
  then some ((y - frame.top) * frame.width + (x - frame.left))
  else none

end GifFrame

/-- Draw a frame on a canvas `width` pixels wide, and leave it in place. -/
def drawFrame (width : Nat) (canvas : List Rgb) (frame : GifFrame) : List Rgb :=
  canvas.mapIdx fun i rgb =>
    match (frame.covering width i).bind fun j => frame.indices[j]? with
    | none => rgb
    | some ind =>
      if frame.transparent.map UInt8.toNat = some ind then rgb
      else frame.localTable.getD ind rgb

section

variable {width height delay : Nat} {canvas : List GifPixel} {frame : GifFrame}

namespace FrameOf

lemma indices_eq (h : FrameOf width height delay canvas frame)
    (hlen : canvas.length = width * height) :
    frame.indices = canvas.map fun p => p.a.toNat := by
  rw [GifFrame.indices, h.minCodeSize, h.size.1, h.size.2, ← hlen, h.indices]

lemma covering_eq (h : FrameOf width height delay canvas frame) {i : Nat}
    (hi : i < width * height) : frame.covering width i = some i := by
  have hx : i % width < width := Nat.mod_lt _ (Nat.pos_of_mul_pos_right (Nat.zero_lt_of_lt hi))
  have hy : i / width < height := Nat.div_lt_of_lt_mul hi
  rw [GifFrame.covering, h.corner.1, h.corner.2, h.size.1, h.size.2]
  simp only [Nat.zero_le, Nat.zero_add, hx, hy, and_self, if_true, Nat.sub_zero]
  rw [Nat.div_add_mod']

lemma transparentAt_iff (h : FrameOf width height delay canvas frame)
    (hlen : canvas.length = width * height) {i : Nat} {p : GifPixel} (hp : canvas[i]? = some p) :
    frame.TransparentAt i ↔ p.a = 0 := by
  have hind : frame.indices[i]? = some p.a.toNat := by
    rw [h.indices_eq hlen, List.getElem?_map, hp]
    rfl
  rw [GifFrame.TransparentAt, h.transparent, hind]
  constructor
  · rintro ⟨ind, hind0, hp⟩
    cases hind0
    exact UInt8.toNat_inj.mp (Option.some.inj hp)
  · intro ha
    exact ⟨0, rfl, by rw [ha]⟩

/-- Drawing the frame displays its canvas, if that has the colours displayed before wherever it is
transparent. -/
lemma drawFrame_eq (h : FrameOf width height delay canvas frame)
    (hlen : canvas.length = width * height) {screen : List Rgb}
    (hscreen : screen.length = width * height)
    (hkeep : ∀ {i : Nat} {rgb : Rgb} {p : GifPixel}, screen[i]? = some rgb →
      canvas[i]? = some p → p.a = 0 → rgb = p.rgb) :
    drawFrame width screen frame = canvas.map GifPixel.rgb := by
  apply List.ext_getElem?
  intro i
  rw [drawFrame, List.getElem?_mapIdx, List.getElem?_map]
  by_cases hi : i < width * height
  · have hi' : i < canvas.length := hlen.symm ▸ hi
    obtain ⟨rgb, hrgb⟩ : ∃ rgb, screen[i]? = some rgb :=
      ⟨_, List.getElem?_eq_getElem (hscreen.symm ▸ hi)⟩
    obtain ⟨p, hp⟩ : ∃ p, canvas[i]? = some p := ⟨_, List.getElem?_eq_getElem hi'⟩
    have hind : frame.indices[i]? = some p.a.toNat := by
      rw [h.indices_eq hlen, List.getElem?_map, hp]
      rfl
    rw [hrgb, hp, Option.map_some, Option.map_some, h.covering_eq hi, Option.bind_some, hind,
      h.transparent]
    by_cases ha : p.a = 0
    · rw [ha]
      exact congrArg some (hkeep hrgb hp ha)
    · have hne : ¬ Option.map UInt8.toNat (some 0) = some p.a.toNat := by
        intro heq
        exact ha (UInt8.toNat_inj.mp (Option.some.inj heq).symm)
      have hcolor := h.colors p (List.mem_of_getElem? hp) ha
      simp only [if_neg hne, List.getD_eq_getElem?_getD, hcolor, Option.getD_some]
  · rw [List.getElem?_eq_none (by omega), List.getElem?_eq_none (by omega)]
    rfl

end FrameOf

end

/-! ### One frame as a difference -/

/-- The canvas of a frame with these source pixels over the canvas before: transparent exactly where
the source has the colour displayed, and with the right colour there. -/
structure Delta (first : Bool) (old pixels canvas : List GifPixel) : Prop where
  length : canvas.length = pixels.length
  transparent_iff : ∀ {i : Nat} {q p r : GifPixel}, old[i]? = some q → pixels[i]? = some p →
    canvas[i]? = some r → (r.a = 0 ↔ first = false ∧ q.rgb = p.rgb)
  displayed : ∀ {i : Nat} {p r : GifPixel}, pixels[i]? = some p → canvas[i]? = some r →
    r.a = 0 → r.rgb = p.rgb

lemma delta_zipWith {search : PaletteSearch} (hsearch : search.InRange) {pPal : GifPalette}
    (hdepth : pPal.bitDepth = 8) (beyond : Nat → Int) (first : Bool) {old pixels : List GifPixel}
    (hlen : old.length = pixels.length) :
    Delta first old pixels (List.zipWith (fun next out => thresholdPixel search pPal beyond
      (if !first then some out else none) next) pixels old) := by
  have htransparent (q p : GifPixel) :
      (thresholdPixel search pPal beyond (if !first then some q else none) p).a = 0 ↔
        first = false ∧ q.rgb = p.rgb := by
    rw [thresholdPixel_transparent_iff hsearch hdepth]
    cases first <;> simp
  refine ⟨by rw [List.length_zipWith, hlen, Nat.min_self], ?_, ?_⟩
  · intro i q p r hq hp hr
    rw [List.getElem?_zipWith, hp, hq] at hr
    cases hr
    exact htransparent q p
  · intro i p r hp hr ha
    rw [List.getElem?_zipWith, hp] at hr
    cases hq : old[i]? with
    | none =>
      rw [hq] at hr
      cases hr
    | some q =>
      rw [hq] at hr
      cases hr
      obtain ⟨rfl, hrgb⟩ := (htransparent q p).mp ha
      exact thresholdPixel_rgb hrgb

/-! ### Sequences of frames -/

/-- A frame to add. -/
structure SourceFrame where
  pixels : List GifPixel
  delay : Nat
  env : Uninit

/-- The call that adds it. -/
def SourceFrame.op (width height : Nat) (source : SourceFrame) : BuilderOp :=
  .addImage (some ⟨.r8g8b8a8Unorm, width, height, source.pixels⟩) source.delay source.env

structure SourceFrame.Fits (width height : Nat) (source : SourceFrame) : Prop where
  pixels : source.pixels.length = width * height
  delay_ne_zero : source.delay ≠ 0

/-- The canvases and frames that come from the sources one after the other, over the canvas `old`;
`first` says that nothing is displayed yet. -/
inductive Deltas (width height : Nat) : Bool → List GifPixel → List SourceFrame →
    List (List GifPixel) → List GifFrame → Prop where
  | nil {first : Bool} {old : List GifPixel} : Deltas width height first old [] [] []
  | cons {first : Bool} {old canvas : List GifPixel} {source : SourceFrame} {frame : GifFrame}
      {sources : List SourceFrame} {canvases : List (List GifPixel)} {frames : List GifFrame}
      (hframe : FrameOf width height (source.delay % 2 ^ 16) canvas frame)
      (hdelta : Delta first old source.pixels canvas)
      (htail : Deltas width height false canvas sources canvases frames) :
      Deltas width height first old (source :: sources) (canvas :: canvases) (frame :: frames)

namespace Deltas

variable {width height : Nat} {first : Bool} {old : List GifPixel} {sources : List SourceFrame}
  {canvases : List (List GifPixel)} {frames : List GifFrame}

lemma length_eq (h : Deltas width height first old sources canvases frames) :
    canvases.length = sources.length ∧ frames.length = sources.length := by
  induction h with
  | nil => exact ⟨rfl, rfl⟩
  | cons _ _ _ ih => exact ⟨congrArg (· + 1) ih.1, congrArg (· + 1) ih.2⟩

lemma inPlace (h : Deltas width height first old sources canvases frames) :
    ∀ frame ∈ frames, frame.disposal = 1 ∧ frame.transparent = some 0 := by
  induction h with
  | nil => exact fun _ h => absurd h List.not_mem_nil
  | cons hframe _ _ ih => exact List.forall_mem_cons.mpr ⟨⟨hframe.disposal, hframe.transparent⟩, ih⟩

lemma length_canvas (h : Deltas width height first old sources canvases frames)
    (hfits : ∀ source ∈ sources, source.Fits width height) {canvas : List GifPixel}
    (hcanvas : canvas ∈ canvases) : canvas.length = width * height := by
  induction h with
  | nil => exact absurd hcanvas List.not_mem_nil
  | cons _ hdelta _ ih =>
    obtain ⟨hsource, hfits⟩ := List.forall_mem_cons.mp hfits
    rcases List.mem_cons.mp hcanvas with rfl | hcanvas
    · exact hdelta.length.trans hsource.pixels
    · exact ih hfits hcanvas

/-- The viewer has the colours of the encoder's canvas after each frame. -/
lemma displayed (h : Deltas width height first old sources canvases frames)
    (hfits : ∀ source ∈ sources, source.Fits width height) (hold : old.length = width * height)
    {screen : List Rgb} (hscreen : screen.length = width * height)
    (hfirst : first = false → screen = old.map GifPixel.rgb) {k : Nat} {canvas : List GifPixel}
    (hcanvas : canvases[k]? = some canvas) :
    (frames.take (k + 1)).foldl (drawFrame width) screen = canvas.map GifPixel.rgb := by
  induction h generalizing screen k with
  | nil => cases hcanvas
  | @cons first old canvas' source frame sources canvases frames hframe hdelta _ ih =>
    obtain ⟨hsource, hfits⟩ := List.forall_mem_cons.mp hfits
    have hlen : canvas'.length = width * height := hdelta.length.trans hsource.pixels
    have hdraw : drawFrame width screen frame = canvas'.map GifPixel.rgb := by
      refine hframe.drawFrame_eq hlen hscreen fun {i rgb p} hrgb hp ha => ?_
      have hi : i < width * height := hlen ▸ (List.getElem?_eq_some_iff.mp hp).1
      have hq := List.getElem?_eq_getElem (hold.symm ▸ hi)
      have hs := List.getElem?_eq_getElem (hsource.pixels.symm ▸ hi)
      obtain ⟨hfalse, heq⟩ := (hdelta.transparent_iff hq hs hp).mp ha
      rw [hfirst hfalse, List.getElem?_map, hq] at hrgb
      cases hrgb
      exact heq.trans (hdelta.displayed hs hp ha).symm
    rw [List.take_succ_cons, List.foldl_cons, hdraw]
    cases k with
    | zero =>
      cases hcanvas
      rfl
    | succ k => exact ih hfits hlen (by rw [List.length_map, hlen]) (fun _ => rfl) hcanvas

/-- The first frame. -/
lemma get_zero (h : Deltas width height first old sources canvases frames) {frame : GifFrame}
    (hframe : frames[0]? = some frame) :
    ∃ source canvas, sources[0]? = some source ∧
      FrameOf width height (source.delay % 2 ^ 16) canvas frame ∧
      Delta first old source.pixels canvas := by
  cases h with
  | nil => cases hframe
  | cons hframe' hdelta _ =>
    cases hframe
    exact ⟨_, _, rfl, hframe', hdelta⟩

/-- Each later frame is the difference to the canvas before it. -/
lemma get_succ (h : Deltas width height first old sources canvases frames) {k : Nat}
    {frame : GifFrame} {source : SourceFrame} {before after : List GifPixel}
    (hframe : frames[k + 1]? = some frame) (hsource : sources[k + 1]? = some source)
    (hbefore : canvases[k]? = some before) (hafter : canvases[k + 1]? = some after) :
    FrameOf width height (source.delay % 2 ^ 16) after frame ∧
      Delta false before source.pixels after := by
  induction h generalizing k with
  | nil => cases hframe
  | cons _ _ htail ih =>
    cases k with
    | zero =>
      cases hbefore
      cases htail with
      | nil => cases hframe
      | cons hframe' hdelta _ =>
        cases hframe
        cases hsource
        cases hafter
        exact ⟨hframe', hdelta⟩
    | succ k => exact ih hframe hsource hbefore hafter

end Deltas

/-! ### Whole runs -/

/-- What a viewer shows of the file on a canvas of its logical screen is what the encoder has in
`oldImage` after each frame, and where a frame changes nothing this is right. -/
structure Replayed (sources : List SourceFrame) (canvases : List (List GifPixel)) (file : GifFile) :
    Prop where
  length : canvases.length = sources.length ∧ file.frames.length = sources.length
  inPlace : ∀ frame ∈ file.frames, frame.disposal = 1 ∧ frame.transparent = some 0
  displayed : ∀ screen : List Rgb, screen.length = file.width * file.height → ∀ k canvas,
    canvases[k]? = some canvas →
      (file.frames.take (k + 1)).foldl (drawFrame file.width) screen = canvas.map GifPixel.rgb
  first : ∀ frame, file.frames[0]? = some frame →
    ∀ i < file.width * file.height, ¬ frame.TransparentAt i
  later : ∀ k frame source before after, file.frames[k + 1]? = some frame →
    sources[k + 1]? = some source → canvases[k]? = some before → canvases[k + 1]? = some after →
    ∀ i < file.width * file.height,
      (frame.TransparentAt i ↔
        source.pixels[i]?.map GifPixel.rgb = before[i]?.map GifPixel.rgb) ∧
      (frame.TransparentAt i →
        after[i]?.map GifPixel.rgb = source.pixels[i]?.map GifPixel.rgb)

theorem Deltas.replayed {sources : List SourceFrame} {old : List GifPixel}
    {canvases : List (List GifPixel)} {file : GifFile}
    (h : Deltas file.width file.height true old sources canvases file.frames)
    (hfits : ∀ source ∈ sources, source.Fits file.width file.height)
    (hold : old.length = file.width * file.height) : Replayed sources canvases file where
  length := h.length_eq
  inPlace := h.inPlace
  displayed _ hscreen _ _ hcanvas := h.displayed hfits hold hscreen (fun h => by cases h) hcanvas
  first frame hframe i hi := by
    obtain ⟨source, canvas, hsource, hframe', hdelta⟩ := h.get_zero hframe
    have hpixels := (hfits source (List.mem_of_getElem? hsource)).pixels
    have hcanvas := hdelta.length.trans hpixels
    have hp := List.getElem?_eq_getElem (hpixels.symm ▸ hi)
    have hq := List.getElem?_eq_getElem (hold.symm ▸ hi)
    have hr := List.getElem?_eq_getElem (hcanvas.symm ▸ hi)
    rw [hframe'.transparentAt_iff hcanvas hr, hdelta.transparent_iff hq hp hr]
    exact fun h => absurd h.1 (by decide)
  later k frame source before after hframe hsource hbefore hafter i hi := by
    obtain ⟨hframe', hdelta⟩ := h.get_succ hframe hsource hbefore hafter
    have hpixels := (hfits source (List.mem_of_getElem? hsource)).pixels
    have hbefore' := h.length_canvas hfits (List.mem_of_getElem? hbefore)
    have hafter' := hdelta.length.trans hpixels
    have hp := List.getElem?_eq_getElem (hpixels.symm ▸ hi)
    have hq := List.getElem?_eq_getElem (hbefore'.symm ▸ hi)
    have hr := List.getElem?_eq_getElem (hafter'.symm ▸ hi)
    rw [hframe'.transparentAt_iff hafter' hr, hp, hq, hr]
    refine ⟨?_, fun ha => congrArg some (hdelta.displayed hp hr ha)⟩
    rw [hdelta.transparent_iff hq hp hr, Option.map_some, Option.map_some, Option.some_inj]
    exact ⟨fun h => h.2.symm, fun h => ⟨rfl, h.symm⟩⟩

namespace BuilderRun

variable {search : PaletteSearch} {width height delay : Nat} {s : BuilderRun}
  {chunks : List (List UInt8)} {frames : List GifFrame}

/-- Adding frames to an open file: they are all accepted, and come one as the difference to the
other. -/
lemma Open.run_frames (hsearch : search.InRange) (hext : Extents width height)
    (h : Open width height delay s chunks frames) {sources : List SourceFrame}
    (hfits : ∀ source ∈ sources, source.Fits width height) :
    ∃ t calls chunks' frames',
      Runs.run (step search) s (sources.map (SourceFrame.op width height)) = .ok t ∧
      t.calls = s.calls ++ calls ∧ (∀ c ∈ calls, c.result = .added true) ∧
      Open width height delay t (chunks ++ chunks') (frames ++ frames') ∧
      Deltas (width % 2 ^ 16) (height % 2 ^ 16) s.builder.writer.firstFrame
        s.builder.writer.oldImage sources (calls.map fun c => c.after.writer.oldImage)
        frames' := by
  induction sources generalizing s chunks frames with
  | nil =>
    refine ⟨s, [], [], [], rfl, (List.append_nil _).symm, fun _ h => absurd h List.not_mem_nil, ?_,
      .nil⟩
    rwa [List.append_nil, List.append_nil]
  | cons source sources ih =>
    obtain ⟨hsource, hfits⟩ := List.forall_mem_cons.mp hfits
    have hop : (source.op width height).Fits width height :=
      BuilderOp.fits_addImage (fun _ => hsource.pixels) _ _
    obtain ⟨pPal, canvas, frame, bytes, hdepth, hcanvas, hframe, hcall, hopen⟩ :=
      h.addImage hsearch hext source.env hop hsource.delay_ne_zero rfl
    obtain ⟨t, calls, chunks', frames', hrun, hcalls, hadded, hopen', hdeltas⟩ := ih hopen hfits
    have hdelta := delta_zipWith hsearch hdepth source.env.beyond s.builder.writer.firstFrame
      (h.canvas.trans hsource.pixels.symm)
    rw [← hcanvas] at hdelta
    rw [List.append_assoc] at hcalls
    rw [List.append_assoc, List.append_assoc] at hopen'
    exact ⟨t, _ :: calls, _, _, run_cons_ok.mpr ⟨_, step_eq hcall, hrun⟩, hcalls,
      List.forall_mem_cons.mpr ⟨rfl, hadded⟩, hopen', .cons hframe hdelta hdeltas⟩

/-- Adding frames to a new builder. -/
lemma run_frames_initialize (hsearch : search.InRange) (hext : Extents width height)
    (delay : Nat) (garbage : Pixels) {sources : List SourceFrame}
    (hfits : ∀ source ∈ sources, source.Fits width height) :
    ∃ t bytes file old,
      Runs.run (step search) ⟨gifBuilderInitialize garbage width height delay, []⟩
        (sources.map (SourceFrame.op width height)) = .ok t ∧
      (∀ c ∈ t.calls, c.result = .added true) ∧
      (gifBuilderFinalize t.builder).1 = some bytes ∧ parseGif bytes = some file ∧
      file.width = width % 2 ^ 16 ∧ file.height = height % 2 ^ 16 ∧ old.length = width * height ∧
      Deltas file.width file.height true old sources
        (t.calls.map fun c => c.after.writer.oldImage) file.frames := by
  have hopen := open_initialize hext delay garbage
  have hfirst : (gifBuilderInitialize garbage width height delay).writer.firstFrame = true := rfl
  obtain ⟨t, calls, chunks, frames, hrun, hcalls, hadded, hopen', hdeltas⟩ :=
    hopen.run_frames hsearch hext hfits
  rw [List.nil_append] at hcalls
  rw [hfirst, ← hcalls] at hdeltas
  rw [← hcalls] at hadded
  exact ⟨t, _, _, _, hrun, hadded, (gifBuilderFinalize_open hopen'.stream).1,
    hopen'.parseGif_contents, rfl, rfl, hopen.canvas, hdeltas⟩

/-- Frames added to a new builder make a file that a viewer replays as the encoder intends,
whichever opaque indices the search finds. -/
theorem replayed_initialize (hsearch : search.InRange) (hext : Extents width height)
    (hwidth : width ≤ 65535) (hheight : height ≤ 65535) (delay : Nat) (garbage : Pixels)
    {sources : List SourceFrame} (hfits : ∀ source ∈ sources, source.Fits width height) :
    ∃ t bytes file,
      Runs.run (step search) ⟨gifBuilderInitialize garbage width height delay, []⟩
        (sources.map (SourceFrame.op width height)) = .ok t ∧
      (∀ c ∈ t.calls, c.result = .added true) ∧
      (gifBuilderFinalize t.builder).1 = some bytes ∧ parseGif bytes = some file ∧
      file.width = width ∧ file.height = height ∧
      Replayed sources (t.calls.map fun c => c.after.writer.oldImage) file := by
  obtain ⟨t, bytes, file, old, hrun, hadded, hbytes, hfile, hw, hh, hold, hdeltas⟩ :=
    run_frames_initialize hsearch hext delay garbage hfits
  rw [Nat.mod_eq_of_lt (by omega)] at hw hh
  exact ⟨t, bytes, file, hrun, hadded, hbytes, hfile, hw, hh,
    hdeltas.replayed (by rwa [hw, hh]) (by rwa [hw, hh])⟩

/-- A frame of one colour, and one in which a single pixel changes. -/
theorem replayed_initialize_two :
    let first := List.replicate 400 (⟨1, 2, 3, 255⟩ : GifPixel)
    let second := ⟨9, 9, 9, 255⟩ :: List.replicate 399 (⟨1, 2, 3, 255⟩ : GifPixel)
    let sources : List SourceFrame := [⟨first, 5, default⟩, ⟨second, 7, default⟩]
    ∃ t bytes file,
      Runs.run (step closestIndex) ⟨gifBuilderInitialize (fun _ => default) 20 20 10, []⟩
        (sources.map (SourceFrame.op 20 20)) = .ok t ∧
      (∀ c ∈ t.calls, c.result = .added true) ∧
      (gifBuilderFinalize t.builder).1 = some bytes ∧ parseGif bytes = some file ∧
      file.width = 20 ∧ file.height = 20 ∧
      Replayed sources (t.calls.map fun c => c.after.writer.oldImage) file := by
  intro first second sources
  have hfirst : first.length = 20 * 20 := List.length_replicate
  have hsecond : second.length = 20 * 20 := congrArg (· + 1) List.length_replicate
  apply replayed_initialize closestIndex_inRange ⟨by decide, by decide, by decide⟩ (by decide)
    (by decide) 10 (fun _ => default)
  intro source hsource
  simp only [sources, List.mem_cons, List.not_mem_nil, or_false] at hsource
  rcases hsource with rfl | rfl
  · exact ⟨hfirst, show 5 ≠ 0 by decide⟩
  · exact ⟨hsecond, show 7 ≠ 0 by decide⟩

/-- The file has only the low 16 bits of the extents: one frame of 65536 x 1 pixels makes a file
whose logical screen is empty. -/
theorem not_replayed_wide :
    ∃ t bytes file,
      Runs.run (step closestIndex) ⟨gifBuilderInitialize (fun _ => default) 65536 1 10, []⟩
        ([⟨List.replicate 65536 ⟨1, 2, 3, 255⟩, 5, default⟩].map (SourceFrame.op 65536 1)) = .ok t ∧
      (gifBuilderFinalize t.builder).1 = some bytes ∧ parseGif bytes = some file ∧
      ¬ Replayed [⟨List.replicate 65536 ⟨1, 2, 3, 255⟩, 5, default⟩]
        (t.calls.map fun c => c.after.writer.oldImage) file := by
  have hfits : ∀ source ∈ [(⟨List.replicate 65536 ⟨1, 2, 3, 255⟩, 5, default⟩ : SourceFrame)],
      source.Fits 65536 1 := by
    intro source hsource
    rw [List.mem_singleton.mp hsource]
    exact ⟨List.length_replicate, by decide⟩
  obtain ⟨t, bytes, file, old, hrun, -, hbytes, hfile, hw, -, -, hdeltas⟩ :=
    run_frames_initialize closestIndex_inRange ⟨by decide, by decide, by decide⟩ 10
      (fun _ => default) hfits
  refine ⟨t, bytes, file, hrun, hbytes, hfile, fun h => ?_⟩
  generalize t.calls.map (fun c => c.after.writer.oldImage) = canvases at hdeltas h
  generalize hframes : file.frames = frames at hdeltas
  cases hdeltas with
  | @cons _ _ canvas _ _ _ _ _ _ hdelta _ =>
    have hzero : file.width * file.height = 0 := by
      rw [hw]
      exact Nat.zero_mul _
    have hdraw := h.displayed [] hzero.symm 0 canvas rfl
    rw [hframes] at hdraw
    have hnil : canvas = [] := List.map_eq_nil_iff.mp hdraw.symm
    have hlen := hdelta.length
    rw [hnil, List.length_replicate] at hlen
    cases hlen

end BuilderRun

end GifTools
