import GifTools.Gif.Frame

/-!
# The file a builder returns

Between its initialization and its end a builder holds the screen and the frames written so far
(`Open`). Every call has its answer (`Answers`): images are added or refused, the first end returns
a file with just the frames added, later calls change nothing.
-/

namespace GifTools

open Runs

/-! ### Parsing a file -/

section

variable {frames : List GifFrame} {chunks : List (List UInt8)}

lemma length_le_flatten (h : List.Forall₂ Parses frames chunks) :
    frames.length ≤ chunks.flatten.length := by
  induction h with
  | nil => exact Nat.zero_le _
  | cons hframe _ ih =>
    obtain ⟨tail, rfl⟩ := hframe.head
    rw [List.length_cons, List.flatten_cons, List.length_append, List.length_cons]
    omega

/-- What follows the screen never begins as the looping extension. -/
lemma expect_netscapeExtension (h : List.Forall₂ Parses frames chunks) :
    expect netscapeExtension (chunks.flatten ++ [0x3b]) = none := by
  cases h with
  | nil => rfl
  | cons hframe _ =>
    obtain ⟨tail, rfl⟩ := hframe.head
    rfl

lemma parseFrames_flatten (h : List.Forall₂ Parses frames chunks) {n : Nat}
    (hn : frames.length < n) : parseFrames n (chunks.flatten ++ [0x3b]) = some frames := by
  induction h generalizing n with
  | nil =>
    obtain ⟨n, rfl⟩ := Nat.exists_eq_add_of_lt hn
    rfl
  | @cons frame chunk frames chunks hframe _ ih =>
    obtain ⟨n, rfl⟩ := Nat.exists_eq_add_of_lt hn
    have hne : chunk ++ (chunks.flatten ++ [0x3b]) ≠ [0x3b] := by
      obtain ⟨tail, rfl⟩ := hframe.head
      exact fun h => absurd (List.cons.inj h).1 (by decide)
    rw [List.flatten_cons, List.append_assoc, parseFrames, if_neg hne]
    exact parse_bind (hframe.parse _) (parse_bind (ih (by rw [List.length_cons]; omega)) rfl)

/-- The screen, frames and the trailer are parsed as a file with these frames. -/
lemma parseGif_screenBytes (width height delay : Nat) (h : List.Forall₂ Parses frames chunks) :
    parseGif (screenBytes width height delay ++ (chunks.flatten ++ [0x3b])) =
      some ⟨width % 2 ^ 16, height % 2 ^ 16, [(0, 0, 0), (0, 0, 0)], decide (delay ≠ 0),
        frames⟩ := by
  have hframes := parseFrames_flatten h (n := (chunks.flatten ++ [0x3b]).length) (by
    rw [List.length_append]
    exact Nat.lt_succ_of_le (length_le_flatten h))
  have hlooping : parseLooping ((if delay ≠ 0 then netscapeExtension else []) ++
      (chunks.flatten ++ [0x3b])) = (decide (delay ≠ 0), chunks.flatten ++ [0x3b]) := by
    by_cases hdelay : delay = 0
    · rw [if_neg (not_not.mpr hdelay), List.nil_append, parseLooping, expect_netscapeExtension h,
        decide_eq_false (not_not.mpr hdelay)]
    · rw [if_pos hdelay, parseLooping, expect_append, decide_eq_true hdelay]
  simp only [screenBytes, List.append_assoc, List.cons_append]
  apply parse_bind (expect_append _ _)
  apply parse_bind (parseWord_wordBytes width _)
  apply parse_bind (parseWord_wordBytes height _)
  apply parse_bind (parseByte_cons _ _)
  apply parse_bind (show tableSize 0xf0 = some 2 from rfl)
  apply parse_bind (show parseWord (0 :: 0 :: _) = some (0, _) from rfl)
  apply parse_bind (parseTable_tableBytes [(0, 0, 0), (0, 0, 0)] _)
  simp only [hlooping]
  exact parse_bind hframes rfl

end

/-! ### Calls and their answers -/

/-- Extents for which no `int` overflows: `GifSplitPalette` multiplies the number of pixels by up to
127. -/
structure Extents (width height : Nat) : Prop where
  width_pos : 0 < width
  height_pos : 0 < height
  size_lt : 127 * (width * height) < 2 ^ 31

/-- The call is one for a canvas of this size: an image with four bytes a pixel has a pixel for each
of the canvas. -/
def BuilderOp.Fits (width height : Nat) : BuilderOp → Prop
  | .addImage imageObj _ _ => ∀ image ∈ imageObj, image.width = width ∧ image.height = height ∧
      (image.format = .r8g8b8a8Unorm → image.pixels.length = width * height)
  | .finalize => True

lemma BuilderOp.fits_addImage {width height : Nat} {format : PixelFormat}
    {pixels : List GifPixel} (h : format = .r8g8b8a8Unorm → pixels.length = width * height)
    (delay : Nat) (env : Uninit) :
    (BuilderOp.addImage (some ⟨format, width, height, pixels⟩) delay env).Fits width height := by
  intro image himage
  cases himage
  exact ⟨rfl, rfl, h⟩

namespace BuilderRun

variable (search : PaletteSearch) (width height delay : Nat) (s : BuilderRun)

/-- There was a call of `End` before. -/
def Ended : Prop := ∃ c ∈ s.calls, c.op = .finalize

/-- The calls of `AddImage` that returned true. -/
def written : List BuilderCall := s.calls.filter fun c => c.result = .added true

/-- The frame is the one a call added: it has the delay of the call, as far as 16 bits can hold it,
and shows what the call left in `oldImage`. -/
def Shows (c : BuilderCall) (frame : GifFrame) : Prop :=
  ∃ imageObj delay env, c.op = .addImage imageObj delay env ∧
    FrameOf width height (delay % 2 ^ 16) c.after.writer.oldImage frame

/-- A file with the frames written and no others. -/
def HoldsFile (bytes : List UInt8) : Prop :=
  ∃ file, parseGif bytes = some file ∧ file.width = width ∧ file.height = height ∧
    file.globalTable.length = 2 ∧ (file.looping = true ↔ delay ≠ 0) ∧
    List.Forall₂ (Shows width height) s.written file.frames

/-- How a call is answered. -/
def Answers : BuilderOp → Prop
  | .addImage imageObj imageDelay env =>
    ∃ result after, call search s.builder (.addImage imageObj imageDelay env) =
        .ok (.added result, after) ∧
      (result = true ↔ ¬ s.Ended ∧ imageDelay ≠ 0 ∧
        ∃ image ∈ imageObj, image.format = .r8g8b8a8Unorm) ∧
      (result = false → after = s.builder)
  | .finalize =>
    ∃ buffer after, call search s.builder .finalize = .ok (.finalized buffer, after) ∧
      (¬ s.Ended → ∃ bytes, buffer = some bytes ∧ HoldsFile width height delay s bytes) ∧
      (s.Ended → buffer = none ∧ after = s.builder)

/-- The state before the end: the screen and the frames written are in the buffer. -/
structure Open (chunks : List (List UInt8)) (frames : List GifFrame) : Prop where
  stream : s.builder.writer.stream = true
  canvas : s.builder.writer.oldImage.length = width * height
  contents : s.builder.vectorBuffer.contents = screenBytes width height delay ++ chunks.flatten
  parses : List.Forall₂ Parses frames chunks
  shows : List.Forall₂ (Shows (width % 2 ^ 16) (height % 2 ^ 16)) s.written frames
  notEnded : ¬ s.Ended

/-- The state after the end. -/
structure Closed : Prop where
  stream : s.builder.writer.stream = false
  ended : s.Ended

def Inv : Prop := (∃ chunks frames, Open width height delay s chunks frames) ∨ Closed s

variable {search width height delay s}

/-! ### The calls made -/

lemma ended_append {c : BuilderCall} {builder : GifBuilderGIFH} :
    Ended ⟨builder, s.calls ++ [c]⟩ ↔ s.Ended ∨ c.op = .finalize := by
  simp only [Ended, List.mem_append, List.mem_singleton, or_and_right, exists_or, exists_eq_left]

lemma written_append {c : BuilderCall} {builder : GifBuilderGIFH} :
    written ⟨builder, s.calls ++ [c]⟩ =
      s.written ++ if c.result = .added true then [c] else [] := by
  rw [written, List.filter_append, written]
  by_cases h : c.result = .added true <;> simp [h]

/-! ### One call -/

variable {chunks : List (List UInt8)} {frames : List GifFrame}

lemma step_eq {op : BuilderOp} {result : BuilderResult} {after : GifBuilderGIFH}
    (h : call search s.builder op = .ok (result, after)) :
    step search s op = .ok ⟨after, s.calls ++ [⟨op, result, after⟩]⟩ := by
  rw [step, h]
  rfl

/-- An accepted image extends the file by one frame. -/
theorem Open.addImage (hsearch : search.InRange) (hext : Extents width height)
    (h : Open width height delay s chunks frames) {image : Image} {imageDelay : Nat} (env : Uninit)
    (hfits : (BuilderOp.addImage (some image) imageDelay env).Fits width height)
    (hdelay : imageDelay ≠ 0) (hformat : image.format = .r8g8b8a8Unorm) :
    ∃ pPal canvas frame bytes, pPal.bitDepth = 8 ∧
      canvas = List.zipWith (fun next out => thresholdPixel search pPal env.beyond
        (if !s.builder.writer.firstFrame then some out else none) next)
          image.pixels s.builder.writer.oldImage ∧
      FrameOf (width % 2 ^ 16) (height % 2 ^ 16) (imageDelay % 2 ^ 16) canvas frame ∧
      let after : GifBuilderGIFH :=
        ⟨⟨true, canvas, false⟩, ⟨s.builder.vectorBuffer.contents ++ bytes⟩⟩
      call search s.builder (.addImage (some image) imageDelay env) = .ok (.added true, after) ∧
        Open width height delay
          ⟨after, s.calls ++ [⟨.addImage (some image) imageDelay env, .added true, after⟩]⟩
          (chunks ++ [bytes]) (frames ++ [frame]) := by
  obtain ⟨rfl, rfl, hpixels⟩ := hfits image rfl
  have hsize := hext.size_lt
  obtain ⟨pPal, canvas, frame, bytes, hdepth, hcanvas, hadd, hparses, hframe⟩ :=
    gifBuilderAddImage_accepted hsearch h.stream hdelay hformat hext.width_pos hext.height_pos
      (by omega) (hpixels hformat) h.canvas env
  refine ⟨pPal, canvas, frame, bytes, hdepth, hcanvas, hframe, by rw [call, hadd]; rfl, rfl, ?_,
    ?_, ?_, ?_, ?_⟩
  · rw [hcanvas, List.length_zipWith, hpixels hformat, h.canvas, Nat.min_self]
  · simp [h.contents]
  · exact List.rel_append h.parses (.cons hparses .nil)
  · rw [written_append]
    exact List.rel_append h.shows (.cons ⟨_, _, _, rfl, hframe⟩ .nil)
  · rw [ended_append]
    rintro (hended | hop)
    · exact h.notEnded hended
    · cases hop

/-- A refused image changes nothing. -/
lemma Inv.refuse (h : Inv width height delay s) {imageObj : Option Image} {imageDelay : Nat}
    {env : Uninit} : Inv width height delay
      ⟨s.builder, s.calls ++ [⟨.addImage imageObj imageDelay env, .added false, s.builder⟩]⟩ := by
  rcases h with ⟨chunks, frames, h⟩ | h
  · refine .inl ⟨chunks, frames, h.stream, h.canvas, h.contents, h.parses, ?_, ?_⟩
    · rw [written_append]
      simpa using h.shows
    · rw [ended_append]
      rintro (hended | hop)
      · exact h.notEnded hended
      · cases hop
  · exact .inr ⟨h.stream, ended_append.mpr (.inl h.ended)⟩

lemma Inv.stream_eq_false (h : Inv width height delay s) :
    s.builder.writer.stream = false ↔ s.Ended := by
  rcases h with ⟨chunks, frames, h⟩ | h
  · rw [h.stream]
    exact iff_of_false (by decide) h.notEnded
  · exact iff_of_true h.stream h.ended

lemma gifBuilderFinalize_open {builder : GifBuilderGIFH} (h : builder.writer.stream = true) :
    (gifBuilderFinalize builder).1 = some (builder.vectorBuffer.contents ++ [0x3b]) ∧
      (gifBuilderFinalize builder).2.writer.stream = false := by
  rw [gifBuilderFinalize, gifEnd, h]
  exact ⟨if_neg (List.append_ne_nil_of_right_ne_nil _ (List.cons_ne_nil _ _)), rfl⟩

lemma gifBuilderFinalize_closed {builder : GifBuilderGIFH} (h : builder.writer.stream = false) :
    gifBuilderFinalize builder = (none, builder) := by
  rw [gifBuilderFinalize, gifEnd, h]
  rfl

lemma Open.parseGif_contents (h : Open width height delay s chunks frames) :
    parseGif (s.builder.vectorBuffer.contents ++ [0x3b]) =
      some ⟨width % 2 ^ 16, height % 2 ^ 16, [(0, 0, 0), (0, 0, 0)], decide (delay ≠ 0),
        frames⟩ := by
  rw [h.contents, List.append_assoc]
  exact parseGif_screenBytes width height delay h.parses

lemma Open.holdsFile (h : Open width height delay s chunks frames) :
    HoldsFile (width % 2 ^ 16) (height % 2 ^ 16) delay s
      (s.builder.vectorBuffer.contents ++ [0x3b]) :=
  ⟨_, h.parseGif_contents, rfl, rfl, rfl, decide_eq_true_iff, h.shows⟩

/-- Each call is answered, and keeps the invariant. -/
theorem Inv.answers (hsearch : search.InRange) (hext : Extents width height)
    (h : Inv width height delay s) {op : BuilderOp} (hop : op.Fits width height) :
    Answers search (width % 2 ^ 16) (height % 2 ^ 16) delay s op ∧
      ∃ t, step search s op = .ok t ∧ Inv width height delay t := by
  cases op with
  | addImage imageObj imageDelay env =>
    by_cases hacc : ¬ s.Ended ∧ imageDelay ≠ 0 ∧ ∃ image ∈ imageObj, image.format = .r8g8b8a8Unorm
    · obtain ⟨hended, hdelay, image, rfl, hformat⟩ := hacc
      obtain ⟨chunks, frames, hopen⟩ := h.resolve_right fun h => hended h.ended
      obtain ⟨pPal, canvas, frame, bytes, -, -, -, hcall, hopen'⟩ :=
        hopen.addImage hsearch hext env hop hdelay hformat
      exact ⟨⟨true, _, hcall, iff_of_true rfl ⟨hended, hdelay, image, rfl, hformat⟩,
        fun h => by cases h⟩, _, step_eq hcall, .inl ⟨_, _, hopen'⟩⟩
    · have hrefuse : gifBuilderAddImage search s.builder imageObj imageDelay env =
          .ok (false, s.builder) := gifBuilderAddImage_refused (by
        rw [h.stream_eq_false]
        tauto)
      have hcall : call search s.builder (.addImage imageObj imageDelay env) =
          .ok (.added false, s.builder) := by
        rw [call, hrefuse]
        rfl
      exact ⟨⟨false, _, hcall, iff_of_false (by decide) hacc, fun _ => rfl⟩, _, step_eq hcall,
        h.refuse⟩
  | finalize =>
    by_cases hended : s.Ended
    · have hcall : call search s.builder .finalize = .ok (.finalized none, s.builder) := by
        rw [call, gifBuilderFinalize_closed (h.stream_eq_false.mpr hended)]
      exact ⟨⟨none, _, hcall, fun h => absurd hended h, fun _ => ⟨rfl, rfl⟩⟩, _, step_eq hcall,
        .inr ⟨h.stream_eq_false.mpr hended, ended_append.mpr (.inl hended)⟩⟩
    · obtain ⟨chunks, frames, hopen⟩ := h.resolve_right fun h => hended h.ended
      obtain ⟨hbuffer, hstream⟩ := gifBuilderFinalize_open hopen.stream
      have hcall : call search s.builder .finalize =
          .ok (.finalized (some (s.builder.vectorBuffer.contents ++ [0x3b])),
            (gifBuilderFinalize s.builder).2) := by
        rw [call, ← hbuffer]
      exact ⟨⟨_, _, hcall, fun _ => ⟨_, rfl, hopen.holdsFile⟩, fun h => absurd h hended⟩, _,
        step_eq hcall, .inr ⟨hstream, ended_append.mpr (.inr rfl)⟩⟩

/-! ### Whole runs -/

lemma open_initialize (hext : Extents width height) (delay : Nat) (garbage : Pixels) :
    Open width height (uint32 delay) ⟨gifBuilderInitialize garbage width height delay, []⟩
      [] [] := by
  have hsize := hext.size_lt
  rw [gifBuilderInitialize_eq garbage hext.width_pos hext.height_pos (by omega)]
  exact ⟨rfl, by simp, (List.append_nil _).symm, .nil, .nil, by simp [Ended]⟩

/-- From a state with the invariant no call faults, and each is answered. -/
lemma Inv.run (hsearch : search.InRange) (hext : Extents width height)
    (h : Inv width height delay s) {ops : List BuilderOp}
    (hops : ∀ op ∈ ops, op.Fits width height) :
    (∃ t, Runs.run (step search) s ops = .ok t ∧ Inv width height delay t) ∧
      Along (step search) (Answers search (width % 2 ^ 16) (height % 2 ^ 16) delay) s ops := by
  induction ops generalizing s with
  | nil => exact ⟨⟨s, rfl, h⟩, along_nil⟩
  | cons op ops ih =>
    obtain ⟨hop, hops⟩ := List.forall_mem_cons.mp hops
    obtain ⟨hanswers, t, hstep, ht⟩ := h.answers hsearch hext hop
    obtain ⟨⟨u, hrun, hu⟩, halong⟩ := ih ht hops
    refine ⟨⟨u, run_cons_ok.mpr ⟨t, hstep, hrun⟩, hu⟩, along_cons.mpr ⟨hanswers, fun v hv => ?_⟩⟩
    obtain rfl := Except.ok.inj (hstep.symm.trans hv)
    exact halong

/-- Every sequence of calls on a new builder succeeds, and every call is answered as it should:
images are accepted or refused, the first end returns the file, and the builder changes only where
it has to. -/
theorem answers_initialize (hext : Extents width height) (hwidth : width ≤ 65535)
    (hheight : height ≤ 65535) (hdelay : delay ≤ 65535) (garbage : Pixels) {ops : List BuilderOp}
    (hops : ∀ op ∈ ops, op.Fits width height) :
    (∃ t, Runs.run (step closestIndex)
      ⟨gifBuilderInitialize garbage width height delay, []⟩ ops = .ok t) ∧
    Along (step closestIndex) (Answers closestIndex width height delay)
      ⟨gifBuilderInitialize garbage width height delay, []⟩ ops := by
  have hinit : Inv width height (uint32 delay)
      ⟨gifBuilderInitialize garbage width height delay, []⟩ :=
    .inl ⟨[], [], open_initialize hext delay garbage⟩
  obtain ⟨⟨t, hrun, -⟩, halong⟩ := hinit.run closestIndex_inRange hext hops
  rw [Nat.mod_eq_of_lt (by omega), Nat.mod_eq_of_lt (by omega), uint32_of_lt (by omega)] at halong
  exact ⟨⟨t, hrun⟩, halong⟩

/-- Two frames, the second with one pixel changed, among calls that are refused. -/
theorem answers_initialize_two :
    let first := List.replicate 400 (⟨1, 2, 3, 255⟩ : GifPixel)
    let second := ⟨9, 9, 9, 255⟩ :: List.replicate 399 (⟨1, 2, 3, 255⟩ : GifPixel)
    let ops : List BuilderOp := [.addImage none 5 default,
      .addImage (some ⟨.r8g8b8a8Unorm, 20, 20, first⟩) 5 default,
      .addImage (some ⟨.r8g8b8Unorm, 20, 20, []⟩) 5 default,
      .addImage (some ⟨.r8g8b8a8Unorm, 20, 20, second⟩) 0 default,
      .addImage (some ⟨.r8g8b8a8Unorm, 20, 20, second⟩) 7 default,
      .finalize, .addImage (some ⟨.r8g8b8a8Unorm, 20, 20, first⟩) 5 default, .finalize]
    (∃ t, Runs.run (step closestIndex) ⟨gifBuilderInitialize (fun _ => default) 20 20 10, []⟩
      ops = .ok t) ∧
    Along (step closestIndex) (Answers closestIndex 20 20 10)
      ⟨gifBuilderInitialize (fun _ => default) 20 20 10, []⟩ ops := by
  intro first second ops
  have hfirst : first.length = 20 * 20 := List.length_replicate
  have hsecond : second.length = 20 * 20 := congrArg (· + 1) List.length_replicate
  apply answers_initialize ⟨by decide, by decide, by decide⟩ (by decide) (by decide) (by decide)
  intro op hop
  simp only [ops, List.mem_cons, List.not_mem_nil, or_false] at hop
  rcases hop with rfl | rfl | rfl | rfl | rfl | rfl | rfl | rfl
  · intro image himage
    cases himage
  · exact BuilderOp.fits_addImage (fun _ => hfirst) 5 default
  · exact BuilderOp.fits_addImage (fun h => by cases h) 5 default
  · exact BuilderOp.fits_addImage (fun _ => hsecond) 0 default
  · exact BuilderOp.fits_addImage (fun _ => hsecond) 7 default
  · trivial
  · exact BuilderOp.fits_addImage (fun _ => hfirst) 5 default
  · trivial

end BuilderRun

end GifTools
