import GifTools.Gif.Accesses
import Mathlib.Logic.Relation

/-!
# The sizes and indices of a frame

Extents are `uint32_t`, the sizes of the allocations are computed in 32 bits, and numbers of pixels
are `int`s, which `GifSplitPalette` multiplies by the colours of one side before it divides. All of
this is exact as long as the pixels have fewer than 2³² bytes and 127 times the changed ones fit an
`int`: the first product is the largest.
-/

namespace GifTools

/-- The sizes and products of a frame are what they would be without bounds: those of the copy and
of its pixels; and in each call of `GifSplitPalette` that splits its pixels no number overflows, the
split is among them, and both sides are in the copy. So a palette is made. -/
structure ExactFrame (lastFrame : Option Pixels) (nextFrame : Pixels) (width height : Nat) :
    Prop where
  copy : copyBytes width height = 4 * (width * height)
  numPixels : int32 (width * height : Nat) = (width * height : Nat)
  sides : ∀ args, Relation.ReflTransGen SplitArgs.Calls
      (.root (changedPixels lastFrame nextFrame width height) 8) args → args.Inner →
    ∃ subPixelsA subPixelsB, args.subPixels = .ok (subPixelsA, subPixelsB) ∧ 0 ≤ subPixelsA ∧
      subPixelsA < args.numPixels ∧ 4 * (args.first + args.numPixels) ≤ copyBytes width height
  made : ∀ pPal, ∃ pal, gifMakePalette lastFrame nextFrame width height 8 pPal = .ok pal

/-- How many of the first `n` pixels are not displayed as they will be; all, if nothing is
displayed. -/
def differing (lastFrame : Option Pixels) (nextFrame : Pixels) (n : Nat) : Nat :=
  match lastFrame with
  | none => n
  | some last => (List.range n).countP fun ii => (last ii).rgb ≠ (nextFrame ii).rgb

/-! ### The pixels that are picked -/

section

variable {last frame nextFrame : Pixels} {lastFrame : Option Pixels} {width height n : Nat}

lemma differing_le (lastFrame : Option Pixels) (nextFrame : Pixels) (n : Nat) :
    differing lastFrame nextFrame n ≤ n := by
  cases lastFrame with
  | none => exact le_rfl
  | some last => exact List.countP_le_length.trans_eq List.length_range

lemma changedPixels_eq_differing (h : 4 * (width * height) < 2 ^ 32) :
    changedPixels lastFrame nextFrame width height =
      differing lastFrame nextFrame (width * height) := by
  have hint : int32 (width * height : Nat) = (width * height : Nat) := int32_of_lt (by omega)
  cases lastFrame with
  | none => simp only [changedPixels, splitInput, hint, differing]
  | some last =>
    simp only [changedPixels, splitInput, hint, Int.toNat_natCast,
      (gifPickChangedPixels_spec last nextFrame _).1, differing]

end

/-! ### The calls that split -/

/-- The arguments of a call for a node of the tree: its pixels are among the first `size`, and no
product of theirs is too large. -/
structure SplitArgs.InCell (size : Nat) (args : SplitArgs) : Prop where
  cell : ∃ k, Cell k args.firstElt args.lastElt args.splitElt args.splitDist args.treeNode
  nonneg : 0 ≤ args.numPixels
  product : args.numPixels * 127 < 2 ^ 31
  last : args.first + args.numPixels ≤ size

namespace SplitArgs.InCell

variable {args args' : SplitArgs} {size : Nat}

/-- The numbers of pixels of the two sides. -/
lemma subPixels (h : args.InCell size) (hinner : args.Inner) :
    ∃ subPixelsA subPixelsB : Nat, args.subPixels = .ok ((subPixelsA : Int), (subPixelsB : Int)) ∧
      (subPixelsA + subPixelsB : Int) = args.numPixels ∧ 0 < subPixelsB ∧
      (args.left subPixelsA).InCell size ∧ (args.right subPixelsA subPixelsB).InCell size := by
  obtain ⟨⟨k, hcell⟩, hnonneg, hproduct, hlast⟩ := h
  obtain ⟨hcolors, hpixels⟩ := hinner
  obtain ⟨first, numPixels, firstElt, lastElt, splitElt, splitDist, treeNode⟩ := args
  obtain ⟨n, rfl⟩ := Int.eq_ofNat_of_zero_le hnonneg
  simp only [ne_eq, Nat.cast_eq_zero] at hcolors hpixels hproduct hlast hcell
  obtain ⟨k, rfl⟩ : ∃ j, k = j + 1 := by
    refine Nat.exists_eq_add_one_of_ne_zero ?_
    rintro rfl
    have hfirst := hcell.first
    have hlastElt := hcell.last
    simp only [pow_zero, Nat.mul_one] at hfirst hlastElt
    omega
  obtain ⟨hleft, hright⟩ := hcell.sides (by omega)
  have hsmall := hcell.small
  have hwidth : n * (splitElt - firstElt) ≤ n * 127 := Nat.mul_le_mul_left _ (by omega)
  obtain ⟨subPixelsA, hpart⟩ :
      ∃ subPixelsA, n * (splitElt - firstElt) / (lastElt - firstElt) = subPixelsA := ⟨_, rfl⟩
  have hlt : subPixelsA < n := hpart ▸ part_lt (by have := hright.lt; have := hleft.lt; omega)
    (Nat.pos_of_ne_zero hpixels)
  refine ⟨subPixelsA, n - subPixelsA, subPixels_eq (Nat.pos_of_ne_zero hpixels) hleft.lt hright.lt
    (by omega) hpart first, ?_, by omega, ?_, ?_⟩
  · simp only
    omega
  · refine ⟨⟨k, hleft⟩, Int.natCast_nonneg _, ?_, ?_⟩
    · simp only [SplitArgs.left]
      omega
    · simp only [SplitArgs.left]
      omega
  · refine ⟨⟨k, hright⟩, Int.natCast_nonneg _, ?_, ?_⟩
    · simp only [SplitArgs.right]
      omega
    · simp only [SplitArgs.right, Int.toNat_natCast]
      omega

lemma calls (h : args.InCell size) (hcalls : args.Calls args') : args'.InCell size := by
  obtain ⟨hinner, a, b, hparts, hargs⟩ := hcalls
  obtain ⟨subPixelsA, subPixelsB, hparts', -, -, hleft, hright⟩ := h.subPixels hinner
  cases hparts.symm.trans hparts'
  rcases hargs with rfl | rfl
  · exact hleft
  · exact hright

lemma of_reached (h : args.InCell size)
    (hcalls : Relation.ReflTransGen SplitArgs.Calls args args') : args'.InCell size := by
  induction hcalls with
  | refl => exact h
  | tail _ hcalls ih => exact ih.calls hcalls

end SplitArgs.InCell

/-! ### Frames -/

section

variable {lastFrame : Option Pixels} {nextFrame : Pixels} {width height : Nat}

/-- The first product, if there is a pixel. -/
lemma SplitArgs.lt_of_root {numPixels : Nat}
    (h : (SplitArgs.root numPixels 8).Inner →
      ∃ r, (SplitArgs.root numPixels 8).subPixels = .ok r) : numPixels * 127 < 2 ^ 31 := by
  rcases Nat.eq_zero_or_pos numPixels with rfl | hpos
  · decide
  · obtain ⟨r, hparts⟩ := h ⟨show 1 + 1 < 256 by decide, by simpa [SplitArgs.root] using hpos.ne'⟩
    obtain ⟨product, hproduct, -⟩ := Runs.bind_ok.mp hparts
    have hlt : (numPixels : Int) * ((128 : Nat) - (1 : Nat)) < 2 ^ 31 := (intResult_ok hproduct).2
    omega

/-- The arithmetic of a frame is exact up to a number of pixels, and of changed ones. -/
lemma exactFrame_iff : ExactFrame lastFrame nextFrame width height ↔
    4 * (width * height) < 2 ^ 32 ∧
      differing lastFrame nextFrame (width * height) * 127 < 2 ^ 31 := by
  constructor
  · rintro ⟨hcopy, -, hsides, -⟩
    have hsize : 4 * (width * height) < 2 ^ 32 := by
      rw [← hcopy]
      exact Nat.mod_lt _ (by decide)
    rw [changedPixels_eq_differing hsize] at hsides
    refine ⟨hsize, SplitArgs.lt_of_root fun hinner => ?_⟩
    obtain ⟨_, _, hparts, -⟩ := hsides _ .refl hinner
    exact ⟨_, hparts⟩
  · rintro ⟨hsize, hproduct⟩
    have hcopy : copyBytes width height = 4 * (width * height) := by
      rw [copyBytes, Nat.mul_comm, uint32_of_lt hsize]
    have hchanged : changedPixels lastFrame nextFrame width height =
        differing lastFrame nextFrame (width * height) := changedPixels_eq_differing hsize
    have hle := differing_le lastFrame nextFrame (width * height)
    have hroot : (SplitArgs.root (changedPixels lastFrame nextFrame width height) 8).InCell
        (width * height) := by
      rw [hchanged]
      exact ⟨⟨8, cell_root⟩, Int.natCast_nonneg _, by simp only [SplitArgs.root]; omega,
        by simp only [SplitArgs.root]; omega⟩
    refine ⟨hcopy, int32_of_lt (by omega), ?_, ?_⟩
    · intro args hreached hinner
      have hcell := hroot.of_reached hreached
      obtain ⟨subPixelsA, subPixelsB, hparts, hsum, hpos, -⟩ := hcell.subPixels hinner
      have hlast := hcell.last
      refine ⟨_, _, hparts, Int.natCast_nonneg _, by omega, ?_⟩
      rw [hcopy]
      omega
    · intro pPal
      have hpos : 0 ≤ changedPixels lastFrame nextFrame width height := by omega
      obtain ⟨_, _, -, hmade⟩ := exists_gifMakePalette hpos (by omega)
      exact ⟨_, hmade pPal⟩

end

/-! ### Calls -/

namespace AddImageCall

/-- For a builder of these extents, the canvas has all of its bytes, and so has the copy of a frame
that is not refused; the arithmetic on its pixels is exact, and overflows no number. -/
def IsExact (width height : Nat) (builder : GifBuilderGIFH) (call : AddImageCall) : Prop :=
  ∀ image, call.Accepts builder image →
    canvasBytes width height = 4 * (uint32 width * uint32 height) ∧
      ExactFrame builder.writer.lastFrame (pixelsOf image.pixels) (uint32 image.width)
        (uint32 image.height) ∧
      gifBuilderAddImage closestIndex builder call.imageObj call.delay call.env ≠ .error .overflow

/-- Neither the canvas nor the frame has 2³² bytes, and 127 times the pixels that change fit an
`int`. -/
def IsSmall (width height : Nat) (builder : GifBuilderGIFH) (call : AddImageCall) : Prop :=
  ∀ image, call.Accepts builder image →
    4 * (uint32 width * uint32 height) < 2 ^ 32 ∧
      4 * (uint32 image.width * uint32 image.height) < 2 ^ 32 ∧
      differing builder.writer.lastFrame (pixelsOf image.pixels)
        (uint32 image.width * uint32 image.height) * 127 < 2 ^ 31

variable {width height : Nat} {builder : GifBuilderGIFH} {call : AddImageCall} {image : Image}

lemma canvasBytes_eq_iff : canvasBytes width height = 4 * (uint32 width * uint32 height) ↔
    4 * (uint32 width * uint32 height) < 2 ^ 32 := by
  constructor
  · intro h
    rw [← h]
    exact Nat.mod_lt _ (by decide)
  · intro h
    rw [canvasBytes, Nat.mul_comm _ 4, uint32_of_lt h]

/-- Only a palette overflows a number. -/
lemma addImage_ne_overflow (haccepts : call.Accepts builder image)
    (hmade : ∀ pPal, ∃ pal, gifMakePalette builder.writer.lastFrame (pixelsOf image.pixels)
      (uint32 image.width) (uint32 image.height) 8 pPal = .ok pal) :
    gifBuilderAddImage closestIndex builder call.imageObj call.delay call.env ≠
      .error .overflow := by
  intro hadd
  obtain ⟨pal, hpal⟩ := hmade call.env.pal
  rcases addImage_error haccepts hadd with hframe | ⟨_, -, hcanvas⟩
  · rw [framePalette] at hframe
    split at hframe
    · cases hframe
    · rw [hpal] at hframe
      cases hframe
  · exact gifThresholdImage_ne_overflow hcanvas

lemma isExact_iff : IsExact width height builder call ↔ IsSmall width height builder call := by
  constructor
  · intro h image haccepts
    obtain ⟨hcanvas, hframe, -⟩ := h image haccepts
    exact ⟨canvasBytes_eq_iff.mp hcanvas, exactFrame_iff.mp hframe⟩
  · intro h image haccepts
    obtain ⟨hcanvas, hsmall⟩ := h image haccepts
    have hframe := exactFrame_iff.mpr hsmall
    exact ⟨canvasBytes_eq_iff.mpr hcanvas, hframe, addImage_ne_overflow haccepts hframe.made⟩

/-- Through all calls on a builder, the arithmetic of those that are not refused is exact exactly if
no image is too large. -/
theorem along_isExact_iff (garbage : Pixels) (width height delay : Nat)
    (calls : List AddImageCall) :
    Runs.Along (step closestIndex) (IsExact width height)
        (gifBuilderInitialize garbage width height delay) calls ↔
      Runs.Along (step closestIndex) (IsSmall width height)
        (gifBuilderInitialize garbage width height delay) calls :=
  Runs.along_congr (fun _ _ _ _ _ => trivial) (fun _ _ _ => isExact_iff) trivial

/-- The first product of a frame is too large. -/
lemma addImage_overflow (haccepts : call.Accepts builder image)
    (hcopy : copyBytes (uint32 image.width) (uint32 image.height) ≤ 4 * image.pixels.length)
    (h : 2 ^ 31 ≤ changedPixels builder.writer.lastFrame (pixelsOf image.pixels)
      (uint32 image.width) (uint32 image.height) * 127) :
    gifBuilderAddImage closestIndex builder call.imageObj call.delay call.env =
      .error .overflow := by
  obtain ⟨hstream, himage, hdelay, hformat⟩ := haccepts
  have hpal : framePalette builder.writer image.pixels (uint32 image.width) (uint32 image.height)
      call.env = .error .overflow := by
    rw [framePalette, if_neg (not_lt.mpr hcopy)]
    exact gifMakePalette_overflow h _
  rw [himage, gifBuilderAddImage_eq hdelay hformat, gifWriteFrame, if_neg (by simp [hstream]), hpal]
  rfl

/-- An image of one colour. -/
def plainImage (width height : Nat) : Image :=
  ⟨.r8g8b8a8Unorm, width, height, List.replicate (width * height) default⟩

/-- A frame of 4200 by 4200 pixels is not refused, but its first product is too large. -/
theorem not_along_isExact :
    (⟨some (plainImage 4200 4200), 10, default⟩ : AddImageCall).Accepts
      (gifBuilderInitialize (fun _ => default) 4200 4200 10) (plainImage 4200 4200) ∧
    gifBuilderAddImage closestIndex (gifBuilderInitialize (fun _ => default) 4200 4200 10)
      (some (plainImage 4200 4200)) 10 default = .error .overflow ∧
    ¬ Runs.Along (step closestIndex) (IsExact 4200 4200)
      (gifBuilderInitialize (fun _ => default) 4200 4200 10)
      [⟨some (plainImage 4200 4200), 10, default⟩] := by
  have haccepts : (⟨some (plainImage 4200 4200), 10, default⟩ : AddImageCall).Accepts
      (gifBuilderInitialize (fun _ => default) 4200 4200 10) (plainImage 4200 4200) :=
    ⟨rfl, rfl, by decide, rfl⟩
  have hwidth : (plainImage 4200 4200).width = 4200 := rfl
  have hheight : (plainImage 4200 4200).height = 4200 := rfl
  have hlength : (plainImage 4200 4200).pixels.length = 4200 * 4200 := List.length_replicate
  have hfirst : (gifBuilderInitialize (fun _ => default) 4200 4200 10).writer.lastFrame = none :=
    rfl
  generalize plainImage 4200 4200 = image at haccepts hwidth hheight hlength ⊢
  have hoverflow := addImage_overflow haccepts
    (by rw [hwidth, hheight, hlength]; decide)
    (by
      rw [hwidth, hheight, hfirst, changedPixels_none]
      decide)
  exact ⟨haccepts, hoverflow, fun h => ((Runs.along_cons.mp h).1 _ haccepts).2.2 hoverflow⟩

end AddImageCall

end GifTools
