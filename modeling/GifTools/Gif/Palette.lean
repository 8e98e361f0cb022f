import GifTools.Core.Bits
import GifTools.Core.Runs
import Mathlib.Logic.Function.Basic

/-!
# Palettes

A palette of `2 ^ bitDepth` colours is built by sorting the changed pixels of a frame into a k-d
tree and averaging its leaves, and searched by walking down the tree. Pixels are kept as in memory,
four bytes each, and pointers to them as indices. Numbers of pixels are `int`s; one that overflows
ends the call.

The builder never dithers, so the parts of these functions that only dithering reaches are left out.
-/

namespace GifTools

/-! ### Integers -/

/-- Conversion to `uint32_t`. -/
def uint32 (n : Nat) : Nat := n % 2 ^ 32

lemma uint32_of_lt {n : Nat} (h : n < 2 ^ 32) : uint32 n = n := Nat.mod_eq_of_lt h

/-- Conversion to `int`. -/
def int32 (x : Int) : Int := (BitVec.ofInt 32 x).toInt

lemma int32_le (n : Nat) : int32 n ≤ n := Bits.toInt_ofInt_le 32 n

lemma int32_le_uint32 (n : Nat) : int32 n ≤ uint32 n := Bits.toInt_ofInt_le_mod 32 n

lemma int32_of_lt {n : Nat} (h : n < 2 ^ 31) : int32 n = n := Bits.toInt_ofInt_of_lt (by omega)

/-- What ends a call: accesses outside of a buffer of pixels (the image that is added, the canvas,
the copy that is sorted), and an `int` that overflows. -/
inductive PixelFault where
  | image | canvas | copy | overflow
  deriving DecidableEq

/-- The result of an operation on `int`s. -/
def intResult (x : Int) : Except PixelFault Int :=
  if -2 ^ 31 ≤ x ∧ x < 2 ^ 31 then .ok x else .error .overflow

lemma intResult_of_lt {n : Nat} (h : n < 2 ^ 31) : intResult n = .ok (n : Int) :=
  if_pos (by omega)

lemma intResult_ok {x y : Int} (h : intResult x = .ok y) : y = x ∧ x < 2 ^ 31 := by
  rw [intResult] at h
  split at h
  case isTrue hfits =>
    cases h
    exact ⟨rfl, hfits.2⟩
  case isFalse => cases h

/-! ### Palettes -/

/-- Four consecutive bytes of an image. -/
structure GifPixel where
  r : UInt8
  g : UInt8
  b : UInt8
  a : UInt8
  deriving DecidableEq, Inhabited

/-- `image[ii*4+elt]` for a component `elt` of pixel `ii`. -/
def GifPixel.elt (p : GifPixel) : Nat → UInt8
  | 0 => p.r
  | 1 => p.g
  | 2 => p.b
  | _ => p.a

/-- The colour of a pixel, without the byte for alpha. -/
def GifPixel.rgb (p : GifPixel) : UInt8 × UInt8 × UInt8 := (p.r, p.g, p.b)

/-- Pixels in memory, by index. -/
abbrev Pixels := Nat → GifPixel

def kGifTransIndex : Nat := 0

/-- Every array cell that is indexed is a cell of its own, also those one past `treeSplitElt` and
`treeSplit`, which are not read through another name. -/
structure GifPalette where
  bitDepth : Nat
  r : Nat → UInt8
  g : Nat → UInt8
  b : Nat → UInt8
  treeSplitElt : Nat → UInt8
  treeSplit : Nat → UInt8
  deriving Inhabited

namespace GifPalette

variable (pal : GifPalette)

def setColor (ind : Nat) (r g b : UInt8) : GifPalette :=
  { pal with
    r := Function.update pal.r ind r
    g := Function.update pal.g ind g
    b := Function.update pal.b ind b }

def setNode (treeNode : Nat) (splitElt split : UInt8) : GifPalette :=
  { pal with
    treeSplitElt := Function.update pal.treeSplitElt treeNode splitElt
    treeSplit := Function.update pal.treeSplit treeNode split }

end GifPalette

def gifIAbs (i : Int) : Int := if i < 0 then -i else i

/-! ### Searching -/

/-- The three components of a colour on the stack, and what lies behind them there. -/
def comps (r g b : Int) (beyond : Nat → Int) : Nat → Int
  | 0 => r
  | 1 => g
  | 2 => b
  | n => beyond n

/-- `GifGetClosestPaletteColor`, to a given depth of the tree: walk down on the side of the colour
first, and on the other side if it can still hold a better one. -/
def gifGetClosestPaletteColor (pPal : GifPalette) (beyond : Nat → Int) (r g b : Int) :
    Nat → Nat → Nat × Int → Nat × Int
  | 0, _, best => best
  | depth + 1, treeRoot, best =>
    if treeRoot > 2 ^ pPal.bitDepth - 1 then
      let ind := treeRoot - 2 ^ pPal.bitDepth
      if ind = kGifTransIndex then best
      else
        let r_err := r - (pPal.r ind).toNat
        let g_err := g - (pPal.g ind).toNat
        let b_err := b - (pPal.b ind).toNat
        let diff := gifIAbs r_err + gifIAbs g_err + gifIAbs b_err
        if diff < best.2 then (ind, diff) else best
    else
      let splitComp := comps r g b beyond (pPal.treeSplitElt treeRoot).toNat
      let splitPos : Int := (pPal.treeSplit treeRoot).toNat
      if splitPos > splitComp then
        let best := gifGetClosestPaletteColor pPal beyond r g b depth (treeRoot * 2) best
        if best.2 > splitPos - splitComp then
          gifGetClosestPaletteColor pPal beyond r g b depth (treeRoot * 2 + 1) best
        else best
      else
        let best := gifGetClosestPaletteColor pPal beyond r g b depth (treeRoot * 2 + 1) best
        if best.2 > splitComp - splitPos then
          gifGetClosestPaletteColor pPal beyond r g b depth (treeRoot * 2) best
        else best

/-- The call of the search for one pixel: the index it leaves in `bestInd`. -/
def closestIndex (pPal : GifPalette) (beyond : Nat → Int) (p : GifPixel) : Nat :=
  (gifGetClosestPaletteColor pPal beyond p.r.toNat p.g.toNat p.b.toNat (pPal.bitDepth + 1) 1
    (1, 1000000)).1

/-! ### Building -/

/-- `GifSwapPixels`. Both alphas become the one of the first pixel. -/
def gifSwapPixels (image : Pixels) (pixA pixB : Nat) : Pixels :=
  let pA := image pixA
  let pB := image pixB
  let image := Function.update image pixA { pB with a := pA.a }
  Function.update image pixB { pA with a := pA.a }

/-- One round of the loop of `GifPartition`. -/
def gifPartitionStep (elt : Nat) (pivotValue : UInt8) (state : Pixels × Nat × Bool) (ii : Nat) :
    Pixels × Nat × Bool :=
  let (image, storeIndex, split) := state
  let arrayVal := (image ii).elt elt
  if arrayVal < pivotValue then (gifSwapPixels image ii storeIndex, storeIndex + 1, split)
  else if arrayVal = pivotValue then
    if split then (gifSwapPixels image ii storeIndex, storeIndex + 1, !split)
    else (image, storeIndex, !split)
  else (image, storeIndex, split)

/-- `GifPartition`: the image and the place of the pivot. -/
def gifPartition (image : Pixels) (left right elt pivotIndex : Nat) : Pixels × Nat :=
  let pivotValue := (image pivotIndex).elt elt
  let image := gifSwapPixels image pivotIndex (right - 1)
  let (image, storeIndex, _) := (List.range' left (right - 1 - left)).foldl
    (gifPartitionStep elt pivotValue) (image, left, false)
  (gifSwapPixels image storeIndex (right - 1), storeIndex)

/-- `GifPartitionByMedian`, to a depth of `right - left`: each call works on fewer pixels. -/
def gifPartitionByMedian : Nat → Pixels → Nat → Nat → Nat → Nat → Pixels
  | 0, image, _, _, _, _ => image
  | depth + 1, image, left, right, com, neededCenter =>
    if left + 1 < right then
      let pivotIndex := left + (right - left) / 2
      let (image, pivotIndex) := gifPartition image left right com pivotIndex
      let image :=
        if pivotIndex > neededCenter then
          gifPartitionByMedian depth image left pivotIndex com neededCenter
        else image
      if pivotIndex < neededCenter then
        gifPartitionByMedian depth image (pivotIndex + 1) right com neededCenter
      else image
    else image

/-- The average of one component, rounded to nearest. -/
def averageElt (image : Pixels) (first numPixels elt : Nat) : UInt8 :=
  let sum := ((List.range numPixels).map fun ii => ((image (first + ii)).elt elt).toNat).sum
  UInt8.ofNat ((sum + numPixels / 2) / numPixels)

/-- The range of one component. -/
def rangeElt (image : Pixels) (first numPixels elt : Nat) : Nat :=
  let values := (List.range numPixels).map fun ii => ((image (first + ii)).elt elt).toNat
  values.foldl max 0 - values.foldl min 255

/-- The component with the largest range. -/
def splitCom (image : Pixels) (first numPixels : Nat) : Nat :=
  let rRange := rangeElt image first numPixels 0
  let gRange := rangeElt image first numPixels 1
  let bRange := rangeElt image first numPixels 2
  let splitCom := if bRange > gRange then 2 else 1
  if rRange > bRange ∧ rRange > gRange then 0 else splitCom

/-- The pixels after they have been split along it. -/
def splitImage (image : Pixels) (first numPixels subPixelsA : Nat) : Pixels :=
  gifPartitionByMedian numPixels image first (first + numPixels) (splitCom image first numPixels)
    (first + subPixelsA)

/-- The palette with the node that describes the split. -/
def splitNode (image : Pixels) (first numPixels subPixelsA treeNode : Nat) (pal : GifPalette) :
    GifPalette :=
  pal.setNode treeNode (UInt8.ofNat (splitCom image first numPixels))
    ((splitImage image first numPixels subPixelsA (first + subPixelsA)).elt
      (splitCom image first numPixels))

/-- The arguments of a call of `GifSplitPalette` besides the image and the palette: colours
`firstElt` to `lastElt - 1` are made of `numPixels` pixels, the first of which is at index `first`
of the copy. -/
structure SplitArgs where
  first : Nat
  numPixels : Int
  firstElt : Nat
  lastElt : Nat
  splitElt : Nat
  splitDist : Nat
  treeNode : Nat

namespace SplitArgs

variable (args : SplitArgs)

/-- The call `GifMakePalette` makes. -/
def root (numPixels : Int) (bitDepth : Nat) : SplitArgs :=
  let lastElt := 2 ^ bitDepth
  let splitElt := lastElt / 2
  let splitDist := splitElt / 2
  ⟨0, numPixels, 1, lastElt, splitElt, splitDist, 1⟩

/-- `subPixelsA` and `subPixelsB`. -/
def subPixels : Except PixelFault (Int × Int) := do
  let product ← intResult (args.numPixels * ((args.splitElt : Int) - args.firstElt))
  let subPixelsA := product.tdiv ((args.lastElt : Int) - args.firstElt)
  let subPixelsB ← intResult (args.numPixels - subPixelsA)
  return (subPixelsA, subPixelsB)

/-- The call for the pixels in front of the split. -/
def left (subPixelsA : Int) : SplitArgs :=
  ⟨args.first, subPixelsA, args.firstElt, args.splitElt, args.splitElt - args.splitDist,
    args.splitDist / 2, args.treeNode * 2⟩

/-- The call for those from the split on. -/
def right (subPixelsA subPixelsB : Int) : SplitArgs :=
  ⟨args.first + subPixelsA.toNat, subPixelsB, args.splitElt, args.lastElt,
    args.splitElt + args.splitDist, args.splitDist / 2, args.treeNode * 2 + 1⟩

/-- The call splits its pixels. -/
def Inner : Prop := args.firstElt + 1 < args.lastElt ∧ args.numPixels ≠ 0

/-- The call makes another one. -/
def Calls (args' : SplitArgs) : Prop :=
  args.Inner ∧ ∃ subPixelsA subPixelsB, args.subPixels = .ok (subPixelsA, subPixelsB) ∧
    (args' = args.left subPixelsA ∨ args' = args.right subPixelsA subPixelsB)

end SplitArgs

/-- `GifSplitPalette`, to a given depth. The loops over a negative number of pixels do nothing. -/
def gifSplitPalette : Nat → Pixels → SplitArgs → GifPalette →
    Except PixelFault (Pixels × GifPalette)
  | 0, image, _, pal => .ok (image, pal)
  | depth + 1, image, args, pal =>
    let numPixels := args.numPixels.toNat
    if args.lastElt ≤ args.firstElt ∨ args.numPixels = 0 then .ok (image, pal)
    else if args.lastElt = args.firstElt + 1 then
      -- the bottom of the tree: the average of all colours in this subcube
      .ok (image, pal.setColor args.firstElt (averageElt image args.first numPixels 0)
        (averageElt image args.first numPixels 1) (averageElt image args.first numPixels 2))
    else do
      let (subPixelsA, subPixelsB) ← args.subPixels
      -- of a negative number of pixels, the one at the split is in front of the image
      if subPixelsA < 0 then throw .copy
      let pal := splitNode image args.first numPixels subPixelsA.toNat args.treeNode pal
      let image := splitImage image args.first numPixels subPixelsA.toNat
      let (image, pal) ← gifSplitPalette depth image (args.left subPixelsA) pal
      gifSplitPalette depth image (args.right subPixelsA subPixelsB) pal

/-- `GifPickChangedPixels`: the changed pixels are moved to the front; their number. -/
def gifPickChangedPixels (lastFrame frame : Pixels) (numPixels : Nat) : Pixels × Nat :=
  (List.range numPixels).foldl
    (fun (frame, numChanged) ii =>
      if (lastFrame ii).rgb ≠ (frame ii).rgb then
        (Function.update frame numChanged { frame ii with a := (frame numChanged).a },
          numChanged + 1)
      else (frame, numChanged))
    (frame, 0)

/-- The pixels `GifMakePalette` passes to `GifSplitPalette`, and their number. -/
def splitInput (lastFrame : Option Pixels) (nextFrame : Pixels) (width height : Nat) :
    Pixels × Int :=
  let numPixels := int32 (width * height : Nat)
  match lastFrame with
  | some lastFrame =>
    let (destroyableImage, numChanged) :=
      gifPickChangedPixels lastFrame nextFrame numPixels.toNat
    (destroyableImage, numChanged)
  | none => (nextFrame, numPixels)

/-- `GifMakePalette` over what was in the memory of the palette before. -/
def gifMakePalette (lastFrame : Option Pixels) (nextFrame : Pixels) (width height bitDepth : Nat)
    (pPal : GifPalette) : Except PixelFault GifPalette := do
  let pPal := { pPal with bitDepth := bitDepth }
  let (destroyableImage, numPixels) := splitInput lastFrame nextFrame width height
  let (_, pPal) ← gifSplitPalette (2 ^ bitDepth) destroyableImage (.root numPixels bitDepth) pPal
  -- the bottom node for the transparency index
  return (pPal.setNode (2 ^ (bitDepth - 1)) 0 0).setColor 0 0 0 0

/-! ### What the search returns -/

/-- The search returns the index it starts with or that of a leaf other than the transparent one. -/
lemma gifGetClosestPaletteColor_mem {pPal : GifPalette} {beyond : Nat → Int} {r g b : Int}
    {depth treeRoot : Nat} {best : Nat × Int} (hpos : 0 < treeRoot)
    (hroot : treeRoot < 2 ^ (pPal.bitDepth + 1))
    (hbest : best.1 ≠ kGifTransIndex ∧ best.1 < 2 ^ pPal.bitDepth) :
    (gifGetClosestPaletteColor pPal beyond r g b depth treeRoot best).1 ≠ kGifTransIndex ∧
      (gifGetClosestPaletteColor pPal beyond r g b depth treeRoot best).1 <
        2 ^ pPal.bitDepth := by
  induction depth generalizing treeRoot best with
  | zero => exact hbest
  | succ depth ih =>
    rw [pow_succ] at hroot ih
    rw [gifGetClosestPaletteColor]
    by_cases hleaf : treeRoot > 2 ^ pPal.bitDepth - 1
    · rw [if_pos hleaf]
      by_cases htrans : treeRoot - 2 ^ pPal.bitDepth = kGifTransIndex
      · simpa only [if_pos htrans] using hbest
      · simp only [if_neg htrans]
        split
        · exact ⟨htrans, by simp only; omega⟩
        · exact hbest
    · rw [if_neg hleaf]
      have hl (best) := @ih (treeRoot * 2) best (by omega) (by omega)
      have hr (best) := @ih (treeRoot * 2 + 1) best (by omega) (by omega)
      simp only
      split
      · split
        · exact hr _ (hl _ hbest)
        · exact hl _ hbest
      · split
        · exact hl _ (hr _ hbest)
        · exact hr _ hbest

/-- More depth than levels makes no difference. -/
lemma gifGetClosestPaletteColor_depth {pPal : GifPalette} {beyond : Nat → Int} {r g b : Int}
    {k treeRoot : Nat} (h : 2 ^ pPal.bitDepth ≤ treeRoot * 2 ^ k) (j : Nat) (best : Nat × Int) :
    gifGetClosestPaletteColor pPal beyond r g b (k + 1 + j) treeRoot best =
      gifGetClosestPaletteColor pPal beyond r g b (k + 1) treeRoot best := by
  induction k generalizing treeRoot best with
  | zero =>
    have hleaf : treeRoot > 2 ^ pPal.bitDepth - 1 := by
      have := Nat.two_pow_pos pPal.bitDepth
      omega
    rw [Nat.add_right_comm, gifGetClosestPaletteColor, gifGetClosestPaletteColor, if_pos hleaf,
      if_pos hleaf]
  | succ k ih =>
    rw [pow_succ, Nat.mul_comm _ 2, ← Nat.mul_assoc] at h
    have hl := ih h
    have hr := @ih (treeRoot * 2 + 1) (h.trans (Nat.mul_le_mul_right _ (Nat.le_succ _)))
    rw [Nat.add_right_comm, gifGetClosestPaletteColor, gifGetClosestPaletteColor]
    simp only [hl, hr]

theorem closestIndex_mem {pPal : GifPalette} {beyond : Nat → Int} {p : GifPixel}
    (h : 1 ≤ pPal.bitDepth) : closestIndex pPal beyond p ≠ kGifTransIndex ∧
      closestIndex pPal beyond p < 2 ^ pPal.bitDepth := by
  refine gifGetClosestPaletteColor_mem (by decide) (Nat.one_lt_two_pow (by omega))
    ⟨by decide, Nat.one_lt_two_pow (by omega)⟩

/-! ### Equations -/

section

variable {depth : Nat} {image image' : Pixels} {args : SplitArgs} {pal pal' : GifPalette}

lemma gifSplitPalette_done (h : args.lastElt ≤ args.firstElt ∨ args.numPixels = 0) :
    gifSplitPalette depth image args pal = .ok (image, pal) := by
  cases depth with
  | zero => rfl
  | succ depth => rw [gifSplitPalette, if_pos h]

lemma gifSplitPalette_leaf (hpixels : args.numPixels ≠ 0)
    (hlast : args.lastElt = args.firstElt + 1) :
    gifSplitPalette (depth + 1) image args pal =
      .ok (image, pal.setColor args.firstElt
        (averageElt image args.first args.numPixels.toNat 0)
        (averageElt image args.first args.numPixels.toNat 1)
        (averageElt image args.first args.numPixels.toNat 2)) := by
  rw [gifSplitPalette, if_neg (by omega), if_pos hlast]

/-- A call that splits its pixels returns if both of its calls do. -/
lemma gifSplitPalette_inner (hinner : args.Inner) {r : Pixels × GifPalette} :
    gifSplitPalette (depth + 1) image args pal = .ok r ↔
      ∃ subPixelsA subPixelsB, args.subPixels = .ok (subPixelsA, subPixelsB) ∧ 0 ≤ subPixelsA ∧
        ∃ image' pal', gifSplitPalette depth
            (splitImage image args.first args.numPixels.toNat subPixelsA.toNat)
            (args.left subPixelsA)
            (splitNode image args.first args.numPixels.toNat subPixelsA.toNat args.treeNode pal) =
              .ok (image', pal') ∧
          gifSplitPalette depth image' (args.right subPixelsA subPixelsB) pal' = .ok r := by
  obtain ⟨hcolors, hpixels⟩ := hinner
  rw [gifSplitPalette, if_neg (by omega), if_neg (by omega), Runs.bind_ok]
  constructor
  · rintro ⟨⟨subPixelsA, subPixelsB⟩, hparts, h⟩
    by_cases hneg : subPixelsA < 0
    · simp only [if_pos hneg] at h
      cases h
    · simp only [if_neg hneg] at h
      obtain ⟨⟨image', pal'⟩, hleft, hright⟩ := Runs.bind_ok.mp h
      exact ⟨subPixelsA, subPixelsB, hparts, not_lt.mp hneg, image', pal', hleft, hright⟩
  · rintro ⟨subPixelsA, subPixelsB, hparts, hpos, image', pal', hleft, hright⟩
    refine ⟨(subPixelsA, subPixelsB), hparts, ?_⟩
    simp only [if_neg (not_lt.mpr hpos)]
    exact Runs.bind_ok.mpr ⟨(image', pal'), hleft, hright⟩

/-- It ends where the numbers of pixels are computed. -/
lemma gifSplitPalette_of_subPixels (hinner : args.Inner) {fault : PixelFault}
    (h : args.subPixels = .error fault) :
    gifSplitPalette (depth + 1) image args pal = .error fault := by
  obtain ⟨hcolors, hpixels⟩ := hinner
  rw [gifSplitPalette, if_neg (by omega), if_neg (by omega), h]
  rfl

/-- The three kinds of calls. -/
lemma SplitArgs.done_or_leaf_or_inner (args : SplitArgs) :
    (args.lastElt ≤ args.firstElt ∨ args.numPixels = 0) ∨
      (args.numPixels ≠ 0 ∧ args.lastElt = args.firstElt + 1) ∨ args.Inner := by
  rw [SplitArgs.Inner]
  omega

lemma gifSplitPalette_bitDepth (h : gifSplitPalette depth image args pal = .ok (image', pal')) :
    pal'.bitDepth = pal.bitDepth := by
  induction depth generalizing image args pal image' pal' with
  | zero =>
    cases h
    rfl
  | succ depth ih =>
    rcases args.done_or_leaf_or_inner with hdone | ⟨hpixels, hlast⟩ | hinner
    · rw [gifSplitPalette_done hdone] at h
      cases h
      rfl
    · rw [gifSplitPalette_leaf hpixels hlast] at h
      cases h
      rfl
    · obtain ⟨_, _, -, -, _, _, hleft, hright⟩ := (gifSplitPalette_inner hinner).mp h
      rw [ih hright, ih hleft]
      rfl

lemma intResult_error {x : Int} {fault : PixelFault} (h : intResult x = .error fault) :
    fault = .overflow := by
  rw [intResult] at h
  split at h
  · cases h
  · cases h
    rfl

lemma SplitArgs.subPixels_error {fault : PixelFault} (h : args.subPixels = .error fault) :
    fault = .overflow := by
  rcases Runs.bind_error.mp h with h | ⟨_, -, h⟩
  · exact intResult_error h
  · rcases Runs.bind_error.mp h with h | ⟨_, -, h⟩
    · exact intResult_error h
    · cases h

/-- The canvas is not accessed. -/
lemma gifSplitPalette_error {fault : PixelFault}
    (h : gifSplitPalette depth image args pal = .error fault) :
    fault = .overflow ∨ fault = .copy := by
  induction depth generalizing image args pal with
  | zero => cases h
  | succ depth ih =>
    rcases args.done_or_leaf_or_inner with hdone | ⟨hpixels, hlast⟩ | ⟨hcolors, hpixels⟩
    · rw [gifSplitPalette_done hdone] at h
      cases h
    · rw [gifSplitPalette_leaf hpixels hlast] at h
      cases h
    · rw [gifSplitPalette, if_neg (by omega), if_neg (by omega)] at h
      rcases Runs.bind_error.mp h with h | ⟨⟨subPixelsA, subPixelsB⟩, -, h⟩
      · exact .inl (args.subPixels_error h)
      · by_cases hneg : subPixelsA < 0
        · simp only [if_pos hneg] at h
          cases h
          exact .inr rfl
        · simp only [if_neg hneg] at h
          rcases Runs.bind_error.mp h with h | ⟨_, -, h⟩
          · exact ih h
          · exact ih h

lemma gifMakePalette_ok {lastFrame : Option Pixels} {nextFrame : Pixels}
    {width height bitDepth : Nat} :
    gifMakePalette lastFrame nextFrame width height bitDepth pal = .ok pal' ↔
      ∃ image' made, gifSplitPalette (2 ^ bitDepth)
          (splitInput lastFrame nextFrame width height).1
          (.root (splitInput lastFrame nextFrame width height).2 bitDepth)
          { pal with bitDepth := bitDepth } = .ok (image', made) ∧
        pal' = (made.setNode (2 ^ (bitDepth - 1)) 0 0).setColor 0 0 0 0 := by
  rw [gifMakePalette, Runs.bind_ok]
  constructor
  · rintro ⟨⟨image', made⟩, hsplit, h⟩
    cases h
    exact ⟨image', made, hsplit, rfl⟩
  · rintro ⟨image', made, hsplit, rfl⟩
    exact ⟨(image', made), hsplit, rfl⟩

lemma gifMakePalette_error {lastFrame : Option Pixels} {nextFrame : Pixels}
    {width height bitDepth : Nat} {fault : PixelFault}
    (h : gifMakePalette lastFrame nextFrame width height bitDepth pal = .error fault) :
    fault = .overflow ∨ fault = .copy := by
  rcases Runs.bind_error.mp h with h | ⟨_, -, h⟩
  · exact gifSplitPalette_error h
  · cases h

lemma gifMakePalette_bitDepth {lastFrame : Option Pixels} {nextFrame : Pixels}
    {width height bitDepth : Nat}
    (h : gifMakePalette lastFrame nextFrame width height bitDepth pal = .ok pal') :
    pal'.bitDepth = bitDepth := by
  obtain ⟨image', made, hsplit, rfl⟩ := gifMakePalette_ok.mp h
  exact gifSplitPalette_bitDepth hsplit

end

end GifTools
