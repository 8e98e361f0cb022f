import GifTools.Core.KdTree
import GifTools.Gif.Median

/-!
# The recursion that builds a palette

`Splits` describes what `GifSplitPalette` does at a bit depth of 8, where the colours 1 to 255 are
the leaves of a tree of height 8 whose first leaf is missing, as long as no product is too large:
it rearranges the pixels, and assigns entries of the palette.
-/

namespace GifTools

open Select

/-! ### The recursion -/

/-- The component of a split is one of the three. -/
lemma splitCom_lt (image : Pixels) (first numPixels : Nat) :
    splitCom image first numPixels < 3 := by
  simp only [splitCom]
  split
  · decide
  split
  · decide
  · decide

/-- The pixels in front are not larger in this component, those behind not smaller. -/
lemma splitImage_spec (image : Pixels) (first : Nat) {numPixels subPixelsA : Nat}
    (h : subPixelsA < numPixels) :
    Rearranges first (first + numPixels) (colors image)
        (colors (splitImage image first numPixels subPixelsA)) ∧
      SplitAt (rgbElt (splitCom image first numPixels)) first (first + numPixels)
        (first + subPixelsA) (colors (splitImage image first numPixels subPixelsA)) := by
  apply gifPartitionByMedian_spec
  · exact splitCom_lt image first numPixels
  · exact le_rfl
  · omega
  · omega

/-- The palette with the average of the pixels as a colour. -/
def leafColor (image : Pixels) (first numPixels ind : Nat) (pal : GifPalette) : GifPalette :=
  pal.setColor ind (averageElt image first numPixels 0) (averageElt image first numPixels 1)
    (averageElt image first numPixels 2)

/-- A call of `GifSplitPalette` for a node, by its height over the leaves: the image it starts with
and its arguments, the image it leaves, and what it does to the palette. Colour `e` is leaf
`256 + e` of the tree, except that node 128, whose left leaf is missing, stands for colour 1. -/
inductive Splits : Nat → Pixels → Nat → Nat → Nat → Nat → Nat → Nat → Nat → Pixels →
    (GifPalette → GifPalette) → Prop where
  | none {k : Nat} {image : Pixels} {first firstElt lastElt splitElt splitDist treeNode : Nat} :
      Splits k image first 0 firstElt lastElt splitElt splitDist treeNode image id
  | leaf {image : Pixels} {first numPixels firstElt splitElt splitDist : Nat}
      (hpixels : 0 < numPixels) (hfirst : 0 < firstElt) :
      Splits 0 image first numPixels firstElt (firstElt + 1) splitElt splitDist (256 + firstElt)
        image (leafColor image first numPixels firstElt)
  | lowest {image : Pixels} {first numPixels splitElt splitDist : Nat} (hpixels : 0 < numPixels) :
      Splits 1 image first numPixels 1 2 splitElt splitDist 128 image
        (leafColor image first numPixels 1)
  | node {k : Nat} {image image' image'' : Pixels} {assignA assignB : GifPalette → GifPalette}
      {first numPixels firstElt lastElt splitElt splitDist treeNode subPixelsA : Nat}
      (hpixels : 0 < numPixels) (hfirst : firstElt < splitElt) (hlast : splitElt < lastElt)
      (hproduct : numPixels * (splitElt - firstElt) < 2 ^ 31)
      (hpart : numPixels * (splitElt - firstElt) / (lastElt - firstElt) = subPixelsA)
      (hnode : 0 < treeNode) (hne : treeNode ≠ 128) (hlevel : treeNode < 256)
      (left : Splits k (splitImage image first numPixels subPixelsA) first subPixelsA firstElt
        splitElt (splitElt - splitDist) (splitDist / 2) (treeNode * 2) image' assignA)
      (right : Splits k image' (first + subPixelsA) (numPixels - subPixelsA) splitElt lastElt
        (splitElt + splitDist) (splitDist / 2) (treeNode * 2 + 1) image'' assignB) :
      Splits (k + 1) image first numPixels firstElt lastElt splitElt splitDist treeNode image''
        (assignB ∘ assignA ∘ splitNode image first numPixels subPixelsA treeNode)

/-- The arguments of a call for a node at height `k`. -/
structure Cell (k firstElt lastElt splitElt splitDist treeNode : Nat) : Prop where
  first : firstElt + 256 = max 257 (treeNode * 2 ^ k)
  last : lastElt + 256 = (treeNode + 1) * 2 ^ k
  level : 256 ≤ treeNode * 2 ^ k ∧ lastElt ≤ 256
  lt : firstElt < lastElt
  split : ∀ j, k = j + 1 → splitElt + 256 = (treeNode * 2 + 1) * 2 ^ j
  dist : splitDist = 2 ^ k / 4
  small : splitElt ≤ firstElt + 127

lemma cell_root : Cell 8 1 256 128 64 1 where
  first := rfl
  last := rfl
  level := by decide
  lt := by decide
  split j hj := by
    obtain rfl : j = 7 := by omega
    rfl
  dist := rfl
  small := by decide

section

variable {k numPixels firstElt lastElt splitElt splitDist treeNode subPixelsA : Nat}

/-- Each side gets its part of the pixels. -/
lemma le_part {a t : Nat} (ha : a ≤ t) (ht : 0 < t) (hpixels : t ≤ numPixels) :
    a ≤ numPixels * a / t ∧ t - a ≤ numPixels - numPixels * a / t := by
  constructor
  · rw [Nat.le_div_iff_mul_le ht, Nat.mul_comm numPixels]
    exact Nat.mul_le_mul_left _ hpixels
  · have hpart : numPixels * a / t ≤ numPixels - (t - a) := by
      apply Nat.div_le_of_le_mul
      have hle : (t - a) * t ≤ (t - a) * numPixels := Nat.mul_le_mul_left _ hpixels
      calc numPixels * a = numPixels * t - (t - a) * numPixels := by
            rw [Nat.mul_comm (t - a), ← Nat.mul_sub, Nat.sub_sub_self ha]
        _ ≤ numPixels * t - (t - a) * t := Nat.sub_le_sub_left hle _
        _ = t * (numPixels - (t - a)) := by
            rw [← Nat.sub_mul, Nat.mul_comm]
    omega

lemma part_lt {a t : Nat} (ha : a < t) (hpixels : 0 < numPixels) :
    numPixels * a / t < numPixels := by
  apply Nat.div_lt_of_lt_mul
  rw [Nat.mul_comm]
  exact Nat.mul_lt_mul_of_pos_right ha hpixels

/-- The cells of the two sides. -/
lemma Cell.sides (h : Cell (k + 1) firstElt lastElt splitElt splitDist treeNode)
    (hne : lastElt ≠ firstElt + 1) :
    Cell k firstElt splitElt (splitElt - splitDist) (splitDist / 2) (treeNode * 2) ∧
      Cell k splitElt lastElt (splitElt + splitDist) (splitDist / 2) (treeNode * 2 + 1) := by
  obtain ⟨hfirst, hlast, hlevel, hlt, hsplit, hdist, hsmall⟩ := h
  have hsplit := hsplit k rfl
  cases k with
  | zero =>
    simp only [zero_add, pow_one, pow_zero, Nat.mul_one] at hfirst hlast hlevel hsplit hdist
    constructor
    · exact ⟨by omega, by omega, by omega, by omega, by omega, by omega, by omega⟩
    · exact ⟨by omega, by omega, by omega, by omega, by omega, by omega, by omega⟩
  | succ j =>
    have hpos := Nat.two_pow_pos j
    have hwidth : 2 ^ (j + 1) = 2 * 2 ^ j := pow_succ' 2 j
    have hwidth' : 2 ^ (j + 1 + 1) = 4 * 2 ^ j := by ring
    have hlo : treeNode * 2 ^ (j + 1 + 1) = 4 * (treeNode * 2 ^ j) := by ring
    have hhi : (treeNode + 1) * 2 ^ (j + 1 + 1) = 4 * (treeNode * 2 ^ j) + 4 * 2 ^ j := by ring
    have hmid : (treeNode * 2 + 1) * 2 ^ (j + 1) = 4 * (treeNode * 2 ^ j) + 2 * 2 ^ j := by ring
    rw [hlo] at hfirst hlevel
    rw [hhi] at hlast
    rw [hmid] at hsplit
    have hdist' : splitDist / 2 = 2 ^ (j + 1) / 4 := by
      rw [hdist, hwidth', hwidth]
      generalize 2 ^ j = w
      omega
    rw [hwidth', Nat.mul_div_cancel_left _ (by decide)] at hdist
    constructor
    · have hlo' : treeNode * 2 * 2 ^ (j + 1) = 4 * (treeNode * 2 ^ j) := by ring
      refine ⟨by omega, by omega, by omega, by omega, ?_, hdist', by omega⟩
      intro j' hj'
      obtain rfl : j = j' := by omega
      have hmid' : (treeNode * 2 * 2 + 1) * 2 ^ j = 4 * (treeNode * 2 ^ j) + 2 ^ j := by ring
      omega
    · have hhi' : (treeNode * 2 + 1 + 1) * 2 ^ (j + 1) = 4 * (treeNode * 2 ^ j) + 4 * 2 ^ j := by
        ring
      refine ⟨by omega, by omega, by omega, by omega, ?_, hdist', by omega⟩
      intro j' hj'
      obtain rfl : j = j' := by omega
      have hmid' : ((treeNode * 2 + 1) * 2 + 1) * 2 ^ j =
          4 * (treeNode * 2 ^ j) + 3 * 2 ^ j := by ring
      omega

/-- The recursion below a node, if no product is too large. -/
lemma Cell.splits (h : Cell k firstElt lastElt splitElt splitDist treeNode)
    (hpixels : numPixels * 127 < 2 ^ 31) (image : Pixels) (first : Nat) :
    ∃ image' assign, Splits k image first numPixels firstElt lastElt splitElt splitDist treeNode
      image' assign := by
  induction k generalizing image first numPixels firstElt lastElt splitElt splitDist treeNode with
  | zero =>
    obtain ⟨hfirst, hlast, hlevel, hlt, -⟩ := h
    simp only [pow_zero, Nat.mul_one] at hfirst hlast hlevel
    rcases Nat.eq_zero_or_pos numPixels with rfl | hpos
    · exact ⟨_, _, .none⟩
    · obtain rfl : lastElt = firstElt + 1 := by omega
      obtain rfl : treeNode = 256 + firstElt := by omega
      exact ⟨_, _, .leaf hpos (by omega)⟩
  | succ k ih =>
    have hpow := Nat.two_pow_pos k
    have hlo : treeNode * 2 ^ (k + 1) = 2 * (treeNode * 2 ^ k) := by ring
    have hhi : (treeNode + 1) * 2 ^ (k + 1) = 2 * (treeNode * 2 ^ k) + 2 * 2 ^ k := by ring
    have hmid : (treeNode * 2 + 1) * 2 ^ k = 2 * (treeNode * 2 ^ k) + 2 ^ k := by ring
    have hfirst := h.first
    have hlast := h.last
    have hlevel := h.level
    have hsplit := h.split k rfl
    have hlt := h.lt
    have hsmall := h.small
    rw [hlo] at hfirst hlevel
    rw [hhi] at hlast
    rw [hmid] at hsplit
    rcases Nat.eq_zero_or_pos numPixels with rfl | hpos
    · exact ⟨_, _, .none⟩
    · by_cases hlowest : lastElt = firstElt + 1
      · -- only the leftmost node has a leaf above the lowest row
        have hk : 2 ^ k = 1 := by omega
        obtain rfl : k = 0 := by
          by_contra hne
          exact absurd hk (Nat.one_lt_two_pow hne).ne'
        obtain rfl : firstElt = 1 := by omega
        obtain rfl : treeNode = 128 := by omega
        obtain rfl : lastElt = 2 := by omega
        exact ⟨_, _, .lowest hpos⟩
      · obtain ⟨hleft, hright⟩ := h.sides hlowest
        have hwidth : splitElt - firstElt ≤ 127 := by omega
        have hproduct : numPixels * (splitElt - firstElt) ≤ numPixels * 127 :=
          Nat.mul_le_mul_left _ hwidth
        have hnode : treeNode ≤ treeNode * 2 ^ k := Nat.le_mul_of_pos_right _ hpow
        have hpart := (part_lt (t := lastElt - firstElt)
          (by omega : splitElt - firstElt < lastElt - firstElt) hpos).le
        obtain ⟨image', assignA, hsplitsA⟩ := ih hleft
          ((Nat.mul_le_mul_right _ hpart).trans_lt hpixels)
          (splitImage image first numPixels
            (numPixels * (splitElt - firstElt) / (lastElt - firstElt))) first
        obtain ⟨image'', assignB, hsplitsB⟩ := ih hright
          ((Nat.mul_le_mul_right _ (Nat.sub_le _ _)).trans_lt hpixels) image'
          (first + numPixels * (splitElt - firstElt) / (lastElt - firstElt))
        refine ⟨_, _, .node hpos hleft.lt hright.lt (by omega) rfl ?_ ?_ (by omega) hsplitsA
          hsplitsB⟩
        · by_contra hzero
          obtain rfl : treeNode = 0 := by omega
          omega
        · rintro rfl
          omega

/-! ### The code -/

/-- As long as the product is small enough, the numbers of pixels are what they should be. -/
lemma subPixels_eq (hpixels : 0 < numPixels) (hfirst : firstElt < splitElt)
    (hlast : splitElt < lastElt) (hproduct : numPixels * (splitElt - firstElt) < 2 ^ 31)
    (hpart : numPixels * (splitElt - firstElt) / (lastElt - firstElt) = subPixelsA) (first : Nat) :
    SplitArgs.subPixels ⟨first, numPixels, firstElt, lastElt, splitElt, splitDist, treeNode⟩ =
      .ok ((subPixelsA : Int), ((numPixels - subPixelsA : Nat) : Int)) := by
  have hvalue : (numPixels : Int) * ((splitElt : Int) - firstElt) =
      (numPixels * (splitElt - firstElt) : Nat) := by
    rw [← Nat.cast_sub hfirst.le, Nat.cast_mul]
  have hsize : (lastElt : Int) - firstElt = (lastElt - firstElt : Nat) :=
    (Nat.cast_sub (hfirst.trans hlast).le).symm
  have hlt : subPixelsA < numPixels := hpart ▸ part_lt (by omega) hpixels
  have hle : numPixels ≤ numPixels * (splitElt - firstElt) :=
    Nat.le_mul_of_pos_right _ (by omega)
  apply Runs.bind_ok.mpr
  refine ⟨_, (congrArg intResult hvalue).trans (intResult_of_lt hproduct), ?_⟩
  simp only [hsize]
  rw [← Int.ofNat_tdiv, hpart, ← Nat.cast_sub hlt.le, intResult_of_lt (by omega)]
  rfl

end

namespace Splits

variable {k : Nat} {image : Pixels}
  {first numPixels firstElt lastElt splitElt splitDist treeNode : Nat} {image' : Pixels}
  {assign : GifPalette → GifPalette}

/-- This is what the code does. -/
theorem run (h : Splits k image first numPixels firstElt lastElt splitElt splitDist treeNode image'
    assign) {depth : Nat} (hdepth : k < depth) (pal : GifPalette) :
    gifSplitPalette depth image
        ⟨first, numPixels, firstElt, lastElt, splitElt, splitDist, treeNode⟩ pal =
      .ok (image', assign pal) := by
  induction h generalizing depth pal with
  | none => exact gifSplitPalette_done (.inr rfl)
  | leaf hpixels _ =>
    obtain ⟨depth, rfl⟩ := Nat.exists_eq_add_one_of_ne_zero (Nat.ne_zero_of_lt hdepth)
    exact gifSplitPalette_leaf (by simp only [ne_eq]; omega) rfl
  | lowest hpixels =>
    obtain ⟨depth, rfl⟩ := Nat.exists_eq_add_one_of_ne_zero (Nat.ne_zero_of_lt hdepth)
    exact gifSplitPalette_leaf (by simp only [ne_eq]; omega) rfl
  | node hpixels hfirst hlast hproduct hpart _ _ _ _ _ ihl ihr =>
    obtain ⟨depth, rfl⟩ := Nat.exists_eq_add_one_of_ne_zero (Nat.ne_zero_of_lt hdepth)
    apply (gifSplitPalette_inner ⟨by simp only; omega, by simp only; omega⟩).mpr
    exact ⟨_, _, subPixels_eq hpixels hfirst hlast hproduct hpart _, Int.natCast_nonneg _, _, _,
      ihl (by omega) _, ihr (by omega) _⟩

/-- Induction over the calls: those for a single colour have no calls below, wherever they are in
the tree. -/
@[elab_as_elim]
lemma calls
    {motive : ∀ {k : Nat} {image : Pixels}
      {first numPixels firstElt lastElt splitElt splitDist treeNode : Nat} {image' : Pixels}
      {assign : GifPalette → GifPalette}, Splits k image first numPixels firstElt lastElt splitElt
        splitDist treeNode image' assign → Prop}
    (none : ∀ {k : Nat} {image : Pixels}
      {first firstElt lastElt splitElt splitDist treeNode : Nat},
      motive (.none : Splits k image first 0 firstElt lastElt splitElt splitDist treeNode image id))
    (leaf : ∀ {k : Nat} {image : Pixels}
      {first numPixels firstElt splitElt splitDist treeNode : Nat} (_ : 0 < numPixels)
      (h : Splits k image first numPixels firstElt (firstElt + 1) splitElt splitDist treeNode image
        (leafColor image first numPixels firstElt)), motive h)
    (node : ∀ {k : Nat} {image image' image'' : Pixels} {assignA assignB : GifPalette → GifPalette}
      {first numPixels firstElt lastElt splitElt splitDist treeNode subPixelsA : Nat}
      (hpixels : 0 < numPixels) (hfirst : firstElt < splitElt) (hlast : splitElt < lastElt)
      (hproduct : numPixels * (splitElt - firstElt) < 2 ^ 31)
      (hpart : numPixels * (splitElt - firstElt) / (lastElt - firstElt) = subPixelsA)
      (hnode : 0 < treeNode) (hne : treeNode ≠ 128) (hlevel : treeNode < 256)
      (left : Splits k (splitImage image first numPixels subPixelsA) first subPixelsA firstElt
        splitElt (splitElt - splitDist) (splitDist / 2) (treeNode * 2) image' assignA)
      (right : Splits k image' (first + subPixelsA) (numPixels - subPixelsA) splitElt lastElt
        (splitElt + splitDist) (splitDist / 2) (treeNode * 2 + 1) image'' assignB),
      motive left → motive right →
        motive (.node hpixels hfirst hlast hproduct hpart hnode hne hlevel left right))
    (h : Splits k image first numPixels firstElt lastElt splitElt splitDist treeNode image'
      assign) : motive h := by
  induction h with
  | none => exact none
  | leaf hpixels hfirst => exact leaf hpixels (.leaf hpixels hfirst)
  | lowest hpixels => exact leaf hpixels (.lowest hpixels)
  | node hpixels hfirst hlast hproduct hpart hnode hne hlevel left right ihl ihr =>
    exact node hpixels hfirst hlast hproduct hpart hnode hne hlevel left right ihl ihr

/-- The pixels are rearranged in their segment. -/
lemma rearranges (h : Splits k image first numPixels firstElt lastElt splitElt splitDist treeNode
    image' assign) : Rearranges first (first + numPixels) (colors image) (colors image') := by
  induction h using calls with
  | none => exact .refl _ _ _
  | leaf _ _ => exact .refl _ _ _
  | node hpixels hfirst hlast _ hpart _ _ _ _ _ ihl ihr =>
    have hlt := hpart ▸ part_lt (by omega) hpixels
    apply (splitImage_spec _ _ hlt).1.trans
    apply (ihl.mono le_rfl (by omega)).trans
    apply ihr.mono
    · omega
    · omega

end Splits

/-! ### The palette of a frame -/

section

variable {lastFrame : Option Pixels} {nextFrame : Pixels} {width height : Nat}

/-- The number of pixels of an image that `GifMakePalette` passes to `GifSplitPalette`. -/
def changedPixels (lastFrame : Option Pixels) (nextFrame : Pixels) (width height : Nat) : Int :=
  (splitInput lastFrame nextFrame width height).2

lemma changedPixels_none (nextFrame : Pixels) (width height : Nat) :
    changedPixels none nextFrame width height = int32 (width * height : Nat) := rfl

lemma gifPickChangedPixels_le (lastFrame frame : Pixels) (n : Nat) :
    (gifPickChangedPixels lastFrame frame n).2 ≤ n := by
  rw [gifPickChangedPixels]
  induction n with
  | zero => exact le_rfl
  | succ n ih =>
    rw [List.range_succ, List.foldl_append, List.foldl_cons, List.foldl_nil]
    generalize (List.range n).foldl _ (frame, 0) = picked at ih ⊢
    simp only
    split
    · exact Nat.succ_le_succ ih
    · exact Nat.le_succ_of_le ih

lemma changedPixels_le (h : width * height < 2 ^ 31) :
    0 ≤ changedPixels lastFrame nextFrame width height ∧
      changedPixels lastFrame nextFrame width height ≤ (width * height : Nat) := by
  have hint := int32_of_lt h
  cases lastFrame with
  | none => simp only [changedPixels, splitInput, hint]; omega
  | some last =>
    have hle := gifPickChangedPixels_le last nextFrame (width * height)
    simp only [changedPixels, splitInput, hint, Int.toNat_natCast]
    omega

/-- The palette of a frame, from what `GifSplitPalette` does to it. -/
def madePalette (assign : GifPalette → GifPalette) (pPal : GifPalette) : GifPalette :=
  ((assign { pPal with bitDepth := 8 }).setNode 128 0 0).setColor 0 0 0 0

/-- As long as no product is too large, a palette is made. -/
lemma exists_gifMakePalette (h : 0 ≤ changedPixels lastFrame nextFrame width height)
    (h' : changedPixels lastFrame nextFrame width height * 127 < 2 ^ 31) :
    ∃ image' assign, Splits 8 (splitInput lastFrame nextFrame width height).1 0
        (changedPixels lastFrame nextFrame width height).toNat 1 256 128 64 1 image' assign ∧
      ∀ pPal, gifMakePalette lastFrame nextFrame width height 8 pPal =
        .ok (madePalette assign pPal) := by
  obtain ⟨numPixels, hnum⟩ := Int.eq_ofNat_of_zero_le h
  rw [hnum] at h' ⊢
  obtain ⟨image', assign, hsplits⟩ := cell_root.splits (by omega : numPixels * 127 < 2 ^ 31)
    (splitInput lastFrame nextFrame width height).1 0
  refine ⟨image', assign, hsplits, fun pPal => ?_⟩
  apply gifMakePalette_ok.mpr
  refine ⟨image', _, ?_, rfl⟩
  rw [← changedPixels, hnum]
  exact hsplits.run (by decide : 8 < 256) _

/-- The first product is the largest. -/
lemma lt_of_gifMakePalette {pPal pal : GifPalette}
    (h : gifMakePalette lastFrame nextFrame width height 8 pPal = .ok pal) :
    changedPixels lastFrame nextFrame width height * 127 < 2 ^ 31 := by
  by_cases hzero : changedPixels lastFrame nextFrame width height = 0
  · rw [hzero]
    decide
  · obtain ⟨_, _, hsplit, -⟩ := gifMakePalette_ok.mp h
    obtain ⟨_, _, hparts, -⟩ :=
      (gifSplitPalette_inner ⟨show 1 + 1 < 2 ^ 8 by decide, hzero⟩).mp hsplit
    obtain ⟨product, hproduct, -⟩ := Runs.bind_ok.mp hparts
    exact (intResult_ok hproduct).2

/-- If it is too large, none is made. -/
lemma gifMakePalette_overflow (h : 2 ^ 31 ≤ changedPixels lastFrame nextFrame width height * 127)
    (pPal : GifPalette) :
    gifMakePalette lastFrame nextFrame width height 8 pPal = .error .overflow := by
  have hproduct : intResult (changedPixels lastFrame nextFrame width height *
      ((128 : Nat) - (1 : Nat))) = .error .overflow := if_neg (by omega)
  have hpixels : changedPixels lastFrame nextFrame width height ≠ 0 := by omega
  have hinner : (SplitArgs.root (changedPixels lastFrame nextFrame width height) 8).Inner :=
    ⟨show 1 + 1 < 256 by decide, hpixels⟩
  apply Runs.bind_error.mpr
  left
  exact gifSplitPalette_of_subPixels hinner (Runs.bind_error.mpr (.inl hproduct))

end

end GifTools
