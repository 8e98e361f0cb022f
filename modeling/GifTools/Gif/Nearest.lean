import GifTools.Gif.Assigned
import Mathlib.Algebra.Order.BigOperators.Group.List

/-!
# The nearest colour

With a changed pixel for each colour, the nodes and leaves that `GifSplitPalette` assigns are a k-d
tree of the colours 1 to 255, and `GifGetClosestPaletteColor` finds what comparing with all of them
finds.
-/

namespace GifTools

open KdTree Select

/-! ### The palette as a tree -/

section

variable (pPal : GifPalette) (beyond : Nat → Int) (r g b : Int)

def GifPalette.color (e : Nat) : UInt8 × UInt8 × UInt8 := (pPal.r e, pPal.g e, pPal.b e)

/-- The tree below a node, `k` levels above the leaves. Leaf 256 is the transparent colour. -/
def paletteTree (k treeNode : Nat) : KdTree Nat Nat Int :=
  ofHeap (fun n => (pPal.treeSplitElt n).toNat) (fun n => ((pPal.treeSplit n).toNat : Int))
    (fun n => if n = 256 then none else some (n - 256)) k treeNode

/-- What is compared with the component of a query. -/
def colorComps (c e : Nat) : Int :=
  comps (pPal.r e).toNat (pPal.g e).toNat (pPal.b e).toNat beyond c

/-- The distance of a colour from entry `e`. -/
def colorDist (e : Nat) : Int :=
  gifIAbs (r - (pPal.r e).toNat) + gifIAbs (g - (pPal.g e).toNat) + gifIAbs (b - (pPal.b e).toNat)

lemma gifIAbs_bounds (i : Int) : 0 ≤ gifIAbs i ∧ i ≤ gifIAbs i ∧ -i ≤ gifIAbs i := by
  rw [gifIAbs]
  split
  · omega
  · omega

/-- The difference of one component is at most the distance. -/
lemma colorComps_sub_le (c e : Nat) :
    colorComps pPal beyond c e - comps r g b beyond c ≤ colorDist pPal r g b e ∧
      comps r g b beyond c - colorComps pPal beyond c e ≤ colorDist pPal r g b e := by
  have hr := gifIAbs_bounds (r - (pPal.r e).toNat)
  have hg := gifIAbs_bounds (g - (pPal.g e).toNat)
  have hb := gifIAbs_bounds (b - (pPal.b e).toNat)
  rw [colorDist]
  match c with
  | 0 =>
    simp only [colorComps, comps]
    omega
  | 1 =>
    simp only [colorComps, comps]
    omega
  | 2 =>
    simp only [colorComps, comps]
    omega
  | _ + 3 =>
    simp only [colorComps, comps]
    omega

lemma colorComps_of_lt {c : Nat} (hc : c < 3) (e : Nat) :
    colorComps pPal beyond c e = (rgbElt c (pPal.color e) : Nat) := by
  match c with
  | 0 => rfl
  | 1 => rfl
  | 2 => rfl

variable {pPal}

/-- The search is that of the tree. -/
lemma gifGetClosestPaletteColor_eq (hdepth : pPal.bitDepth = 8) {k treeRoot : Nat}
    (hlo : 256 ≤ treeRoot * 2 ^ k) (hhi : (treeRoot + 1) * 2 ^ k ≤ 512) (best : Nat × Int) :
    gifGetClosestPaletteColor pPal beyond r g b (k + 1) treeRoot best =
      closest (colorDist pPal r g b) (comps r g b beyond) (paletteTree pPal k treeRoot) best := by
  induction k generalizing treeRoot best with
  | zero =>
    simp only [pow_zero, Nat.mul_one] at hlo hhi
    rw [gifGetClosestPaletteColor, hdepth, if_pos (by omega), paletteTree, ofHeap]
    simp only [show 2 ^ 8 = 256 from rfl]
    by_cases htrans : treeRoot = 256
    · rw [if_pos htrans, if_pos (by rw [htrans]; rfl)]
      rfl
    · have hind : treeRoot - 256 ≠ kGifTransIndex := by
        rw [kGifTransIndex]
        omega
      rw [if_neg htrans, if_neg hind]
      rfl
  | succ k ih =>
    rw [pow_succ', ← Nat.mul_assoc] at hlo hhi
    have hpos := Nat.two_pow_pos k
    have hinner : ¬ treeRoot > 2 ^ pPal.bitDepth - 1 := by
      have hle : treeRoot + 1 ≤ (treeRoot + 1) * 2 ^ k := Nat.le_mul_of_pos_right _ hpos
      rw [Nat.mul_right_comm] at hhi
      rw [hdepth]
      omega
    have hleft (best) := @ih (treeRoot * 2) hlo
      ((Nat.mul_le_mul_right _ (by omega)).trans hhi) best
    rw [Nat.add_mul treeRoot 1 2] at hhi
    have hright (best) := @ih (treeRoot * 2 + 1) (hlo.trans (Nat.mul_le_mul_right _ (by omega)))
      hhi best
    rw [gifGetClosestPaletteColor, if_neg hinner]
    simp only [hleft, hright]
    rfl

end

/-! ### Averages -/

section

variable {image : Pixels} {first numPixels elt : Nat}

/-- The pixels of a segment have a component in these bounds. -/
def Within (elt lo hi first numPixels : Nat) (image : Pixels) : Prop :=
  ∀ i, first ≤ i → i < first + numPixels →
    lo ≤ rgbElt elt (colors image i) ∧ rgbElt elt (colors image i) ≤ hi

lemma Within.congr {lo hi : Nat} {image' : Pixels} (h : Within elt lo hi first numPixels image)
    (heq : ∀ i, first ≤ i → colors image' i = colors image i) :
    Within elt lo hi first numPixels image' := by
  intro i hi hi'
  rw [heq i hi]
  exact h i hi hi'

/-- An average is between the values it is made of. -/
lemma averageElt_bounds (helt : elt < 3) (hpixels : 0 < numPixels) {lo hi : Nat}
    (h : Within elt lo hi first numPixels image) :
    lo ≤ (averageElt image first numPixels elt).toNat ∧
      (averageElt image first numPixels elt).toNat ≤ hi := by
  obtain ⟨values, hvalues⟩ : ∃ values, values =
    (List.range numPixels).map fun ii => ((image (first + ii)).elt elt).toNat := ⟨_, rfl⟩
  have hlength : values.length = numPixels := by simp [hvalues]
  have hmem : ∀ x ∈ values, lo ≤ x ∧ x ≤ min hi 255 := by
    intro x hx
    rw [hvalues] at hx
    obtain ⟨ii, hii, rfl⟩ := List.mem_map.mp hx
    obtain ⟨hlo, hhi⟩ := h (first + ii) (by omega) (by simpa using hii)
    have hbyte := UInt8.toNat_lt ((image (first + ii)).elt elt)
    rw [toNat_elt helt] at hbyte ⊢
    exact ⟨hlo, le_min hhi (by omega)⟩
  have hlo := List.card_nsmul_le_sum values lo fun x hx => (hmem x hx).1
  have hhi := List.sum_le_card_nsmul values (min hi 255) fun x hx => (hmem x hx).2
  rw [hlength, Nat.nsmul_eq_mul] at hlo hhi
  have hle : lo ≤ (values.sum + numPixels / 2) / numPixels := by
    rw [Nat.le_div_iff_mul_le hpixels, Nat.mul_comm]
    exact hlo.trans (Nat.le_add_right _ _)
  have hlt : (values.sum + numPixels / 2) / numPixels < min hi 255 + 1 := by
    rw [Nat.div_lt_iff_lt_mul hpixels, Nat.add_mul, Nat.mul_comm, Nat.one_mul]
    exact Nat.add_lt_add_of_le_of_lt hhi (Nat.div_lt_self hpixels (by decide))
  simp only [averageElt, ← hvalues]
  rw [UInt8.toNat_ofNat', Nat.mod_eq_of_lt (by omega)]
  exact ⟨hle, by omega⟩

end

/-! ### The tree is sorted -/

/-- What a call assigned is in the palette. -/
def GifPalette.Agrees (q : GifPalette) (assign : GifPalette → GifPalette) : Prop :=
  ∀ event, Assigns assign event → ∀ pal, q.read event = (assign pal).read event

section

variable {q : GifPalette} {k : Nat} {image : Pixels}
  {first numPixels firstElt lastElt splitElt splitDist treeNode : Nat} {image' : Pixels}
  {assign : GifPalette → GifPalette}

lemma paletteTree_succ (q : GifPalette) (k treeNode : Nat) : paletteTree q (k + 1) treeNode =
    .node (q.treeSplitElt treeNode).toNat (q.treeSplit treeNode).toNat
      (paletteTree q k (treeNode * 2)) (paletteTree q k (treeNode * 2 + 1)) := rfl

lemma splitElt_eq_of_read {x y : UInt8} (h : q.read (.node treeNode) = [x, y]) :
    q.treeSplitElt treeNode = x ∧ q.treeSplit treeNode = y := by
  simpa [GifPalette.read] using h

/-- The average of the pixels of a leaf. -/
lemma rgbElt_color {elt e : Nat} (helt : elt < 3)
    (h : q.Agrees (leafColor image first numPixels e)) :
    rgbElt elt (q.color e) = (averageElt image first numPixels elt).toNat := by
  have hread := h _ assigns_leafColor default
  rw [leafColor, GifPalette.read_setColor, GifPalette.read, List.cons.injEq, List.cons.injEq,
    List.cons.injEq] at hread
  obtain ⟨hr, hg, hb, -⟩ := hread
  obtain rfl | rfl | rfl : elt = 0 ∨ elt = 1 ∨ elt = 2 := by omega
  · exact congrArg UInt8.toNat hr
  · exact congrArg UInt8.toNat hg
  · exact congrArg UInt8.toNat hb

namespace Splits

/-- The palette has what a call of an inner node and its two calls assigned. -/
lemma agrees_node {subPixelsA : Nat} {image'' : Pixels}
    {assignA assignB : GifPalette → GifPalette} (hnode : 0 < treeNode)
    (hleft : Splits k (splitImage image first numPixels subPixelsA) first subPixelsA firstElt
      splitElt (splitElt - splitDist) (splitDist / 2) (treeNode * 2) image' assignA)
    (hright : Splits k image' (first + subPixelsA) (numPixels - subPixelsA) splitElt lastElt
      (splitElt + splitDist) (splitDist / 2) (treeNode * 2 + 1) image'' assignB)
    (hq : q.Agrees (assignB ∘ assignA ∘ splitNode image first numPixels subPixelsA treeNode)) :
    q.read (.node treeNode) = [UInt8.ofNat (splitCom image first numPixels),
        (splitImage image first numPixels subPixelsA (first + subPixelsA)).elt
          (splitCom image first numPixels)] ∧
      q.Agrees assignA ∧ q.Agrees assignB := by
  refine ⟨?_, ?_, ?_⟩
  · have hkeepsA := hleft.keeps_above (by omega : treeNode < treeNode * 2)
    have hkeepsB := hright.keeps_above (by omega : treeNode < treeNode * 2 + 1)
    rw [hq _ (hkeepsB.comp_assigns (hkeepsA.comp_assigns assigns_splitNode)) default,
      Function.comp_apply, hkeepsB, Function.comp_apply, hkeepsA, splitNode,
      GifPalette.read_setNode]
  · intro event hevent pal
    have hkeepsB := hleft.keeps_right hnode hright hevent
    rw [hq _ (hkeepsB.comp_assigns (hevent.comp _)) pal, Function.comp_apply, hkeepsB,
      Function.comp_apply]
    exact hevent _ _
  · intro event hevent pal
    rw [hq _ (hevent.comp _) pal]
    exact hevent _ _

/-- The colours below a node are between those of its pixels. -/
lemma color_bounds (h : Splits k image first numPixels firstElt lastElt splitElt splitDist treeNode
    image' assign) (hlt : firstElt < lastElt) (hsize : lastElt - firstElt ≤ numPixels)
    (hq : q.Agrees assign) {elt lo hi : Nat} (helt : elt < 3)
    (hpix : Within elt lo hi first numPixels image) {e : Nat}
    (he : e ∈ (paletteTree q k treeNode).points) :
    lo ≤ rgbElt elt (q.color e) ∧ rgbElt elt (q.color e) ≤ hi := by
  induction h with
  | none => omega
  | @leaf _ _ _ firstElt _ _ hpixels hpos =>
    rw [paletteTree, ofHeap, if_neg (by omega), Nat.add_sub_cancel_left] at he
    obtain rfl : e = firstElt := List.mem_singleton.mp he
    rw [rgbElt_color helt hq]
    exact averageElt_bounds helt hpixels hpix
  | lowest hpixels =>
    obtain rfl : e = 1 := List.mem_singleton.mp he
    rw [rgbElt_color helt hq]
    exact averageElt_bounds helt hpixels hpix
  | @node _ image _ _ _ _ first numPixels firstElt lastElt splitElt _ _ subPixelsA hpixels hfirst
      hlast _ hpart hnode _ _ hleft hright ihl ihr =>
    obtain ⟨hl, hr⟩ := le_part (by omega : splitElt - firstElt ≤ lastElt - firstElt) (by omega)
      hsize
    have hsub : subPixelsA < numPixels := hpart ▸ part_lt (by omega) hpixels
    rw [hpart] at hl hr
    obtain ⟨-, hql, hqr⟩ := agrees_node hnode hleft hright hq
    have hpix' := (splitImage_spec image first hsub).1.forall
      (Q := fun c => lo ≤ rgbElt elt c ∧ rgbElt elt c ≤ hi) hpix
    rw [paletteTree_succ, points, List.mem_append] at he
    rcases he with he | he
    · apply ihl hfirst hl hql _ he
      intro i hi hi'
      exact hpix' i hi (by omega)
    · apply ihr hlast (by omega) hqr _ he
      intro i hi hi'
      rw [hleft.rearranges.outside (.inr hi)]
      exact hpix' i (by omega) (by omega)

/-- Each node has the colours of its two sides on the two sides of its split. -/
lemma separated (h : Splits k image first numPixels firstElt lastElt splitElt splitDist treeNode
    image' assign) (hlt : firstElt < lastElt) (hsize : lastElt - firstElt ≤ numPixels)
    (hq : q.Agrees assign) (hlow : q.read (.node 128) = [0, 0]) (beyond : Nat → Int) :
    (paletteTree q k treeNode).Separated (colorComps q beyond) := by
  induction h with
  | none => omega
  | leaf _ hpos =>
    rw [paletteTree, ofHeap, if_neg (by omega)]
    trivial
  | lowest _ =>
    obtain ⟨helt, hsplit⟩ := splitElt_eq_of_read hlow
    rw [paletteTree_succ, helt, hsplit]
    refine ⟨?_, ?_, trivial, trivial⟩
    · intro e he
      cases he
    · intro e _
      rw [colorComps_of_lt q beyond (by decide)]
      exact Int.natCast_nonneg _
  | @node _ image _ _ _ _ first numPixels firstElt lastElt splitElt _ _ subPixelsA hpixels hfirst
      hlast _ hpart hnode _ _ hleft hright ihl ihr =>
    obtain ⟨hl, hr⟩ := le_part (by omega : splitElt - firstElt ≤ lastElt - firstElt) (by omega)
      hsize
    have hsub : subPixelsA < numPixels := hpart ▸ part_lt (by omega) hpixels
    rw [hpart] at hl hr
    obtain ⟨hread, hql, hqr⟩ := agrees_node hnode hleft hright hq
    obtain ⟨-, hbelow, habove⟩ := splitImage_spec image first hsub
    have hcom := splitCom_lt image first numPixels
    obtain ⟨helt, hsplit⟩ := splitElt_eq_of_read hread
    rw [paletteTree_succ, helt, hsplit, UInt8.toNat_ofNat', Nat.mod_eq_of_lt (by omega),
      toNat_elt hcom]
    refine ⟨?_, ?_, ihl hfirst hl hql, ihr hlast (by omega) hqr⟩
    · intro e he
      have hwithin : Within (splitCom image first numPixels) 0
          (rgbElt (splitCom image first numPixels)
            (colors (splitImage image first numPixels subPixelsA) (first + subPixelsA)))
          first subPixelsA (splitImage image first numPixels subPixelsA) :=
        fun i hi hi' => ⟨Nat.zero_le _, hbelow i hi hi'⟩
      rw [colorComps_of_lt q beyond hcom]
      exact Int.ofNat_le.mpr (hleft.color_bounds hfirst hl hql hcom hwithin he).2
    · intro e he
      have hwithin : Within (splitCom image first numPixels)
          (rgbElt (splitCom image first numPixels)
            (colors (splitImage image first numPixels subPixelsA) (first + subPixelsA)))
          255 (first + subPixelsA) (numPixels - subPixelsA)
          (splitImage image first numPixels subPixelsA) := by
        intro i hi hi'
        refine ⟨?_, rgbElt_le _ _⟩
        rcases Nat.eq_or_lt_of_le hi with rfl | hgt
        · exact le_rfl
        · exact habove i hgt (by omega)
      rw [colorComps_of_lt q beyond hcom]
      have hwithin' := hwithin.congr fun i hi => hleft.rearranges.outside (.inr hi)
      exact Int.ofNat_le.mpr (hright.color_bounds hlast (by omega) hqr hcom hwithin' he).1

end Splits

end

/-! ### The palette of a frame -/

section

variable {lastFrame : Option Pixels} {nextFrame : Pixels} {width height : Nat}

/-- What `GifSplitPalette` assigned is not overwritten. -/
lemma Splits.agrees_madePalette {image image' : Pixels} {numPixels : Nat}
    {assign : GifPalette → GifPalette}
    (h : Splits 8 image 0 numPixels 1 256 128 64 1 image' assign) (pPal : GifPalette) :
    (madePalette assign pPal).Agrees assign := by
  intro event hevent pal
  rw [read_madePalette]
  · exact hevent _ _
  · rintro rfl
    exact (h.node_of_assigns hevent).2 rfl
  · rintro rfl
    exact absurd (h.color_of_assigns hevent).1 (by decide)

lemma mem_points_paletteTree (q : GifPalette) {e : Nat} :
    e ∈ (paletteTree q 8 1).points ↔ 1 ≤ e ∧ e ≤ 255 := by
  rw [paletteTree, mem_points_ofHeap]
  constructor
  · rintro ⟨j, hle, hlt, hj⟩
    by_cases htrans : j = 256
    · rw [if_pos htrans] at hj
      cases hj
    · rw [if_neg htrans, Option.some.injEq] at hj
      omega
  · rintro ⟨hle, hlt⟩
    refine ⟨e + 256, by omega, by omega, ?_⟩
    rw [if_neg (by omega), Nat.add_sub_cancel]

lemma colorDist_lt (q : GifPalette) (p : GifPixel) (e : Nat) :
    colorDist q p.r.toNat p.g.toNat p.b.toNat e < 1000000 := by
  have hbyte (x y : UInt8) : gifIAbs (x.toNat - y.toNat) ≤ 255 := by
    have hx := UInt8.toNat_lt x
    have hy := UInt8.toNat_lt y
    rw [gifIAbs]
    split
    · omega
    · omega
  have hr := hbyte p.r (q.r e)
  have hg := hbyte p.g (q.g e)
  have hb := hbyte p.b (q.b e)
  rw [colorDist]
  omega

/-- With a changed pixel for each colour the search is exact. -/
theorem closestIndex_nearest (h : 255 ≤ changedPixels lastFrame nextFrame width height)
    (h' : changedPixels lastFrame nextFrame width height ≤ 16000000) (pPal : GifPalette)
    (beyond : Nat → Int) (p : GifPixel) :
    ∃ pal, gifMakePalette lastFrame nextFrame width height 8 pPal = .ok pal ∧
      let dist := colorDist pal p.r.toNat p.g.toNat p.b.toNat
      1 ≤ closestIndex pal beyond p ∧ closestIndex pal beyond p ≤ 255 ∧
        ∀ e, 1 ≤ e → e ≤ 255 → dist (closestIndex pal beyond p) ≤ dist e := by
  have hpos : 0 ≤ changedPixels lastFrame nextFrame width height := by omega
  obtain ⟨image', assign, hsplits, hmade⟩ := exists_gifMakePalette hpos (by omega)
  refine ⟨madePalette assign pPal, hmade pPal, ?_⟩
  have hdepth := gifMakePalette_bitDepth (hmade pPal)
  have hagrees := hsplits.agrees_madePalette pPal
  have hlowest : (madePalette assign pPal).read (.node 128) = [0, 0] := read_madePalette_lowest
  generalize madePalette assign pPal = pal at hdepth hagrees hlowest ⊢
  intro dist
  have hseparated : (paletteTree pal 8 1).Separated (colorComps pal beyond) :=
    hsplits.separated (by decide) (by omega) hagrees hlowest beyond
  obtain ⟨found, hfound⟩ : ∃ found, closest dist (comps p.r.toNat p.g.toNat p.b.toNat beyond)
    (paletteTree pal 8 1) (1, 1000000) = found := ⟨_, rfl⟩
  have hsearch : closestIndex pal beyond p = found.1 := by
    rw [closestIndex, hdepth, gifGetClosestPaletteColor_eq _ _ _ _ hdepth (by decide) (by decide),
      ← hfound]
  obtain ⟨-, hnearest, hmem⟩ := found_closest (colorComps_sub_le pal beyond _ _ _) hseparated
    (1, 1000000)
  rw [hfound] at hnearest hmem
  simp only [mem_points_paletteTree] at hnearest hmem
  rw [hsearch]
  rcases hmem with rfl | ⟨ind, ⟨hle, hle'⟩, rfl⟩
  · -- every colour is nearer than the search starts with
    have hfar := hnearest 1 (by decide)
    have hlt := colorDist_lt pal p 1
    exact absurd hfar (not_le.mpr hlt)
  · exact ⟨hle, hle', fun e he he' => hnearest e ⟨he, he'⟩⟩

/-- In a row of 255 shades of red. -/
theorem closestIndex_nearest_row :
    ∃ pal, gifMakePalette none (fun i => ⟨UInt8.ofNat i, 0, 0, 255⟩) 255 1 8 default = .ok pal ∧
      let ind := closestIndex pal (fun _ => 0) ⟨100, 20, 0, 255⟩
      1 ≤ ind ∧ ind ≤ 255 ∧ ∀ e, 1 ≤ e → e ≤ 255 →
        colorDist pal 100 20 0 ind ≤ colorDist pal 100 20 0 e :=
  closestIndex_nearest (by decide) (by decide) default (fun _ => 0) ⟨100, 20, 0, 255⟩

end

end GifTools
