import GifTools.Core.Select
import GifTools.Gif.Palette

/-!
# Partitioning the pixels by their median

`GifPartition` puts pixels that are equal to the pivot on both sides in turn, and swapping two
pixels loses the alpha of one. Neither matters for the colours: they are rearranged, and split by
the pixel at the needed place.
-/

namespace GifTools

open Select

/-- The colours of pixels in memory. -/
def colors (image : Pixels) : Nat → UInt8 × UInt8 × UInt8 := fun i => (image i).rgb

/-- A component of a colour. -/
def rgbElt (elt : Nat) (c : UInt8 × UInt8 × UInt8) : Nat :=
  match elt with
  | 0 => c.1.toNat
  | 1 => c.2.1.toNat
  | _ => c.2.2.toNat

lemma rgbElt_le (elt : Nat) (c : UInt8 × UInt8 × UInt8) : rgbElt elt c ≤ 255 := by
  match elt with
  | 0 => exact Nat.le_of_lt_succ (UInt8.toNat_lt _)
  | 1 => exact Nat.le_of_lt_succ (UInt8.toNat_lt _)
  | _ + 2 => exact Nat.le_of_lt_succ (UInt8.toNat_lt _)

lemma toNat_elt {elt : Nat} (helt : elt < 3) (p : GifPixel) :
    (p.elt elt).toNat = rgbElt elt p.rgb := by
  match elt with
  | 0 => rfl
  | 1 => rfl
  | 2 => rfl

/-! ### One pass -/

lemma colors_gifSwapPixels (image : Pixels) (pixA pixB : Nat) :
    colors (gifSwapPixels image pixA pixB) = colors image ∘ Equiv.swap pixA pixB := by
  funext i
  rw [colors, Function.comp_apply, gifSwapPixels]
  by_cases hB : i = pixB
  · rw [hB, Function.update_self, Equiv.swap_apply_right]
    rfl
  · rw [Function.update_of_ne hB]
    by_cases hA : i = pixA
    · rw [hA, Function.update_self, Equiv.swap_apply_left]
      rfl
    · rw [Function.update_of_ne hA, Equiv.swap_apply_of_ne_of_ne hA hB]
      rfl

section

variable {elt left right ii : Nat} {pivotValue : UInt8} {image : Pixels}
  {state : Pixels × Nat × Bool} {a : Nat → UInt8 × UInt8 × UInt8}

lemma partitioning_step (helt : elt < 3) (hii : ii + 1 < right)
    (h : Partitioning (rgbElt elt) pivotValue.toNat left right a ii state.2.1 (colors state.1)) :
    Partitioning (rgbElt elt) pivotValue.toNat left right a (ii + 1)
      (gifPartitionStep elt pivotValue state ii).2.1
      (colors (gifPartitionStep elt pivotValue state ii).1) := by
  obtain ⟨image, storeIndex, split⟩ := state
  have hval : ((image ii).elt elt).toNat = rgbElt elt (colors image ii) := toNat_elt helt _
  simp only [gifPartitionStep]
  split
  case isTrue hlt =>
    rw [UInt8.lt_iff_toNat_lt, hval] at hlt
    simp only [colors_gifSwapPixels]
    exact h.swap hii hlt.le
  case isFalse hge =>
    rw [UInt8.lt_iff_toNat_lt, hval] at hge
    split
    case isTrue heq =>
      rw [← UInt8.toNat_inj, hval] at heq
      split
      · simp only [colors_gifSwapPixels]
        exact h.swap hii heq.le
      · exact h.keep heq.ge
    case isFalse =>
      exact h.keep (not_lt.mp hge)

lemma partitioning_foldl (helt : elt < 3) {n : Nat} (hn : ii + n < right)
    (h : Partitioning (rgbElt elt) pivotValue.toNat left right a ii state.2.1 (colors state.1)) :
    Partitioning (rgbElt elt) pivotValue.toNat left right a (ii + n)
      ((List.range' ii n).foldl (gifPartitionStep elt pivotValue) state).2.1
      (colors ((List.range' ii n).foldl (gifPartitionStep elt pivotValue) state).1) := by
  induction n generalizing ii state with
  | zero => exact h
  | succ n ih =>
    rw [List.range'_succ, List.foldl_cons, ← Nat.add_assoc, Nat.add_right_comm]
    exact ih (by omega) (partitioning_step helt (by omega) h)

/-- The pivot is moved to the end first. -/
lemma partitioning_start (helt : elt < 3) {pivotIndex : Nat} (hpivot : left ≤ pivotIndex)
    (hpivot' : pivotIndex < right) (image : Pixels) :
    Partitioning (rgbElt elt) ((image pivotIndex).elt elt).toNat left right (colors image) left left
      (colors (gifSwapPixels image pivotIndex (right - 1))) where
  rearranges := by
    rw [colors_gifSwapPixels]
    apply rearranges_swap <;> omega
  le_store := le_rfl
  store_le := le_rfl
  below i hi hi' := by omega
  above i hi hi' := by omega
  last := by
    rw [colors_gifSwapPixels, Function.comp_apply, Equiv.swap_apply_right, toNat_elt helt]
    rfl

/-- The pivot splits the pixels where `GifPartition` returns. -/
lemma gifPartition_spec (helt : elt < 3) {pivotIndex : Nat} (hpivot : left ≤ pivotIndex)
    (hpivot' : pivotIndex < right) (image : Pixels) :
    left ≤ (gifPartition image left right elt pivotIndex).2 ∧
      (gifPartition image left right elt pivotIndex).2 < right ∧
      Rearranges left right (colors image)
        (colors (gifPartition image left right elt pivotIndex).1) ∧
      SplitAt (rgbElt elt) left right (gifPartition image left right elt pivotIndex).2
        (colors (gifPartition image left right elt pivotIndex).1) := by
  obtain ⟨state, hstate⟩ : ∃ state : Pixels × Nat × Bool,
      state = (gifSwapPixels image pivotIndex (right - 1), left, false) := ⟨_, rfl⟩
  have hstart : Partitioning (rgbElt elt) ((image pivotIndex).elt elt).toNat left right
      (colors image) left state.2.1 (colors state.1) := by
    rw [hstate]
    exact partitioning_start helt hpivot hpivot' image
  have hloop := partitioning_foldl helt (by omega : left + (right - 1 - left) < right) hstart
  rw [show left + (right - 1 - left) = right - 1 by omega] at hloop
  obtain ⟨hrearranges, hsplit⟩ := hloop.splitAt (by omega)
  have hle := hloop.le_store
  have hlt := hloop.store_le
  simp only [gifPartition, ← hstate]
  rw [colors_gifSwapPixels]
  exact ⟨hle, hlt.trans_lt (Nat.sub_one_lt_of_lt hpivot'), hrearranges, hsplit⟩

end

/-! ### The side of the median -/

/-- The pixel at the needed place splits the pixels. -/
theorem gifPartitionByMedian_spec {depth left right com neededCenter : Nat} (hcom : com < 3)
    (hdepth : right ≤ left + depth) (hle : left ≤ neededCenter) (hlt : neededCenter < right)
    (image : Pixels) :
    Rearranges left right (colors image)
        (colors (gifPartitionByMedian depth image left right com neededCenter)) ∧
      SplitAt (rgbElt com) left right neededCenter
        (colors (gifPartitionByMedian depth image left right com neededCenter)) := by
  induction depth generalizing image left right with
  | zero => omega
  | succ depth ih =>
    rw [gifPartitionByMedian]
    by_cases hone : left + 1 < right
    · rw [if_pos hone]
      obtain ⟨hpl, hpr, hrearranges, hsplit⟩ := gifPartition_spec hcom
        (by omega : left ≤ left + (right - left) / 2)
        (by omega : left + (right - left) / 2 < right) image
      simp only
      generalize gifPartition image left right com (left + (right - left) / 2) = r at *
      obtain ⟨image', p⟩ := r
      simp only at *
      rcases Nat.lt_trichotomy neededCenter p with hside | rfl | hside
      · obtain ⟨hrearranges', hsplit'⟩ := ih (by omega) hle hside image'
        rw [if_pos hside, if_neg (by omega)]
        exact ⟨hrearranges.trans (hrearranges'.mono le_rfl hpr.le),
          hsplit.of_left hrearranges' hsplit' hle hside⟩
      · rw [if_neg (lt_irrefl _), if_neg (lt_irrefl _)]
        exact ⟨hrearranges, hsplit⟩
      · obtain ⟨hrearranges', hsplit'⟩ := ih (by omega) hside hlt image'
        have hskip : ¬ p > neededCenter := by omega
        rw [if_neg hskip, if_pos hside]
        exact ⟨hrearranges.trans (hrearranges'.mono (by omega) le_rfl),
          hsplit.of_right hrearranges' hsplit' hside hlt⟩
    · rw [if_neg hone]
      refine ⟨.refl _ _ _, ?_, ?_⟩
      · intro i hi hi'
        omega
      · intro i hi hi'
        omega

end GifTools
