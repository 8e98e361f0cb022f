import GifTools.Gif.Median

/-!
# The pixels that are touched

Which pixels `GifPartition` and `GifPartitionByMedian` read and write, in this order: the pivot, the
pixel the loop compares, and both pixels of a swap. All are in the segment, and what is not touched
stays as it is, alpha included.
-/

namespace GifTools

open Select

/-- The pixels one round of the loop of `GifPartition` touches. -/
def partitionStepTouches (elt : Nat) (pivotValue : UInt8) (state : Pixels × Nat × Bool)
    (ii : Nat) : List Nat :=
  let (image, storeIndex, split) := state
  let arrayVal := (image ii).elt elt
  if arrayVal < pivotValue then [ii, ii, storeIndex]
  else if arrayVal = pivotValue then
    if split then [ii, ii, storeIndex] else [ii]
  else [ii]

/-- The pixels the loop touches. -/
def partitionLoopTouches (elt : Nat) (pivotValue : UInt8) :
    List Nat → Pixels × Nat × Bool → List Nat
  | [], _ => []
  | ii :: iis, state =>
    partitionStepTouches elt pivotValue state ii ++
      partitionLoopTouches elt pivotValue iis (gifPartitionStep elt pivotValue state ii)

/-- The pixels `GifPartition` touches. -/
def partitionTouches (image : Pixels) (left right elt pivotIndex : Nat) : List Nat :=
  let pivotValue := (image pivotIndex).elt elt
  let state := (gifSwapPixels image pivotIndex (right - 1), left, false)
  let iis := List.range' left (right - 1 - left)
  [pivotIndex, pivotIndex, right - 1] ++ partitionLoopTouches elt pivotValue iis state ++
    [(iis.foldl (gifPartitionStep elt pivotValue) state).2.1, right - 1]

/-- `GifPartitionByMedian` with the pixels it touches, if `depth` nested calls are enough. -/
def partitionByMedian : Nat → Pixels → Nat → Nat → Nat → Nat → Option (Pixels × List Nat)
  | 0, _, _, _, _, _ => none
  | depth + 1, image, left, right, com, neededCenter =>
    if left + 1 < right then do
      let pivotIndex := left + (right - left) / 2
      let touched := partitionTouches image left right com pivotIndex
      let (image, pivotIndex) := gifPartition image left right com pivotIndex
      let (image, touchedLeft) ←
        if pivotIndex > neededCenter then
          partitionByMedian depth image left pivotIndex com neededCenter
        else some (image, [])
      let (image, touchedRight) ←
        if pivotIndex < neededCenter then
          partitionByMedian depth image (pivotIndex + 1) right com neededCenter
        else some (image, [])
      return (image, touched ++ touchedLeft ++ touchedRight)
    else some (image, [])

/-! ### One pass -/

section

variable {elt left right ii : Nat} {pivotValue : UInt8} {image : Pixels}
  {state : Pixels × Nat × Bool}

lemma gifSwapPixels_of_ne {pixA pixB i : Nat} (hA : i ≠ pixA) (hB : i ≠ pixB) :
    gifSwapPixels image pixA pixB i = image i := by
  rw [gifSwapPixels, Function.update_of_ne hB, Function.update_of_ne hA]

/-- The round compares a pixel, and may swap it with the one at `storeIndex`. -/
lemma gifPartitionStep_cases (elt : Nat) (pivotValue : UInt8) (state : Pixels × Nat × Bool)
    (ii : Nat) :
    (partitionStepTouches elt pivotValue state ii = [ii, ii, state.2.1] ∧
      (gifPartitionStep elt pivotValue state ii).1 = gifSwapPixels state.1 ii state.2.1 ∧
      (gifPartitionStep elt pivotValue state ii).2.1 = state.2.1 + 1) ∨
    (partitionStepTouches elt pivotValue state ii = [ii] ∧
      (gifPartitionStep elt pivotValue state ii).1 = state.1 ∧
      (gifPartitionStep elt pivotValue state ii).2.1 = state.2.1) := by
  obtain ⟨image, storeIndex, split⟩ := state
  simp only [partitionStepTouches, gifPartitionStep]
  by_cases hlt : (image ii).elt elt < pivotValue
  · simp only [if_pos hlt, true_and]
    exact .inl trivial
  · by_cases heq : (image ii).elt elt = pivotValue
    · cases split with
      | true => exact .inl (by simp only [if_neg hlt, if_pos heq, if_true, true_and])
      | false => exact .inr (by simp [if_neg hlt, if_pos heq])
    · exact .inr (by simp only [if_neg hlt, if_neg heq, true_and])

lemma gifPartitionStep_of_notMem {i : Nat}
    (hi : i ∉ partitionStepTouches elt pivotValue state ii) :
    (gifPartitionStep elt pivotValue state ii).1 i = state.1 i := by
  rcases gifPartitionStep_cases elt pivotValue state ii with ⟨htouches, himage, -⟩ |
    ⟨-, himage, -⟩
  · rw [htouches] at hi
    rw [himage]
    exact gifSwapPixels_of_ne (by rintro rfl; simp at hi) (by rintro rfl; simp at hi)
  · rw [himage]

lemma partitionLoop_of_notMem {iis : List Nat} {i : Nat}
    (hi : i ∉ partitionLoopTouches elt pivotValue iis state) :
    (iis.foldl (gifPartitionStep elt pivotValue) state).1 i = state.1 i := by
  induction iis generalizing state with
  | nil => rfl
  | cons ii iis ih =>
    rw [partitionLoopTouches, List.mem_append, not_or] at hi
    rw [List.foldl_cons, ih hi.2, gifPartitionStep_of_notMem hi.1]

/-- `storeIndex` stays behind the loop. -/
lemma partitionLoop_inside {n : Nat} (hn : ii + n < right) (hleft : left ≤ state.2.1)
    (hstore : state.2.1 ≤ ii) :
    (∀ i ∈ partitionLoopTouches elt pivotValue (List.range' ii n) state, left ≤ i ∧ i < right) ∧
      left ≤ ((List.range' ii n).foldl (gifPartitionStep elt pivotValue) state).2.1 ∧
      ((List.range' ii n).foldl (gifPartitionStep elt pivotValue) state).2.1 < right := by
  induction n generalizing ii state with
  | zero =>
    refine ⟨?_, hleft, hstore.trans_lt hn⟩
    intro i hi
    cases hi
  | succ n ih =>
    have hstep := gifPartitionStep_cases elt pivotValue state ii
    obtain ⟨hloop, hfinal⟩ := @ih (ii + 1) (gifPartitionStep elt pivotValue state ii) (by omega)
      (by omega) (by omega)
    rw [List.range'_succ, List.foldl_cons, partitionLoopTouches]
    refine ⟨fun i hi => ?_, hfinal⟩
    rcases List.mem_append.mp hi with hi | hi
    · rcases hstep with ⟨htouches, -⟩ | ⟨htouches, -⟩
      · rw [htouches] at hi
        simp only [List.mem_cons, List.not_mem_nil, or_false] at hi
        omega
      · rw [htouches, List.mem_singleton] at hi
        omega
    · exact hloop i hi

lemma partitionTouches_inside {pivotIndex : Nat} (hpivot : left ≤ pivotIndex)
    (hpivot' : pivotIndex < right) (image : Pixels) :
    ∀ i ∈ partitionTouches image left right elt pivotIndex, left ≤ i ∧ i < right := by
  intro i hi
  obtain ⟨hloop, hstore, hstore'⟩ := @partitionLoop_inside elt left right left
    ((image pivotIndex).elt elt) (gifSwapPixels image pivotIndex (right - 1), left, false)
    (right - 1 - left) (by omega) le_rfl le_rfl
  simp only [partitionTouches, List.mem_append, List.mem_cons, List.not_mem_nil, or_false] at hi
  rcases hi with (hi | hi) | hi
  · omega
  · exact hloop i hi
  · omega

lemma gifPartition_of_notMem {pivotIndex i : Nat}
    (hi : i ∉ partitionTouches image left right elt pivotIndex) :
    (gifPartition image left right elt pivotIndex).1 i = image i := by
  simp only [partitionTouches, List.mem_append, List.mem_cons, List.not_mem_nil, or_false,
    not_or] at hi
  obtain ⟨⟨⟨hpivot, -, hlast⟩, hloop⟩, hstore, -⟩ := hi
  rw [gifPartition]
  simp only
  rw [gifSwapPixels_of_ne hstore hlast, partitionLoop_of_notMem hloop]
  exact gifSwapPixels_of_ne hpivot hlast

end

/-! ### The side of the median -/

/-- All that is touched is in the segment, and the rest stays as it is. -/
structure TouchesOnly (left right : Nat) (touched : List Nat) (image image' : Pixels) : Prop where
  inside : ∀ i ∈ touched, left ≤ i ∧ i < right
  kept : ∀ i ∉ touched, image' i = image i

section

variable {com left right neededCenter depth : Nat} {image image' image'' : Pixels}

lemma touchesOnly_nil : TouchesOnly left right [] image image where
  inside _ hi := by cases hi
  kept _ _ := rfl

/-- A part of the segment is touched after it. -/
lemma TouchesOnly.append {left' right' : Nat} {first second : List Nat}
    (h : TouchesOnly left right first image image')
    (h' : TouchesOnly left' right' second image' image'') (hleft : left ≤ left')
    (hright : right' ≤ right) : TouchesOnly left right (first ++ second) image image'' where
  inside i hi := by
    rcases List.mem_append.mp hi with hi | hi
    · exact h.inside i hi
    · obtain ⟨hlow, hhigh⟩ := h'.inside i hi
      exact ⟨hleft.trans hlow, hhigh.trans_le hright⟩
  kept i hi := by
    rw [List.mem_append, not_or] at hi
    rw [h'.kept i hi.2, h.kept i hi.1]

lemma touchesOnly_gifPartition {pivotIndex : Nat} (hpivot : left ≤ pivotIndex)
    (hpivot' : pivotIndex < right) (image : Pixels) :
    TouchesOnly left right (partitionTouches image left right com pivotIndex) image
      (gifPartition image left right com pivotIndex).1 :=
  ⟨partitionTouches_inside hpivot hpivot' image, fun _ => gifPartition_of_notMem⟩

/-- As many nested calls as there are pixels are enough. -/
lemma partitionByMedian_spec (hcom : com < 3) (hdepth : right ≤ left + depth)
    (hle : left ≤ neededCenter) (hlt : neededCenter < right) (image : Pixels) :
    ∃ touched, partitionByMedian depth image left right com neededCenter =
        some (gifPartitionByMedian depth image left right com neededCenter, touched) ∧
      TouchesOnly left right touched image
        (gifPartitionByMedian depth image left right com neededCenter) := by
  induction depth generalizing image left right with
  | zero => omega
  | succ depth ih =>
    rw [partitionByMedian, gifPartitionByMedian]
    by_cases hone : left + 1 < right
    · simp only [if_pos hone]
      obtain ⟨hpl, hpr, -, -⟩ := gifPartition_spec hcom
        (by omega : left ≤ left + (right - left) / 2)
        (by omega : left + (right - left) / 2 < right) image
      have hfirst := @touchesOnly_gifPartition com left right (left + (right - left) / 2)
        (by omega) (by omega) image
      generalize gifPartition image left right com (left + (right - left) / 2) = r at *
      generalize partitionTouches image left right com (left + (right - left) / 2) = first at *
      obtain ⟨image', p⟩ := r
      simp only at *
      rcases Nat.lt_trichotomy neededCenter p with hside | rfl | hside
      · obtain ⟨touched, hrun, htouched⟩ := ih (by omega) hle hside image'
        have hskip : ¬ p < neededCenter := by omega
        simp only [gt_iff_lt, if_pos hside, if_neg hskip, hrun]
        refine ⟨first ++ touched ++ [], rfl, ?_⟩
        rw [List.append_nil]
        exact hfirst.append htouched le_rfl hpr.le
      · simp only [gt_iff_lt, lt_irrefl, if_false]
        refine ⟨first ++ [] ++ [], rfl, ?_⟩
        rw [List.append_nil, List.append_nil]
        exact hfirst
      · obtain ⟨touched, hrun, htouched⟩ :=
          ih (by omega) (by omega : p + 1 ≤ neededCenter) hlt image'
        have hskip : ¬ neededCenter < p := by omega
        simp only [gt_iff_lt, if_pos hside, if_neg hskip, Option.bind_eq_bind, Option.bind_some,
          hrun]
        refine ⟨first ++ [] ++ touched, rfl, ?_⟩
        rw [List.append_nil]
        exact hfirst.append htouched (by omega) le_rfl
    · rw [if_neg hone, if_neg hone]
      exact ⟨[], rfl, touchesOnly_nil⟩

end

/-- The colours of the pixels from `left` to `right - 1`. -/
def segmentColors (left right : Nat) (image : Pixels) : List (UInt8 × UInt8 × UInt8) :=
  (List.range' left (right - left)).map (colors image)

/-- The recursion ends and touches pixels of the segment only; the others stay as they are. The
colours of the segment are rearranged, and split by the pixel at `neededCenter`. The `int`s that the
code computes, offsets of bytes, do not overflow for up to 2²⁹ pixels. -/
theorem gifPartitionByMedian_partitions (image : Pixels) {left right com neededCenter : Nat}
    (hcom : com < 3) (hle : left ≤ neededCenter) (hlt : neededCenter < right) :
    ∃ image' touched,
      partitionByMedian (right - left) image left right com neededCenter = some (image', touched) ∧
      gifPartitionByMedian (right - left) image left right com neededCenter = image' ∧
      (∀ i ∈ touched, left ≤ i ∧ i < right) ∧
      (4 * right ≤ 2 ^ 31 → ∀ i ∈ touched, 4 * i + 3 < 2 ^ 31) ∧
      (∀ i, i < left ∨ right ≤ i → image' i = image i) ∧
      (segmentColors left right image').Perm (segmentColors left right image) ∧
      (∀ i, left ≤ i → i < neededCenter → (image' i).elt com ≤ (image' neededCenter).elt com) ∧
      ∀ i, neededCenter < i → i < right → (image' neededCenter).elt com ≤ (image' i).elt com := by
  obtain ⟨touched, hrun, htouched⟩ :=
    partitionByMedian_spec hcom (by omega : right ≤ left + (right - left)) hle hlt image
  obtain ⟨hrearranges, hsplit⟩ :=
    gifPartitionByMedian_spec hcom (by omega : right ≤ left + (right - left)) hle hlt image
  refine ⟨_, touched, hrun, rfl, htouched.inside, ?_, ?_, hrearranges.perm, ?_, ?_⟩
  · intro hright i hi
    have := (htouched.inside i hi).2
    omega
  · intro i hi
    apply htouched.kept
    intro hmem
    have := htouched.inside i hmem
    omega
  · intro i hi hi'
    rw [UInt8.le_iff_toNat_le, toNat_elt hcom, toNat_elt hcom]
    exact hsplit.below i hi hi'
  · intro i hi hi'
    rw [UInt8.le_iff_toNat_le, toNat_elt hcom, toNat_elt hcom]
    exact hsplit.above i hi hi'

/-- Three pixels, the needed one in the middle. -/
theorem gifPartitionByMedian_partitions_three :
    ∃ image' touched,
      partitionByMedian 3 (fun i => ⟨0, UInt8.ofNat (7 - i), 0, 0⟩) 0 3 1 1 =
        some (image', touched) ∧
      (∀ i ∈ touched, i < 3) ∧ (image' 0).elt 1 ≤ (image' 1).elt 1 ∧
      (image' 1).elt 1 ≤ (image' 2).elt 1 := by
  obtain ⟨image', touched, hrun, -, hinside, -, -, -, hbelow, habove⟩ :=
    gifPartitionByMedian_partitions (fun i => ⟨0, UInt8.ofNat (7 - i), 0, 0⟩)
      (show 1 < 3 by decide) (show 0 ≤ 1 by decide) (show 1 < 3 by decide)
  exact ⟨image', touched, hrun, fun i hi => (hinside i hi).2, hbelow 0 (by decide) (by decide),
    habove 2 (by decide) (by decide)⟩

end GifTools
