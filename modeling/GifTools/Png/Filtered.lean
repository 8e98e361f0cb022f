import GifTools.Png.Image
import Mathlib.Tactic.IntervalCases

/-!
# Filters and their inverses

The writer writes the differences of a row from what the format predicts, in the first row as in all
others, and the loader puts the row back, whether it puts alpha behind the pixels or not.
-/

namespace GifTools

open Predict

/-! ### Pixels -/

section

variable {A B : Type} {n m count q k : Nat} {f : List A → List B}

lemma length_mapPixels (hf : ∀ p : List A, p.length = n → (f p).length = m) {p : List A}
    (hp : n * count ≤ p.length) : (mapPixels n f count p).length = m * count := by
  induction count generalizing p with
  | zero => rfl
  | succ count ih =>
    rw [Nat.mul_succ] at hp ⊢
    rw [mapPixels, List.length_append, hf _ (List.length_take_of_le (by omega)),
      ih (by rw [List.length_drop]; omega), Nat.add_comm]

/-- A pixel of the result comes from the pixel at the same place. -/
lemma getD_mapPixels (hf : ∀ p : List A, p.length = n → (f p).length = m) {p : List A}
    (hp : n * count ≤ p.length) (hq : q < count) (hk : k < m) (b : B) :
    (mapPixels n f count p).getD (q * m + k) b = (f ((p.drop (q * n)).take n)).getD k b := by
  induction count generalizing p q with
  | zero => exact absurd hq (Nat.not_lt_zero q)
  | succ count ih =>
    rw [Nat.mul_succ] at hp
    have hfirst : (f (p.take n)).length = m := hf _ (List.length_take_of_le (by omega))
    rw [mapPixels]
    cases q with
    | zero =>
      rw [Nat.zero_mul, Nat.zero_mul, Nat.zero_add, List.drop_zero,
        List.getD_append _ _ _ _ (by omega)]
    | succ q =>
      rw [List.getD_append_right _ _ _ _ (by rw [hfirst, Nat.succ_mul]; omega), hfirst,
        show (q + 1) * m + k - m = q * m + k by rw [Nat.succ_mul]; omega,
        ih (by rw [List.length_drop]; omega) (by omega), List.drop_drop,
        Nat.succ_mul, Nat.add_comm (q * n) n]

lemma mapPixels_succ_right (n : Nat) (f : List A → List B) (count : Nat) (p : List A) :
    mapPixels n f (count + 1) p =
      mapPixels n f count p ++ f ((p.drop (count * n)).take n) := by
  induction count generalizing p with
  | zero => simp [mapPixels]
  | succ count ih =>
    rw [mapPixels, ih, mapPixels, List.drop_drop, List.append_assoc, Nat.succ_mul,
      Nat.add_comm (count * n) n]

lemma mapPixels_congr {g : List A → List B} (hfg : ∀ p : List A, p.length = n → f p = g p)
    {p : List A} (hp : n * count ≤ p.length) : mapPixels n f count p = mapPixels n g count p := by
  induction count generalizing p with
  | zero => rfl
  | succ count ih =>
    rw [Nat.mul_succ] at hp
    rw [mapPixels, mapPixels, hfg _ (List.length_take_of_le (by omega)),
      ih (by rw [List.length_drop]; omega)]

/-- Two loops, one behind the other. -/
lemma mapPixels_mapPixels {C : Type} {g : List B → List C}
    (hf : ∀ p : List A, p.length = n → (f p).length = m) {p : List A}
    (hp : n * count ≤ p.length) :
    mapPixels m g count (mapPixels n f count p) = mapPixels n (fun p => g (f p)) count p := by
  induction count generalizing p with
  | zero => rfl
  | succ count ih =>
    rw [Nat.mul_succ] at hp
    have hfirst : (f (p.take n)).length = m := hf _ (List.length_take_of_le (by omega))
    rw [mapPixels, mapPixels, mapPixels, ← hfirst, List.take_left, List.drop_left, hfirst,
      ih (by rw [List.length_drop]; omega)]

lemma map_mapPixels {C : Type} (h : B → C) (n : Nat) (f : List A → List B) (count : Nat)
    (p : List A) :
    (mapPixels n f count p).map h = mapPixels n (fun p => (f p).map h) count p := by
  induction count generalizing p with
  | zero => rfl
  | succ count ih => rw [mapPixels, mapPixels, List.map_append, ih]

lemma mapPixels_append {p p' : List A} (hp : p.length = n * count) (count' : Nat) :
    mapPixels n f (count + count') (p ++ p') =
      mapPixels n f count p ++ mapPixels n f count' p' := by
  induction count generalizing p with
  | zero =>
    rw [Nat.mul_zero, List.length_eq_zero_iff] at hp
    rw [hp, Nat.zero_add]
    rfl
  | succ count ih =>
    rw [Nat.mul_succ] at hp
    rw [Nat.succ_add, mapPixels, mapPixels, List.take_append_of_le_length (by omega),
      List.drop_append_of_le_length (by omega), ih (by rw [List.length_drop]; omega),
      List.append_assoc]

/-- Row by row, or all at once. -/
lemma flatMap_mapPixels {rows : List (List A)} (hrows : ∀ row ∈ rows, row.length = n * count) :
    rows.flatMap (mapPixels n f count) = mapPixels n f (count * rows.length) rows.flatten := by
  induction rows with
  | nil => rfl
  | cons row rows ih =>
    rw [List.flatMap_cons, ih fun r hr => hrows r (List.mem_cons_of_mem _ hr), List.length_cons,
      Nat.mul_succ, Nat.add_comm, List.flatten_cons,
      mapPixels_append (hrows row List.mem_cons_self)]

lemma length_flatten_of_length_eq {rows : List (List A)} (hrows : ∀ row ∈ rows, row.length = m) :
    rows.flatten.length = m * rows.length := by
  induction rows with
  | nil => rfl
  | cons row rows ih =>
    rw [List.flatten_cons, List.length_append, hrows row List.mem_cons_self,
      ih fun r hr => hrows r (List.mem_cons_of_mem _ hr), List.length_cons, Nat.mul_succ,
      Nat.add_comm]

lemma mapPixels_singleton {g : A → B} {p : List A} (hp : p.length = n * count) :
    mapPixels n (List.map g) count p = p.map g := by
  induction count generalizing p with
  | zero =>
    rw [Nat.mul_zero, List.length_eq_zero_iff] at hp
    rw [hp]
    rfl
  | succ count ih =>
    rw [Nat.mul_succ] at hp
    rw [mapPixels, ih (by rw [List.length_drop]; omega), ← List.map_append, List.take_append_drop]

end

/-! ### Predictions -/

/-- What a filter takes the difference from. -/
def pngPredictor (filter : PngFilter) (left up upLeft : UInt8) : UInt8 :=
  match filter with
  | .none => 0
  | .sub => left
  | .up => up
  | .avg => UInt8.ofNat ((left.toNat + up.toNat) >>> 1)
  | .paeth => paethOf left up upLeft
  | .avgFirst => left >>> 1
  | .paethFirst => paethOf left 0 0

/-- The filter with this number. -/
def filterOf : Nat → PngFilter
  | 0 => .none
  | 1 => .sub
  | 2 => .up
  | 3 => .avg
  | _ => .paeth

lemma getD_pngMapping {filter_type : Nat} (h : filter_type < 5) :
    pngMapping.getD filter_type .none = filterOf filter_type := by
  interval_cases filter_type <;> rfl

lemma getD_pngFilters {filter_type : Nat} (h : filter_type < 5) :
    pngFilters.getD filter_type .none = filterOf filter_type := by
  interval_cases filter_type <;> rfl

lemma ofNat_shiftRight_one (u : UInt8) : UInt8.ofNat (u.toNat >>> 1) = u >>> 1 := by
  apply UInt8.toNat_inj.mp
  have hu := u.toNat_lt
  rw [UInt8.toNat_ofNat', UInt8.toNat_shiftRight, Nat.shiftRight_eq_div_pow,
    Nat.mod_eq_of_lt (by omega)]
  rfl

lemma encodeRest_eq (filter : PngFilter) (z left up upLeft : UInt8) :
    encodeRest filter z left up upLeft = z - pngPredictor filter left up upLeft := by
  cases filter <;> first | rfl | exact (sub_zero z).symm

/-- In the first pixel there is nothing to the left. -/
lemma encodeFirst_eq (filter : PngFilter) (z up : UInt8) :
    encodeFirst filter z up = z - pngPredictor filter 0 up 0 := by
  cases filter
  case avg =>
    change z - up >>> 1 = z - UInt8.ofNat ((0 + up.toNat) >>> 1)
    rw [Nat.zero_add, ofNat_shiftRight_one]
  all_goals first | rfl | exact (sub_zero z).symm

lemma unfilterRest_eq (filter : PngFilter) (raw left prior priorLeft : UInt8) :
    unfilterRest filter raw left prior priorLeft =
      raw + pngPredictor filter left prior priorLeft := by
  cases filter
  case avg =>
    rw [unfilterRest, pngPredictor, Nat.add_comm]
  all_goals first | rfl | exact (add_zero raw).symm

lemma unfilterFirst_eq (filter : PngFilter) (raw prior : UInt8) :
    unfilterFirst filter raw prior = raw + pngPredictor filter 0 prior 0 := by
  cases filter
  case avg =>
    change raw + prior >>> 1 = raw + UInt8.ofNat ((0 + prior.toNat) >>> 1)
    rw [Nat.zero_add, ofNat_shiftRight_one]
  all_goals first | rfl | exact (add_zero raw).symm

/-- The filters of the first row do as the others would below a row of zeros. -/
lemma pngPredictor_first {filter_type : Nat} (h : filter_type < 5) (left up upLeft : UInt8) :
    pngPredictor (firstRowFilter.getD filter_type .none) left up upLeft =
      pngPredictor (filterOf filter_type) left 0 0 := by
  have havg : left >>> 1 = UInt8.ofNat ((left.toNat + 0) >>> 1) := (ofNat_shiftRight_one left).symm
  interval_cases filter_type
  · rfl
  · rfl
  · rfl
  · exact havg
  · rfl

/-! ### The writer -/

section

variable {flip : Bool} {pixels : List UInt8} {stride width height y n filter_type : Nat}

/-- The row that is written as the `y`-th. -/
def writtenRow (flip : Bool) (pixels : List UInt8) (stride width height n y : Nat) : List UInt8 :=
  (List.range (width * n)).map fun i => byteAt pixels (rowStart flip stride height y + i)

/-- The row above it, if there is one. -/
def rowAbove (flip : Bool) (pixels : List UInt8) (stride width height n y : Nat) : List UInt8 :=
  if y = 0 then [] else writtenRow flip pixels stride width height n (y - 1)

lemma length_writtenRow :
    (writtenRow flip pixels stride width height n y).length = width * n := by
  rw [writtenRow, List.length_map, List.length_range]

lemma getD_writtenRow {i : Nat} (hi : i < width * n) :
    (writtenRow flip pixels stride width height n y).getD i 0 =
      byteAt pixels (rowStart flip stride height y + i) := by
  rw [List.getD_eq_getElem _ _ (by rwa [length_writtenRow])]
  simp only [writtenRow, List.getElem_map, List.getElem_range]

lemma getD_rowAbove (hy0 : y ≠ 0) (hy : y < height) {i : Nat} (hi : i < width * n) :
    (rowAbove flip pixels stride width height n y).getD i 0 =
      byteAt pixels (lessStride flip stride (rowStart flip stride height y + i)) := by
  rw [rowAbove, if_neg hy0, getD_writtenRow hi]
  congr 1
  obtain ⟨j, rfl⟩ : ∃ j, y = j + 1 := ⟨y - 1, by omega⟩
  cases flip with
  | false =>
    simp only [rowStart, lessStride, Bool.false_eq_true, if_false, Nat.add_sub_cancel,
      Nat.mul_add_one]
    omega
  | true =>
    obtain ⟨k, rfl⟩ : ∃ k, height = j + 1 + 1 + k := ⟨height - (j + 2), by omega⟩
    simp only [rowStart, lessStride, if_true, Nat.add_sub_cancel]
    rw [show j + 1 + 1 + k - 1 - j = k + 1 by omega, show j + 1 + 1 + k - 1 - (j + 1) = k by omega,
      Nat.mul_add_one]
    omega

/-- What the two loops and the copy of the writer write. -/
lemma stbiwEncodePngLine_eq_map (hwidth : 0 < width) :
    stbiwEncodePngLine flip pixels stride width height y n filter_type =
      (List.range (width * n)).map fun i =>
        byteAt pixels (rowStart flip stride height y + i) - pngPredictor (lineType y filter_type)
          (if i < n then 0 else byteAt pixels (rowStart flip stride height y + i - n))
          (byteAt pixels (lessStride flip stride (rowStart flip stride height y + i)))
          (if i < n then 0
            else byteAt pixels
              (lessStride flip stride (rowStart flip stride height y + (i - n)))) := by
  have hle : n ≤ width * n := Nat.le_mul_of_pos_left n hwidth
  have hrange : List.range (width * n) = List.range n ++ List.range' n (width * n - n) := by
    conv_lhs => rw [← Nat.add_sub_cancel' hle]
    rw [List.range_add, List.range'_eq_map_range]
  rw [stbiwEncodePngLine]
  by_cases htype : lineType y filter_type = .none
  · simp only [htype, if_true]
    exact List.map_congr_left fun i _ => (sub_zero _).symm
  · simp only [if_neg htype]
    rw [hrange, List.map_append]
    congr 1
    · refine List.map_congr_left fun i hi => ?_
      have hi := List.mem_range.mp hi
      rw [encodeFirst_eq, if_pos hi, if_pos hi]
    · refine List.map_congr_left fun i hi => ?_
      have hi : ¬ i < n := by
        have := (List.mem_range'_1.mp hi).1
        omega
      rw [encodeRest_eq, if_neg hi, if_neg hi]

/-- A row is written as its differences from the predictions of the filter. -/
lemma stbiwEncodePngLine_eq (hwidth : 0 < width) (hy : y < height) (hfilter : filter_type < 5) :
    stbiwEncodePngLine flip pixels stride width height y n filter_type =
      differences (pngPredictor (filterOf filter_type)) n
        (rowAbove flip pixels stride width height n y)
        (writtenRow flip pixels stride width height n y) := by
  rw [stbiwEncodePngLine_eq_map hwidth, differences, length_writtenRow]
  refine List.map_congr_left fun i hi => ?_
  have hi := List.mem_range.mp hi
  have hleft : before n (writtenRow flip pixels stride width height n y) i =
      if i < n then 0 else byteAt pixels (rowStart flip stride height y + i - n) := by
    rw [before]
    split_ifs with hfirst
    · rfl
    · rw [getD_writtenRow (by omega), Nat.add_sub_assoc (by omega)]
  rw [getD_writtenRow hi, predict, hleft]
  congr 1
  by_cases hy0 : y = 0
  · rw [lineType, if_neg (not_not.mpr hy0), rowAbove, if_pos hy0, before, List.getD_nil,
      List.getD_nil]
    refine (pngPredictor_first hfilter _ _ _).trans ?_
    rw [ite_self]
  · rw [lineType, if_pos hy0, getD_pngMapping hfilter, getD_rowAbove hy0 hy hi, before]
    congr 1
    split_ifs with hfirst
    · rfl
    · rw [getD_rowAbove hy0 hy (by omega)]

end

/-! ### The loader -/

/-- The parts of a pixel fit together. -/
structure RowLayout.Fits (layout : RowLayout) : Prop where
  pos : 0 < layout.filter_bytes
  output_bytes_eq : layout.output_bytes = layout.filter_bytes + layout.alpha.length

/-- A row of so many pixels, with alpha behind each of them. -/
def RowLayout.spread (layout : RowLayout) (count : Nat) (row : List UInt8) : List UInt8 :=
  mapPixels layout.filter_bytes (fun p => p ++ layout.alpha) count row

section

variable {layout : RowLayout} {filter : PngFilter} {P : UInt8 → UInt8 → UInt8 → UInt8}
  {above prior row : List UInt8} {count q k n : Nat}

lemma length_spread (h : layout.Fits) (hrow : layout.filter_bytes * count ≤ row.length) :
    (layout.spread count row).length = layout.output_bytes * count := by
  refine length_mapPixels (fun p hp => ?_) hrow
  rw [List.length_append, hp, h.output_bytes_eq]

lemma byteAt_spread (h : layout.Fits) (hrow : layout.filter_bytes * count ≤ row.length)
    (hq : q < count) (hk : k < layout.filter_bytes) :
    byteAt (layout.spread count row) (q * layout.output_bytes + k) =
      row.getD (q * layout.filter_bytes + k) 0 := by
  have hroom : layout.filter_bytes * (q + 1) ≤ layout.filter_bytes * count :=
    Nat.mul_le_mul_left _ hq
  rw [Nat.mul_add_one, Nat.mul_comm] at hroom
  have hlength : ((row.drop (q * layout.filter_bytes)).take layout.filter_bytes).length =
      layout.filter_bytes := List.length_take_of_le (by rw [List.length_drop]; omega)
  have hout : ∀ p : List UInt8, p.length = layout.filter_bytes →
      (p ++ layout.alpha).length = layout.output_bytes := by
    intro p hp
    rw [List.length_append, hp, h.output_bytes_eq]
  have hk' : k < layout.output_bytes := by
    rw [h.output_bytes_eq]
    omega
  rw [byteAt, RowLayout.spread, getD_mapPixels hout hrow hq hk',
    List.getD_append _ _ _ _ (by omega), List.getD_eq_getElem?_getD, List.getElem?_take_of_lt hk,
    List.getElem?_drop, ← List.getD_eq_getElem?_getD]

/-- Below `prior` the filter predicts what `P` predicts below `above`. -/
structure Below (layout : RowLayout) (filter : PngFilter) (P : UInt8 → UInt8 → UInt8 → UInt8)
    (above prior : List UInt8) (count : Nat) : Prop where
  byteAt_prior : ∀ q < count, ∀ k < layout.filter_bytes,
    byteAt prior (q * layout.output_bytes + k) = above.getD (q * layout.filter_bytes + k) 0
  predictor_eq : ∀ left i j, pngPredictor filter left (above.getD i 0) (above.getD j 0) =
    P left (above.getD i 0) (above.getD j 0)

lemma getD_differences {i : Nat} (hi : i < row.length) :
    (differences P n above row).getD i 0 = row.getD i 0 - predict P n above row i := by
  rw [List.getD_eq_getElem _ _ (by rwa [length_differences])]
  simp only [differences, List.getElem_map, List.getElem_range]

lemma byteAt_drop (bytes : List UInt8) (n k : Nat) :
    byteAt (bytes.drop n) k = bytes.getD (n + k) 0 := by
  rw [byteAt, List.getD_eq_getElem?_getD, List.getElem?_drop, ← List.getD_eq_getElem?_getD]

lemma map_range_eq_take {g : Nat → UInt8} (hn : n + k ≤ row.length)
    (hg : ∀ i < k, g i = row.getD (n + i) 0) : (List.range k).map g = (row.drop n).take k := by
  have hlength : ((row.drop n).take k).length = k :=
    List.length_take_of_le (by rw [List.length_drop]; omega)
  refine List.ext_getElem (by rw [List.length_map, List.length_range, hlength]) fun i hi _ => ?_
  rw [List.length_map, List.length_range] at hi
  rw [List.getElem_map, List.getElem_range, hg i hi, List.getElem_take, List.getElem_drop,
    List.getD_eq_getElem]

/-- A row that is put back one pixel at a time. -/
lemma unfilterPixels_differences (h : layout.Fits)
    (hbelow : Below layout filter P above prior count)
    (hrow : row.length = layout.filter_bytes * count) (hq : 0 < q) (hcount : q + n = count) :
    unfilterPixels filter layout prior n
        ((differences P layout.filter_bytes above row).drop (q * layout.filter_bytes))
        (layout.spread q row) =
      layout.spread count row := by
  induction n generalizing q with
  | zero =>
    rw [unfilterPixels, ← hcount, Nat.add_zero]
  | succ n ih =>
    obtain ⟨m, rfl⟩ : ∃ m, q = m + 1 := ⟨q - 1, by omega⟩
    have hmul : layout.filter_bytes * (m + 1 + 1) ≤ row.length := by
      rw [hrow]
      exact Nat.mul_le_mul_left _ (by omega)
    have hcur : (layout.spread (m + 1) row).length = (m + 1) * layout.output_bytes := by
      rw [length_spread h ((Nat.mul_le_mul_left _ (by omega)).trans hmul), Nat.mul_comm]
    rw [Nat.mul_add_one, Nat.mul_comm] at hmul
    have hpixel : ((List.range layout.filter_bytes).map fun k =>
        unfilterRest filter
          (byteAt ((differences P layout.filter_bytes above row).drop
            ((m + 1) * layout.filter_bytes)) k)
          (byteAt (layout.spread (m + 1) row)
            ((layout.spread (m + 1) row).length + k - layout.output_bytes))
          (byteAt prior ((layout.spread (m + 1) row).length + k))
          (byteAt prior ((layout.spread (m + 1) row).length + k - layout.output_bytes))) =
        (row.drop ((m + 1) * layout.filter_bytes)).take layout.filter_bytes := by
      refine map_range_eq_take (by omega) fun k hk => ?_
      have hplace : (m + 1) * layout.filter_bytes + k - layout.filter_bytes =
          m * layout.filter_bytes + k := by
        rw [Nat.succ_mul]
        omega
      have hleft : (m + 1) * layout.output_bytes + k - layout.output_bytes =
          m * layout.output_bytes + k := by
        rw [Nat.succ_mul]
        omega
      have hnot : ¬ (m + 1) * layout.filter_bytes + k < layout.filter_bytes := by
        rw [Nat.succ_mul]
        omega
      have hspread := byteAt_spread h ((Nat.mul_le_mul_left _ (by omega : m + 1 ≤ count)).trans
        hrow.ge) (Nat.lt_succ_self m) hk
      rw [unfilterRest_eq, byteAt_drop, getD_differences (by omega), hcur, hleft, hspread,
        hbelow.byteAt_prior (m + 1) (by omega) k hk, hbelow.byteAt_prior m (by omega) k hk,
        hbelow.predictor_eq, predict, before, before, if_neg hnot, if_neg hnot, hplace,
        sub_add_cancel]
    rw [unfilterPixels]
    simp only [hpixel]
    rw [List.drop_drop, ← Nat.succ_mul]
    have hnext : layout.spread (m + 1 + 1) row = layout.spread (m + 1) row ++
        ((row.drop ((m + 1) * layout.filter_bytes)).take layout.filter_bytes ++ layout.alpha) :=
      mapPixels_succ_right _ _ _ _
    rw [← hnext]
    exact ih (Nat.succ_pos _) (by omega)

/-- A row is what its differences come from, with alpha behind its pixels. -/
lemma unfilterRow_differences (h : layout.Fits) (hbelow : Below layout filter P above prior count)
    (hrow : row.length = layout.filter_bytes * count) (hcount : 0 < count) :
    unfilterRow filter layout count (differences P layout.filter_bytes above row) prior =
      layout.spread count row := by
  have hmul : layout.filter_bytes ≤ row.length := by
    rw [hrow]
    exact Nat.le_mul_of_pos_right _ hcount
  have hpixel : ((List.range layout.filter_bytes).map fun k =>
      unfilterFirst filter (byteAt (differences P layout.filter_bytes above row) k)
        (byteAt prior k)) = (row.drop 0).take layout.filter_bytes := by
    refine map_range_eq_take (by omega) fun k hk => ?_
    have hprior := hbelow.byteAt_prior 0 hcount k hk
    have hnothing : above.getD above.length 0 = 0 := List.getD_eq_default _ _ le_rfl
    have hpredictor := hbelow.predictor_eq 0 k above.length
    rw [hnothing] at hpredictor
    rw [Nat.zero_mul, Nat.zero_add, Nat.zero_mul, Nat.zero_add] at hprior
    rw [unfilterFirst_eq, byteAt, getD_differences (by omega), hprior, hpredictor, predict, before,
      before, if_pos hk, if_pos hk, sub_add_cancel, Nat.zero_add]
  have hfirst : layout.spread 1 row = (row.drop 0).take layout.filter_bytes ++ layout.alpha := by
    rw [RowLayout.spread, mapPixels, mapPixels, List.append_nil, List.drop_zero]
  have hrest := unfilterPixels_differences (n := count - 1) h hbelow hrow Nat.one_pos (by omega)
  rw [Nat.one_mul, hfirst] at hrest
  rw [unfilterRow]
  simp only [hpixel]
  exact hrest

end

end GifTools
