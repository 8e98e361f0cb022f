import GifTools.Core.Runs
import GifTools.Png.Filtered

/-!
# Interlaced images

An interlaced image is made of seven smaller ones, each of which holds every pixel of a grid. No
pixel of the image is left out and none is copied twice, so that what the memory held before does
not matter.
-/

namespace GifTools

open Cells

/-! ### Passes -/

/-- The pass of each pixel in a square of eight by eight; the square is repeated. -/
def adam7 : List (List Nat) :=
  [[0, 5, 3, 5, 1, 5, 3, 5],
   [6, 6, 6, 6, 6, 6, 6, 6],
   [4, 5, 4, 5, 4, 5, 4, 5],
   [6, 6, 6, 6, 6, 6, 6, 6],
   [2, 5, 3, 5, 2, 5, 3, 5],
   [6, 6, 6, 6, 6, 6, 6, 6],
   [4, 5, 4, 5, 4, 5, 4, 5],
   [6, 6, 6, 6, 6, 6, 6, 6]]

def passOf (cx cy : Nat) : Nat := (adam7.getD (cy % 8) []).getD (cx % 8) 0

/-- The pixel lies on the grid of the pass. -/
def PngPass.Owns (pass : PngPass) (cx cy : Nat) : Prop :=
  cx % pass.xspc = pass.xorig ∧ cy % pass.yspc = pass.yorig

/-- The number of the pixel within the pass. -/
def PngPass.place (pass : PngPass) (img_x cx cy : Nat) : Nat :=
  cy / pass.yspc * pass.columns img_x + cx / pass.xspc

structure PngPass.Regular (pass : PngPass) : Prop where
  xorig_lt : pass.xorig < pass.xspc
  yorig_lt : pass.yorig < pass.yspc
  xspc_dvd : pass.xspc ∣ 8
  yspc_dvd : pass.yspc ∣ 8

lemma regular_pngPass {p : Nat} (hp : p < 7) : (pngPass p).Regular := by
  have hall : ∀ p < 7, (pngPass p).xorig < (pngPass p).xspc ∧
      (pngPass p).yorig < (pngPass p).yspc ∧ 8 % (pngPass p).xspc = 0 ∧
      8 % (pngPass p).yspc = 0 := by decide
  obtain ⟨hx, hy, hx8, hy8⟩ := hall p hp
  exact ⟨hx, hy, Nat.dvd_of_mod_eq_zero hx8, Nat.dvd_of_mod_eq_zero hy8⟩

/-- Each pixel lies on one grid. -/
lemma owns_iff {p cx cy : Nat} (hp : p < 7) : (pngPass p).Owns cx cy ↔ passOf cx cy = p := by
  have hall : ∀ p < 7, ∀ a < 8, ∀ b < 8, a % (pngPass p).xspc = (pngPass p).xorig ∧
      b % (pngPass p).yspc = (pngPass p).yorig ↔ (adam7.getD b []).getD a 0 = p := by decide
  have hregular := regular_pngPass hp
  rw [PngPass.Owns, ← Nat.mod_mod_of_dvd cx hregular.xspc_dvd,
    ← Nat.mod_mod_of_dvd cy hregular.yspc_dvd]
  exact hall p hp _ (Nat.mod_lt _ (by decide)) _ (Nat.mod_lt _ (by decide))

lemma passOf_lt (cx cy : Nat) : passOf cx cy < 7 := by
  have hall : ∀ a < 8, ∀ b < 8, (adam7.getD b []).getD a 0 < 7 := by decide
  exact hall _ (Nat.mod_lt _ (by decide)) _ (Nat.mod_lt _ (by decide))

/-- The columns of a grid that lie within the image. -/
lemma lt_columns_iff {orig spc n i : Nat} (horig : orig < spc) :
    i < (n + spc - 1 - orig) / spc ↔ i * spc + orig < n := by
  rw [Nat.lt_div_iff_mul_lt (by omega)]
  omega

lemma div_lt_columns {orig spc n c : Nat} (horig : orig < spc) (hmod : c % spc = orig)
    (hc : c < n) : c / spc < (n + spc - 1 - orig) / spc := by
  rw [lt_columns_iff horig, ← hmod, Nat.div_add_mod']
  exact hc

lemma div_of_lt {a n r : Nat} (hr : r < n) : (a * n + r) / n = a := by
  rw [Nat.add_comm, Nat.add_mul_div_right _ _ (Nat.zero_lt_of_lt hr), Nat.div_eq_of_lt hr,
    Nat.zero_add]

section

variable {pass : PngPass} {img_x img_y cx cy k : Nat}

lemma mem_places (h : pass.Regular) (hx : cx < img_x) (hy : cy < img_y) :
    (cy * img_x + cx, k) ∈ pass.places img_x (pass.columns img_x) (pass.rows img_y) ↔
      pass.Owns cx cy ∧ k = pass.place img_x cx cy := by
  simp only [PngPass.places, List.mem_flatMap, List.mem_map, List.mem_range, Prod.mk.injEq]
  constructor
  · rintro ⟨j, -, i, hi, hplace, rfl⟩
    have hcolumn := (lt_columns_iff h.xorig_lt).mp hi
    have hcx : i * pass.xspc + pass.xorig = cx := by
      have hmod := congrArg (· % img_x) hplace
      simpa only [Nat.mul_add_mod_of_lt hcolumn, Nat.mul_add_mod_of_lt hx] using hmod
    have hcy : j * pass.yspc + pass.yorig = cy := by
      rw [hcx] at hplace
      exact Nat.eq_of_mul_eq_mul_right (Nat.zero_lt_of_lt hx) (Nat.add_right_cancel hplace)
    rw [← hcx, ← hcy, PngPass.place, PngPass.Owns, Nat.mul_add_mod_of_lt h.xorig_lt,
      Nat.mul_add_mod_of_lt h.yorig_lt, div_of_lt h.xorig_lt, div_of_lt h.yorig_lt]
    exact ⟨⟨rfl, rfl⟩, rfl⟩
  · rintro ⟨⟨hxorig, hyorig⟩, rfl⟩
    refine ⟨cy / pass.yspc, div_lt_columns h.yorig_lt hyorig hy, cx / pass.xspc,
      div_lt_columns h.xorig_lt hxorig hx, ?_, rfl⟩
    rw [← hxorig, ← hyorig, Nat.div_add_mod', Nat.div_add_mod']

lemma place_lt (h : pass.Regular) (hx : cx < img_x) (hy : cy < img_y) (hown : pass.Owns cx cy) :
    pass.place img_x cx cy < pass.columns img_x * pass.rows img_y := by
  have hcolumn := div_lt_columns h.xorig_lt hown.1 hx
  have hrow := div_lt_columns h.yorig_lt hown.2 hy
  calc pass.place img_x cx cy < cy / pass.yspc * pass.columns img_x + pass.columns img_x :=
        Nat.add_lt_add_left hcolumn _
    _ = (cy / pass.yspc + 1) * pass.columns img_x := (Nat.succ_mul _ _).symm
    _ ≤ pass.rows img_y * pass.columns img_x := Nat.mul_le_mul_right _ hrow
    _ = pass.columns img_x * pass.rows img_y := Nat.mul_comm _ _

lemma exists_of_mem_places (h : pass.Regular) {place : Nat × Nat}
    (hplace : place ∈ pass.places img_x (pass.columns img_x) (pass.rows img_y)) :
    ∃ cx < img_x, ∃ cy < img_y, place.1 = cy * img_x + cx := by
  simp only [PngPass.places, List.mem_flatMap, List.mem_map, List.mem_range] at hplace
  obtain ⟨j, hj, i, hi, rfl⟩ := hplace
  exact ⟨_, (lt_columns_iff h.xorig_lt).mp hi, _, (lt_columns_iff h.yorig_lt).mp hj, rfl⟩

/-- The pixels of a pass are numbered as they come. -/
lemma places_snd (pass : PngPass) (img_x x y : Nat) :
    (pass.places img_x x y).map Prod.snd = List.range (y * x) := by
  induction y with
  | zero =>
    rw [Nat.zero_mul]
    rfl
  | succ y ih =>
    rw [PngPass.places, List.range_succ, List.flatMap_append, List.map_append, Nat.succ_mul,
      List.range_add, ← ih, List.flatMap_singleton, List.map_map]
    rfl

end

/-! ### Putting the passes together -/

lemma lt_mul_of_lt {img_x img_y cx cy : Nat} (hx : cx < img_x) (hy : cy < img_y) :
    cy * img_x + cx < img_x * img_y := by
  calc cy * img_x + cx < cy * img_x + img_x := Nat.add_lt_add_left hx _
    _ = (cy + 1) * img_x := (Nat.succ_mul _ _).symm
    _ ≤ img_y * img_x := Nat.mul_le_mul_right _ hy
    _ = img_x * img_y := Nat.mul_comm _ _

/-- A pixel of an image with `out_n` samples for each. -/
def pixelAt (out_n : Nat) (out : List Nat) (k : Nat) : List Nat := (out.drop (k * out_n)).take out_n

/-- The pixels of a pass, row by row. -/
def gridOf (out_n img_x img_y : Nat) (pass : PngPass) (out : List Nat) : List Nat :=
  (pass.places img_x (pass.columns img_x) (pass.rows img_y)).flatMap fun place =>
    pixelAt out_n out place.1

lemma flatMap_pixelAt {n count : Nat} {out : List Nat} (h : out.length = n * count) :
    (List.range count).flatMap (pixelAt n out) = out := by
  induction count generalizing out with
  | zero => exact (List.length_eq_zero_iff.mp h).symm
  | succ count ih =>
    rw [Nat.mul_succ] at h
    have hdrop : (List.range count).flatMap (pixelAt n (out.drop n)) = out.drop n :=
      ih (by rw [List.length_drop, h, Nat.add_sub_cancel])
    have hpixel : ∀ k, pixelAt n out (k + 1) = pixelAt n (out.drop n) k := by
      intro k
      rw [pixelAt, pixelAt, List.drop_drop, Nat.succ_mul, Nat.add_comm (k * n)]
    rw [List.range_succ_eq_map, List.flatMap_cons, List.flatMap_map,
      List.flatMap_congr fun k _ => hpixel k, hdrop, pixelAt, Nat.zero_mul, List.drop_zero,
      List.take_append_drop]

lemma length_pixelAt {n count k : Nat} {out : List Nat} (h : out.length = n * count)
    (hk : k < count) : (pixelAt n out k).length = n := by
  refine List.length_take_of_le ?_
  rw [List.length_drop, h, Nat.mul_comm k, ← Nat.mul_sub]
  exact Nat.le_mul_of_pos_right _ (Nat.sub_pos_of_lt hk)

lemma pixelAt_flatten {n k : Nat} {pixels : List (List Nat)} (h : ∀ p ∈ pixels, p.length = n)
    (hk : k < pixels.length) : pixelAt n pixels.flatten k = pixels[k] := by
  induction pixels generalizing k with
  | nil => cases hk
  | cons p pixels ih =>
    have hp := h p List.mem_cons_self
    cases k with
    | zero => rw [pixelAt, Nat.zero_mul, List.drop_zero, List.flatten_cons, List.take_left' hp]; rfl
    | succ k =>
      have hrest := ih (fun q hq => h q (List.mem_cons_of_mem _ hq)) (Nat.lt_of_succ_lt_succ hk)
      rw [pixelAt, Nat.succ_mul, Nat.add_comm, ← List.drop_drop, List.flatten_cons,
        List.drop_left' hp]
      exact hrest

/-- The images from pass `p` on, of which there are `n`. -/
def reducedImages (format : PngFormat) (img_x img_y : Nat) :
    Nat → Nat → List UInt8 → Except StbiFailure (List (List Nat))
  | 0, _, _ => .ok []
  | n + 1, p, image_data =>
    let x := (pngPass p).columns img_x
    let y := (pngPass p).rows img_y
    if x ≠ 0 ∧ y ≠ 0 then do
      let out ← stbiCreatePngImageRaw format image_data x y
      let images ← reducedImages format img_x img_y n (p + 1) (image_data.drop (format.imgLen x y))
      return out :: images
    else do
      let images ← reducedImages format img_x img_y n (p + 1) image_data
      return [] :: images

/-- Each pixel is taken from the image of its pass. -/
def deinterlace (out_n img_x img_y : Nat) (images : List (List Nat)) : List Nat :=
  (List.range (img_x * img_y)).flatMap fun i =>
    let p := passOf (i % img_x) (i / img_x)
    pixelAt out_n (images.getD p []) ((pngPass p).place img_x (i % img_x) (i / img_x))

/-- The images from pass `p` on are copied. -/
def paste (out_n img_x img_y : Nat) :
    Nat → List (List Nat) → Array (List Nat) → Array (List Nat)
  | _, [], final => final
  | p, out :: images, final =>
    let pass := pngPass p
    paste out_n img_x img_y (p + 1) images
      (scatter out_n out final (pass.places img_x (pass.columns img_x) (pass.rows img_y)))

section

variable {out_n img_x img_y : Nat} {final : Array (List Nat)}

lemma scatter_eq_writes (out : List Nat) (places : List (Nat × Nat)) :
    scatter out_n out final places =
      writes final (places.map fun place => (place.1, pixelAt out_n out place.2)) := by
  rw [writes, List.foldl_map]
  rfl

lemma places_of_empty {pass : PngPass} {x y : Nat} (h : ¬ (x ≠ 0 ∧ y ≠ 0)) :
    pass.places img_x x y = [] := by
  rcases not_and_or.mp h with hx | hy
  · rw [PngPass.places, not_not.mp hx]
    exact List.flatMap_eq_nil_iff.mpr fun _ _ => rfl
  · rw [PngPass.places, not_not.mp hy]
    rfl

/-- The passes may be decompressed first, and copied then. -/
lemma interlacedPasses_eq (format : PngFormat) (n p : Nat) (image_data : List UInt8)
    (final : Array (List Nat)) :
    interlacedPasses format img_x img_y true n p image_data final =
      (reducedImages format img_x img_y n p image_data).map fun images =>
        paste format.out_n img_x img_y p images final := by
  induction n generalizing p image_data final with
  | zero => rfl
  | succ n ih =>
    by_cases hempty : (pngPass p).columns img_x ≠ 0 ∧ (pngPass p).rows img_y ≠ 0
    · simp only [interlacedPasses, reducedImages, if_pos hempty, ih]
      cases stbiCreatePngImageRaw format image_data ((pngPass p).columns img_x)
        ((pngPass p).rows img_y) with
      | error failure => rfl
      | ok out =>
        change Except.map _ (reducedImages _ _ _ _ _ _) =
          (reducedImages _ _ _ _ _ _ >>= _).map _
        cases reducedImages format img_x img_y n (p + 1) (image_data.drop
          (format.imgLen ((pngPass p).columns img_x) ((pngPass p).rows img_y))) <;> rfl
    · simp only [interlacedPasses, reducedImages, if_neg hempty, ih]
      cases reducedImages format img_x img_y n (p + 1) image_data with
      | error failure => rfl
      | ok images =>
        change Except.ok _ = Except.ok (paste _ _ _ _ _ (scatter _ _ _ _))
        rw [places_of_empty hempty]
        rfl

lemma size_paste (p : Nat) (images : List (List Nat)) :
    (paste out_n img_x img_y p images final).size = final.size := by
  induction images generalizing p final with
  | nil => rfl
  | cons out images ih => rw [paste, ih, scatter_eq_writes, size_writes]

/-- The pixels of the passes that are copied are there, and the others are what they were. -/
lemma getElem?_paste (out_n : Nat) {cx cy : Nat} (hx : cx < img_x) (hy : cy < img_y)
    (hfinal : final.size = img_x * img_y) (p : Nat) (images : List (List Nat))
    (hp : p + images.length = 7) :
    (paste out_n img_x img_y p images final)[cy * img_x + cx]? =
      if p ≤ passOf cx cy then
        some (pixelAt out_n (images.getD (passOf cx cy - p) [])
          ((pngPass (passOf cx cy)).place img_x cx cy))
      else final[cy * img_x + cx]? := by
  induction images generalizing p final with
  | nil =>
    have hlt := passOf_lt cx cy
    rw [List.length_nil, Nat.add_zero] at hp
    rw [paste, if_neg (by omega)]
  | cons out images ih =>
    rw [List.length_cons] at hp
    have hregular := regular_pngPass (p := p) (by omega)
    rw [paste, ih (by rw [scatter_eq_writes, size_writes, hfinal]) (p + 1) (by omega)]
    by_cases hlater : p + 1 ≤ passOf cx cy
    · rw [if_pos hlater, if_pos (by omega),
        show passOf cx cy - p = passOf cx cy - (p + 1) + 1 by omega, List.getD_cons_succ]
    · rw [if_neg hlater, scatter_eq_writes]
      by_cases hown : passOf cx cy = p
      · have hplace := (mem_places hregular hx hy).mpr ⟨(owns_iff (by omega)).mpr hown, rfl⟩
        have hsize : cy * img_x + cx < final.size := hfinal ▸ lt_mul_of_lt hx hy
        rw [if_pos hown.ge, hown, Nat.sub_self, List.getD_cons_zero]
        refine writes_of_mem hsize (List.mem_map.mpr ⟨_, hplace, rfl⟩) fun b hb => ?_
        obtain ⟨⟨i, k⟩, hmem, hwrite⟩ := List.mem_map.mp hb
        obtain ⟨rfl, rfl⟩ := Prod.mk.inj hwrite
        rw [((mem_places hregular hx hy).mp hmem).2]
      · rw [if_neg (by omega)]
        refine writes_of_notMem fun b hb => hown ?_
        obtain ⟨⟨i, k⟩, hmem, hwrite⟩ := List.mem_map.mp hb
        obtain ⟨rfl, rfl⟩ := Prod.mk.inj hwrite
        exact (owns_iff (by omega)).mp ((mem_places hregular hx hy).mp hmem).1

lemma length_reducedImages {format : PngFormat} {n p : Nat} {image_data : List UInt8}
    {images : List (List Nat)} (h : reducedImages format img_x img_y n p image_data = .ok images) :
    images.length = n := by
  induction n generalizing p image_data images with
  | zero =>
    cases h
    rfl
  | succ n ih =>
    simp only [reducedImages] at h
    split_ifs at h
    · obtain ⟨out, -, h⟩ := Runs.bind_ok.mp h
      obtain ⟨rest, hrest, h⟩ := Runs.bind_ok.mp h
      cases h
      rw [List.length_cons, ih hrest]
    · obtain ⟨rest, hrest, h⟩ := Runs.bind_ok.mp h
      cases h
      rw [List.length_cons, ih hrest]

/-- When all passes have been copied, nothing is left of what the memory held. -/
lemma paste_all (out_n : Nat) (hfinal : final.size = img_x * img_y) {images : List (List Nat)}
    (himages : images.length = 7) :
    (paste out_n img_x img_y 0 images final).toList.flatten =
      deinterlace out_n img_x img_y images := by
  rw [deinterlace, List.flatMap_def]
  congr 1
  apply List.ext_getElem?
  intro i
  rw [Array.getElem?_toList]
  by_cases hi : i < img_x * img_y
  · have hx : 0 < img_x := Nat.pos_of_mul_pos_right (Nat.zero_lt_of_lt hi)
    have hcx := Nat.mod_lt i hx
    have hcy : i / img_x < img_y := (Nat.div_lt_iff_lt_mul hx).mpr (by rwa [Nat.mul_comm])
    have hpixel := getElem?_paste out_n hcx hcy hfinal 0 images (by omega)
    rw [Nat.div_add_mod', if_pos (Nat.zero_le _), Nat.sub_zero] at hpixel
    rw [hpixel, List.getElem?_map, List.getElem?_range hi]
    rfl
  · rw [Array.getElem?_eq_none (by rw [size_paste, hfinal]; omega),
      List.getElem?_eq_none (by rw [List.length_map, List.length_range]; omega)]

end

/-- An interlaced image is put together from its seven passes, each pixel from the one it belongs
to, whatever the memory held before. -/
lemma stbiCreatePngImage_eq (format : PngFormat) (garbage : Nat → List Nat)
    (image_data : List UInt8) (img_x img_y : Nat)
    (hsize : stbiMad3sizesValid img_x img_y (format.out_n * format.bytes) 0) :
    stbiCreatePngImage format garbage image_data img_x img_y true =
      (reducedImages format img_x img_y 7 0 image_data).map
        (deinterlace format.out_n img_x img_y) := by
  rw [stbiCreatePngImage, if_neg (by decide)]
  simp only [hsize, interlacedPasses_eq]
  cases himages : reducedImages format img_x img_y 7 0 image_data with
  | error failure => rfl
  | ok images =>
    have hgarbage : ((Array.range (img_x * img_y)).map garbage).size = img_x * img_y := by
      rw [Array.size_map, Array.size_range]
    have hall := paste_all format.out_n hgarbage (length_reducedImages himages)
    exact congrArg Except.ok hall

/-! ### The image with these passes -/

section

variable {out_n img_x img_y cx cy p : Nat} {images : List (List Nat)} {out : List Nat}

/-- The images of the passes have the samples of their extents. -/
def AreReduced (out_n img_x img_y : Nat) (images : List (List Nat)) : Prop :=
  ∀ p < 7, (images.getD p []).length =
    out_n * ((pngPass p).columns img_x * (pngPass p).rows img_y)

lemma length_of_areReduced (h : AreReduced out_n img_x img_y images) (hx : cx < img_x)
    (hy : cy < img_y) :
    (pixelAt out_n (images.getD (passOf cx cy) [])
      ((pngPass (passOf cx cy)).place img_x cx cy)).length = out_n :=
  length_pixelAt (h _ (passOf_lt cx cy))
    (place_lt (regular_pngPass (passOf_lt cx cy)) hx hy ((owns_iff (passOf_lt cx cy)).mpr rfl))

lemma length_of_mem_deinterlace (h : AreReduced out_n img_x img_y images) {pixel : List Nat}
    (hpixel : pixel ∈ (List.range (img_x * img_y)).map fun i =>
      pixelAt out_n (images.getD (passOf (i % img_x) (i / img_x)) [])
        ((pngPass (passOf (i % img_x) (i / img_x))).place img_x (i % img_x) (i / img_x))) :
    pixel.length = out_n := by
  obtain ⟨i, hi, rfl⟩ := List.mem_map.mp hpixel
  have hi := List.mem_range.mp hi
  have hx : 0 < img_x := Nat.pos_of_mul_pos_right (Nat.zero_lt_of_lt hi)
  exact length_of_areReduced h (Nat.mod_lt i hx)
    ((Nat.div_lt_iff_lt_mul hx).mpr (by rwa [Nat.mul_comm]))

lemma length_deinterlace (h : AreReduced out_n img_x img_y images) :
    (deinterlace out_n img_x img_y images).length = out_n * (img_x * img_y) := by
  rw [deinterlace, List.flatMap_def,
    length_flatten_of_length_eq fun _ hpixel => length_of_mem_deinterlace h hpixel,
    List.length_map, List.length_range]

lemma pixelAt_deinterlace (h : AreReduced out_n img_x img_y images) (hx : cx < img_x)
    (hy : cy < img_y) :
    pixelAt out_n (deinterlace out_n img_x img_y images) (cy * img_x + cx) =
      pixelAt out_n (images.getD (passOf cx cy) [])
        ((pngPass (passOf cx cy)).place img_x cx cy) := by
  rw [deinterlace, List.flatMap_def,
    pixelAt_flatten (fun _ hpixel => length_of_mem_deinterlace h hpixel)
      (by rw [List.length_map, List.length_range]; exact lt_mul_of_lt hx hy),
    List.getElem_map, List.getElem_range, Nat.mul_add_mod_of_lt hx, div_of_lt hx]

/-- The pixels of a grid, from the image. -/
lemma pixelAt_gridOf (hout : out.length = out_n * (img_x * img_y)) (hp : p < 7)
    (hx : cx < img_x) (hy : cy < img_y) (hown : passOf cx cy = p) :
    pixelAt out_n (gridOf out_n img_x img_y (pngPass p) out) ((pngPass p).place img_x cx cy) =
      pixelAt out_n out (cy * img_x + cx) := by
  have hregular := regular_pngPass hp
  set places := (pngPass p).places img_x ((pngPass p).columns img_x) ((pngPass p).rows img_y)
    with hplaces
  have hmem : (cy * img_x + cx, (pngPass p).place img_x cx cy) ∈ places :=
    (mem_places hregular hx hy).mpr ⟨(owns_iff hp).mpr hown, rfl⟩
  obtain ⟨k, hk, hplace⟩ := List.getElem_of_mem hmem
  have hnumber : (pngPass p).place img_x cx cy = k := by
    have hsnd := places_snd (pngPass p) img_x ((pngPass p).columns img_x)
      ((pngPass p).rows img_y)
    have hget : (places.map Prod.snd)[k]? = some ((pngPass p).place img_x cx cy) := by
      rw [List.getElem?_map, List.getElem?_eq_getElem hk, hplace]
      rfl
    have hlength : k < (pngPass p).rows img_y * (pngPass p).columns img_x := by
      have hcount := congrArg List.length hsnd
      rw [List.length_map, List.length_range] at hcount
      exact hcount ▸ hk
    rw [hplaces, hsnd, List.getElem?_range hlength] at hget
    exact (Option.some.inj hget).symm
  have hpixels : ∀ pixel ∈ places.map fun place => pixelAt out_n out place.1,
      pixel.length = out_n := by
    intro pixel hpixel
    obtain ⟨place, hplace, rfl⟩ := List.mem_map.mp hpixel
    obtain ⟨cx, hx, cy, hy, hfst⟩ := exists_of_mem_places hregular hplace
    exact length_pixelAt hout (hfst ▸ lt_mul_of_lt hx hy)
  rw [gridOf, List.flatMap_def, hnumber, pixelAt_flatten hpixels (by rwa [List.length_map]),
    List.getElem_map, hplace]

/-- Seven images are the grids of one image, and it is the one that is put together from them. -/
lemma eq_deinterlace_iff (h : AreReduced out_n img_x img_y images) :
    out = deinterlace out_n img_x img_y images ↔ out.length = out_n * (img_x * img_y) ∧
      ∀ p < 7, images.getD p [] = gridOf out_n img_x img_y (pngPass p) out := by
  constructor
  · rintro rfl
    refine ⟨length_deinterlace h, fun p hp => ?_⟩
    have hpixel : ∀ place ∈ (pngPass p).places img_x ((pngPass p).columns img_x)
        ((pngPass p).rows img_y),
        pixelAt out_n (deinterlace out_n img_x img_y images) place.1 =
          pixelAt out_n (images.getD p []) place.2 := by
      rintro ⟨i, k⟩ hplace
      obtain ⟨cx, hx, cy, hy, rfl⟩ := exists_of_mem_places (regular_pngPass hp) hplace
      obtain ⟨hown, rfl⟩ := (mem_places (regular_pngPass hp) hx hy).mp hplace
      have hpass := (owns_iff hp).mp hown
      rw [pixelAt_deinterlace h hx hy, hpass]
    have hlength := h p hp
    rw [Nat.mul_comm ((pngPass p).columns img_x)] at hlength
    calc images.getD p []
        = (List.range ((pngPass p).rows img_y * (pngPass p).columns img_x)).flatMap
            (pixelAt out_n (images.getD p [])) := (flatMap_pixelAt hlength).symm
      _ = ((pngPass p).places img_x ((pngPass p).columns img_x) ((pngPass p).rows img_y)).flatMap
            fun place => pixelAt out_n (images.getD p []) place.2 := by
          rw [← places_snd _ img_x, List.flatMap_map]
      _ = gridOf out_n img_x img_y (pngPass p) (deinterlace out_n img_x img_y images) :=
          (List.flatMap_congr hpixel).symm
  · rintro ⟨hlength, hgrids⟩
    rw [deinterlace, ← flatMap_pixelAt hlength]
    refine List.flatMap_congr fun i hi => ?_
    have hi := List.mem_range.mp hi
    have hx : 0 < img_x := Nat.pos_of_mul_pos_right (Nat.zero_lt_of_lt hi)
    have hcx := Nat.mod_lt i hx
    have hcy : i / img_x < img_y := (Nat.div_lt_iff_lt_mul hx).mpr (by rwa [Nat.mul_comm])
    have hpass := passOf_lt (i % img_x) (i / img_x)
    have hpixel := pixelAt_gridOf hlength hpass hcx hcy rfl
    rw [Nat.div_add_mod'] at hpixel
    simp only [hgrids _ hpass, hpixel]

end

end GifTools
