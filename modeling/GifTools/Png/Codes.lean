import GifTools.Core.Blocks
import GifTools.Png.Inflated

/-!
# The codes of a block

The header of a block is read: the lengths of a code for lengths, in their own order, then the
lengths of the two codes of the block, with their repetitions. The tables are those for these codes.
-/

namespace GifTools

open Bits Canonical Cells Deflate

variable {a b : Zbuf} {v : Nat}

/-! ### The third code -/

lemma getElem?_foldl_set (f : Nat → Nat) (is sizes : List Nat) (j : Nat) :
    (is.foldl (fun sizes i => sizes.set i (f i)) sizes)[j]? =
      if j ∈ is then sizes[j]?.map fun _ => f j else sizes[j]? := by
  induction is generalizing sizes with
  | nil => rw [List.foldl_nil, if_neg List.not_mem_nil]
  | cons i is ih =>
    rw [List.foldl_cons, ih, List.getElem?_set]
    by_cases hij : i = j
    · subst hij
      rw [if_pos rfl, if_pos List.mem_cons_self]
      rcases Nat.lt_or_ge i sizes.length with hlt | hge
      · rw [if_pos hlt, List.getElem?_eq_getElem hlt, Option.map_some, Option.map_some, ite_self]
      · rw [if_neg (not_lt.mpr hge), List.getElem?_eq_none hge, Option.map_none, ite_self]
    · rw [if_neg hij]
      refine if_congr ?_ rfl rfl
      rw [List.mem_cons, or_iff_right (Ne.symm hij)]

/-- What is not given is zero. -/
lemma foldl_set_codelengths (c : Codes) :
    (codelengthOrder.take c.given).foldl (fun sizes i => sizes.set i (len c.codelengths i))
      (List.replicate 19 0) = c.codelengths := by
  apply List.ext_getElem?
  intro j
  rw [getElem?_foldl_set]
  rcases Nat.lt_or_ge j 19 with hj | hj
  · have hlen : c.codelengths[j]? = some (len c.codelengths j) := by
      have hlt : j < c.codelengths.length := c.codelengths_length ▸ hj
      rw [len_eq_getElem hlt, List.getElem?_eq_getElem hlt]
    rw [List.getElem?_replicate_of_lt hj, hlen]
    split_ifs with hmem
    · rfl
    · have hall : ∀ j < 19, j ∈ codelengthOrder := by decide
      have hsplit := hall j hj
      rw [← List.take_append_drop c.given codelengthOrder, List.mem_append] at hsplit
      rw [c.not_given j (hsplit.resolve_left hmem)]
  · rw [List.getElem?_eq_none (by rwa [List.length_replicate]),
      List.getElem?_eq_none (by rwa [c.codelengths_length])]
    split_ifs <;> rfl

lemma receiveCodelengths_of_ahead (ha : a.Good) {f : Nat → Nat} {is : List Nat}
    (hf : ∀ i, f i < 2 ^ 3) (sizes : List Nat)
    (hv : a.stream = ahead (is.flatMap fun i => natBits 3 (f i)) v) :
    ∃ b, receiveCodelengths a sizes is =
        (is.foldl (fun sizes i => sizes.set i (f i)) sizes, b) ∧
      Reads (is.flatMap fun i => natBits 3 (f i)).length a b ∧ b.stream = v := by
  induction is generalizing a sizes with
  | nil => exact ⟨a, rfl, reads_refl ha, by rwa [List.flatMap_nil, ahead_nil] at hv⟩
  | cons i is ih =>
    rw [List.flatMap_cons, ahead_append] at hv
    obtain ⟨b, hb, hreads, hbv⟩ :=
      number_of_ahead (reads_stbiZreceive ha (by decide)) (hf i) hv
    obtain ⟨c, hc, hreads', hcv⟩ := ih hreads.good (sizes.set i (f i)) hbv
    refine ⟨c, ?_, ?_, hcv⟩
    · simp only [receiveCodelengths, hb, hc, List.foldl_cons]
    · rw [List.flatMap_cons, List.length_append, length_natBits]
      exact hreads.trans hreads'

/-! ### Repetitions -/

variable {codelengths lens lens' : List Nat} {z : Zhuffman} {t : Lencode} {ts : List Lencode}

lemma receiveLencodes_fill {c k base fill extra ntot : Nat} {b' : Zbuf}
    (hmore : lens.length < ntot) (hd : stbiZhuffmanDecode a z = .ok (some c, b))
    (hc : 16 ≤ c ∧ c < 19) (hk : (if c = 16 then 2 else if c = 17 then 3 else 7) = k)
    (hbase : (if c = 18 then 11 else 3) = base)
    (hfill : (if c = 16 then lens.getLastD 0 else 0) = fill) (hne : c = 16 → lens ≠ [])
    (hextra : stbiZreceive b k = (extra, b'))
    (hle : (lens ++ List.replicate (extra + base) fill).length ≤ ntot) (n : Nat) :
    receiveLencodes z ntot (n + 1) a lens =
      receiveLencodes z ntot n b' (lens ++ List.replicate (extra + base) fill) := by
  rw [List.length_append, List.length_replicate] at hle
  rw [receiveLencodes, if_neg (not_le.mpr hmore), hd]
  simp only [hk, hbase, hfill, hextra]
  rw [if_neg (by omega), if_neg (by omega), if_neg fun h => hne h.1 h.2, if_neg (by omega)]

/-- A symbol for lengths, and its extra bits. -/
lemma receiveLencodes_succ (h : TableFor codelengths z) (ha : a.Good) (hvalid : t.Valid)
    (hcoded : 0 < len codelengths t.symbol) (happly : t.apply lens = some lens') {ntot : Nat}
    (hle : lens'.length ≤ ntot) (hv : a.stream = ahead (t.bits codelengths) v) (n : Nat) :
    ∃ b, receiveLencodes z ntot (n + 1) a lens = receiveLencodes z ntot n b lens' ∧
      Reads (t.bits codelengths).length a b ∧ b.stream = v := by
  have hmore : lens.length < ntot := (length_lt_of_apply happly).trans_le hle
  rw [Lencode.bits, ahead_append] at hv
  obtain ⟨b, hb, hreads, hbv⟩ := decode_of_ahead h ha hcoded hv
  rw [Lencode.bits, List.length_append, length_wordBits]
  cases t with
  | length l =>
    cases happly
    have hl : ¬ 19 ≤ l ∧ l < 16 := by
      change l < 16 at hvalid
      omega
    refine ⟨b, ?_, hreads, by rwa [Lencode.extraBits, ahead_nil] at hbv⟩
    rw [receiveLencodes, if_neg (not_le.mpr hmore), hb]
    exact (if_neg hl.1).trans (if_pos hl.2)
  | again extra =>
    obtain ⟨l, hl, rfl⟩ := Option.map_eq_some_iff.mp happly
    have hne : lens ≠ [] := by
      rintro rfl
      cases hl
    have hlast : lens.getLastD 0 = l := by rw [List.getLastD_eq_getLast?, hl, Option.getD_some]
    obtain ⟨c, hc, hreads', hcv⟩ :=
      number_of_ahead (reads_stbiZreceive hreads.good (by decide)) hvalid hbv
    exact ⟨c, receiveLencodes_fill (c := 16) hmore hb (by decide) rfl rfl hlast (fun _ => hne) hc
      hle n, hreads.trans hreads', hcv⟩
  | zeros extra =>
    cases happly
    obtain ⟨c, hc, hreads', hcv⟩ :=
      number_of_ahead (reads_stbiZreceive hreads.good (by decide)) hvalid hbv
    exact ⟨c, receiveLencodes_fill (c := 17) hmore hb (by decide) rfl rfl rfl (nomatch ·) hc hle
      n, hreads.trans hreads', hcv⟩
  | manyZeros extra =>
    cases happly
    obtain ⟨c, hc, hreads', hcv⟩ :=
      number_of_ahead (reads_stbiZreceive hreads.good (by decide)) hvalid hbv
    exact ⟨c, receiveLencodes_fill (c := 18) hmore hb (by decide) rfl rfl rfl (nomatch ·) hc hle
      n, hreads.trans hreads', hcv⟩

/-- As every symbol stands for some lengths, there are rounds enough. -/
lemma receiveLencodes_of_ahead (h : TableFor codelengths z) (ha : a.Good)
    (hts : ∀ t ∈ ts, t.Valid ∧ 0 < len codelengths t.symbol)
    (hexpand : expandLengths lens ts = some lens')
    (hv : a.stream = ahead (ts.flatMap (Lencode.bits codelengths)) v) {n : Nat}
    (hn : lens'.length ≤ lens.length + n) :
    ∃ b, receiveLencodes z lens'.length n a lens = .ok (lens', b) ∧
      Reads (ts.flatMap (Lencode.bits codelengths)).length a b ∧ b.stream = v := by
  induction ts generalizing a lens n with
  | nil =>
    cases hexpand
    refine ⟨a, ?_, reads_refl ha, by rwa [List.flatMap_nil, ahead_nil] at hv⟩
    cases n with
    | zero => rw [receiveLencodes, if_neg (lt_irrefl _)]
    | succ n => rw [receiveLencodes, if_pos le_rfl]
  | cons t ts ih =>
    obtain ⟨mid, ht, hmid⟩ := expandLengths_cons_eq_some.mp hexpand
    have hlt := length_lt_of_apply ht
    have hle := length_le_of_expandLengths hmid
    obtain ⟨n, rfl⟩ : ∃ k, n = k + 1 := ⟨n - 1, by omega⟩
    rw [List.flatMap_cons, ahead_append] at hv
    obtain ⟨hvalid, hcoded⟩ := hts t List.mem_cons_self
    obtain ⟨b, hb, hreads, hbv⟩ := receiveLencodes_succ h ha hvalid hcoded ht hle hv n
    obtain ⟨c, hc, hreads', hcv⟩ := ih hreads.good
      (fun t ht => hts t (List.mem_cons_of_mem _ ht)) hmid hbv (n := n) (by omega)
    refine ⟨c, hb.trans hc, ?_, hcv⟩
    rw [List.flatMap_cons, List.length_append]
    exact hreads.trans hreads'

/-! ### Headers -/

/-- The codes of a block are read, and tables are built for them. -/
lemma computeHuffmanCodes_of_ahead (ha : a.Good) (hroom : a.Room) (c : Codes)
    (hv : a.stream = ahead c.bits v) (g : Zhuffman) :
    ∃ b, stbiComputeHuffmanCodes a g = .ok b ∧ Ready c.lit c.dist b ∧ b.zout_end = a.zout_end ∧
      b.zout = a.zout ∧ b.stream = v ∧ Uses c.bits.length a b := by
  have hlit := c.lit_length
  have hdist := c.dist_length
  have hgiven := c.given_range
  simp only [Codes.bits, ahead_append] at hv
  obtain ⟨b1, hb1, hreads1, hv1⟩ :=
    number_of_ahead (reads_stbiZreceive ha (by decide)) (by omega) hv
  obtain ⟨b2, hb2, hreads2, hv2⟩ :=
    number_of_ahead (reads_stbiZreceive hreads1.good (by decide)) (by omega) hv1
  obtain ⟨b3, hb3, hreads3, hv3⟩ :=
    number_of_ahead (reads_stbiZreceive hreads2.good (by decide)) (by omega) hv2
  obtain ⟨b4, hb4, hreads4, hv4⟩ := receiveCodelengths_of_ahead hreads3.good c.len_codelengths_lt
    (List.replicate 19 0) hv3
  rw [foldl_set_codelengths] at hb4
  have hle := c.codelengths_le
  obtain ⟨z, hz⟩ := build_ok g hle c.fits_codelengths
  have htable := tableFor_of_build hle (by rw [c.codelengths_length]; decide) hz
  obtain ⟨b5, hb5, hreads5, hv5⟩ := receiveLencodes_of_ahead htable hreads4.good c.coded
    c.expand_eq hv4 (n := (c.lit ++ c.dist).length) (by omega)
  have hlit_le : ∀ l ∈ c.lit, l ≤ 15 := fun l hl => c.le_fifteen l (List.mem_append_left _ hl)
  have hdist_le : ∀ l ∈ c.dist, l ≤ 15 := fun l hl => c.le_fifteen l (List.mem_append_right _ hl)
  obtain ⟨z_length, hz_length⟩ := build_ok b5.z_length hlit_le c.fits_lit
  obtain ⟨z_distance, hz_distance⟩ := build_ok b5.z_distance hdist_le c.fits_dist
  have hreads := hreads1.trans (hreads2.trans (hreads3.trans (hreads4.trans hreads5)))
  have hroom' := hroom.of_reads hreads
  refine ⟨{ b5 with z_length := z_length, z_distance := z_distance }, ?_,
    ⟨⟨hreads.good.1, hreads.good.2⟩, tableFor_of_build hlit_le hlit.2 hz_length,
      tableFor_of_build hdist_le (by omega) hz_distance, hroom'.zout_le,
      hroom'.zout_end_lt⟩, hreads.zout_end_eq, hreads.zout_eq, hv5, ?_⟩
  · have hlit257 : c.lit.length - 257 + 257 = c.lit.length := Nat.sub_add_cancel hlit.1
    have hdist1 : c.dist.length - 1 + 1 = c.dist.length := Nat.sub_add_cancel hdist.1
    have hgiven4 : c.given - 4 + 4 = c.given := Nat.sub_add_cancel hgiven.1
    rw [List.length_append] at hb5
    have horder : lengthDezigzag = codelengthOrder := rfl
    simp only [stbiComputeHuffmanCodes, hb1, hb2, hb3, hlit257, hdist1, hgiven4, horder, hb4, hz,
      hb5, List.take_left, List.drop_left, hz_length, hz_distance, bind, Except.bind, pure,
      Except.pure]
  · simp only [Codes.bits, List.length_append, length_natBits, Nat.add_assoc]
    exact hreads.uses

end GifTools
