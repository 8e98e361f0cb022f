import GifTools.Core.Bits

/-!
# Numbers of one width as numbers of another

A list of numbers of `n` bits is a list of bits, the most significant bit of each number first. Cut
into fields of `k` bits, the last one filled up with zeros, it is a list of numbers of `k` bits. If
fields are no wider than the numbers were, the complete groups of `n` bits give these back.
-/

namespace Radix

open Bits

/-! ### Fields -/

/-- The `n` low bits of a number, the most significant first. -/
def field (n v : Nat) : List Bool := (natBits n v).reverse

/-- The number with the given bits, the most significant first. -/
def value (bs : List Bool) : Nat := bitsNat bs.reverse

@[simp] lemma length_field (n v : Nat) : (field n v).length = n := by
  rw [field, List.length_reverse, length_natBits]

lemma natBits_mod (n v : Nat) : natBits n (v % 2 ^ n) = natBits n v := by
  induction n generalizing v with
  | zero => rfl
  | succ n ih =>
    have hpow : 2 ^ (n + 1) = 2 * 2 ^ n := pow_succ' 2 n
    have hlow : v % 2 ^ (n + 1) % 2 = v % 2 := Nat.mod_mod_of_dvd _ ⟨2 ^ n, hpow⟩
    have hhigh : v % 2 ^ (n + 1) / 2 = v / 2 % 2 ^ n := by
      rw [hpow, Nat.mod_mul_right_div_self]
    rw [natBits, natBits, hlow, hhigh, ih]

/-- A field behind another one. -/
lemma natBits_or_shiftLeft {c b : Nat} (hb : b < 2 ^ c) (n v : Nat) :
    natBits (c + n) (b ||| v <<< c) = natBits c b ++ natBits n v := by
  have hor : b ||| v <<< c = 2 ^ c * v + b := by
    rw [Nat.or_comm, Nat.shiftLeft_eq, Nat.mul_comm, ← Nat.two_pow_add_eq_or_of_lt hb]
  have hmod : (2 ^ c * v + b) % 2 ^ c = b := by
    rw [Nat.mul_add_mod, Nat.mod_eq_of_lt hb]
  have hdiv : (2 ^ c * v + b) / 2 ^ c = v := by
    rw [Nat.mul_add_div (Nat.two_pow_pos c), Nat.div_eq_of_lt hb, Nat.add_zero]
  rw [hor, natBits_add, ← natBits_mod c, hmod, hdiv]

lemma value_field (n v : Nat) : value (field n v) = v % 2 ^ n := by
  rw [value, field, List.reverse_reverse, ← natBits_mod,
    bitsNat_natBits (Nat.mod_lt _ (Nat.two_pow_pos n))]

@[simp] lemma field_value (bs : List Bool) : field bs.length (value bs) = bs := by
  rw [field, value, ← List.length_reverse, natBits_bitsNat, List.reverse_reverse]

lemma field_add (n k v : Nat) : field (n + k) v = field n (v / 2 ^ k) ++ field k v := by
  rw [field, Nat.add_comm, natBits_add, List.reverse_append]
  rfl

lemma value_append (xs ys : List Bool) :
    value (xs ++ ys) = value xs * 2 ^ ys.length + value ys := by
  rw [value, List.reverse_append, bitsNat_append, List.length_reverse, Nat.add_comm, Nat.mul_comm]
  rfl

lemma value_replicate_false (n : Nat) : value (List.replicate n false) = 0 := by
  rw [value, List.reverse_replicate]
  induction n with
  | zero => rfl
  | succ n ih => rw [List.replicate_succ, bitsNat, ih, Bool.toNat_false]

/-! ### Groups -/

section

variable {A : Type*} {k : Nat} {xs ys : List A}

/-- Groups of `k`, the last one filled up. -/
def cut (k : Nat) (fill : A) (xs : List A) : List (List A) :=
  if xs = [] ∨ k = 0 then []
  else (xs.take k ++ List.replicate (k - xs.length) fill) :: cut k fill (xs.drop k)
termination_by xs.length
decreasing_by
  rename_i h
  rw [not_or] at h
  have := List.length_pos_iff.mpr h.1
  rw [List.length_drop]
  omega

/-- The complete groups of `k`. -/
def wholes (k : Nat) (xs : List A) : List (List A) :=
  if 0 < k ∧ k ≤ xs.length then xs.take k :: wholes k (xs.drop k) else []
termination_by xs.length
decreasing_by
  rw [List.length_drop]
  omega

@[simp] lemma cut_nil (k : Nat) (fill : A) : cut k fill [] = [] := by
  rw [cut, if_pos (.inl rfl)]

lemma cut_append (hk : 0 < k) (hxs : xs.length = k) (fill : A) (ys : List A) :
    cut k fill (xs ++ ys) = xs :: cut k fill ys := by
  have hne : ¬ (xs ++ ys = [] ∨ k = 0) := by
    rintro (h | h)
    · rw [(List.append_eq_nil_iff.mp h).1] at hxs
      exact hk.ne hxs
    · exact hk.ne' h
  have hfill : k - (xs ++ ys).length = 0 := by
    rw [List.length_append]
    omega
  rw [cut, if_neg hne, hfill, List.replicate_zero, List.append_nil, List.take_left' hxs,
    List.drop_left' hxs]

lemma cut_short (hne : xs ≠ []) (hxs : xs.length ≤ k) (fill : A) :
    cut k fill xs = [xs ++ List.replicate (k - xs.length) fill] := by
  have hpos := List.length_pos_iff.mpr hne
  have hk : ¬ (xs = [] ∨ k = 0) := by
    rintro (h | h)
    · exact hne h
    · omega
  rw [cut, if_neg hk, List.take_of_length_le hxs, List.drop_eq_nil_of_le hxs, cut_nil]

/-- A list that is longer than one group. -/
lemma cut_long (hk : 0 < k) (hxs : k ≤ xs.length) (fill : A) :
    cut k fill xs = xs.take k :: cut k fill (xs.drop k) := by
  conv_lhs => rw [← List.take_append_drop k xs]
  exact cut_append hk (List.length_take_of_le hxs) fill _

/-- Induction on the number of groups. -/
@[elab_as_elim]
lemma groups {motive : List A → Prop} (hk : 0 < k)
    (short : ∀ xs : List A, xs.length < k → motive xs)
    (long : ∀ xs : List A, k ≤ xs.length → motive (xs.drop k) → motive xs) (xs : List A) :
    motive xs := by
  induction h : xs.length using Nat.strong_induction_on generalizing xs with
  | _ n ih =>
    rcases Nat.lt_or_ge xs.length k with hlt | hge
    · exact short xs hlt
    · apply long xs hge
      exact ih (xs.drop k).length (by rw [List.length_drop]; omega) _ rfl

/-- Nothing is lost, and less than a group is added. -/
lemma flatten_cut (hk : 0 < k) (fill : A) (xs : List A) :
    ∃ n < k, (cut k fill xs).flatten = xs ++ List.replicate n fill := by
  induction xs using groups hk with
  | short xs hlt =>
    by_cases hne : xs = []
    · exact ⟨0, hk, by simp [hne]⟩
    · have hpos := List.length_pos_iff.mpr hne
      exact ⟨k - xs.length, by omega, by simp [cut_short hne hlt.le]⟩
  | long xs hge ih =>
    obtain ⟨n, hn, hflatten⟩ := ih
    refine ⟨n, hn, ?_⟩
    rw [cut_long hk hge, List.flatten_cons, hflatten, ← List.append_assoc, List.take_append_drop]

lemma length_of_mem_cut (hk : 0 < k) {fill : A} {g : List A} (hg : g ∈ cut k fill xs) :
    g.length = k := by
  induction xs using groups hk with
  | short xs hlt =>
    by_cases hne : xs = []
    · rw [hne, cut_nil] at hg
      cases hg
    · rw [cut_short hne hlt.le, List.mem_singleton] at hg
      rw [hg, List.length_append, List.length_replicate]
      omega
  | long xs hge ih =>
    rw [cut_long hk hge] at hg
    rcases List.mem_cons.mp hg with rfl | hg
    · exact List.length_take_of_le hge
    · exact ih hg

lemma length_cut (hk : 0 < k) (fill : A) (xs : List A) :
    (cut k fill xs).length = (xs.length + (k - 1)) / k := by
  induction xs using groups hk with
  | short xs hlt =>
    by_cases hne : xs = []
    · rw [hne, cut_nil, List.length_nil, List.length_nil, Nat.zero_add,
        Nat.div_eq_of_lt (by omega)]
    · have hpos := List.length_pos_iff.mpr hne
      rw [cut_short hne hlt.le, List.length_singleton]
      exact (Nat.div_eq_of_lt_le (by omega) (by omega)).symm
  | long xs hge ih =>
    rw [cut_long hk hge, List.length_cons, ih, List.length_drop, ← Nat.add_div_right _ hk]
    congr 1
    omega

lemma wholes_short (hxs : xs.length < k) : wholes k xs = [] := by
  rw [wholes, if_neg (by omega)]

lemma wholes_append (hk : 0 < k) (hxs : xs.length = k) (ys : List A) :
    wholes k (xs ++ ys) = xs :: wholes k ys := by
  have hlong : 0 < k ∧ k ≤ (xs ++ ys).length := by
    rw [List.length_append]
    omega
  rw [wholes, if_pos hlong, List.take_left' hxs, List.drop_left' hxs]

/-- Groups behind each other, and what is too short for another one. -/
lemma wholes_flatten_append (hk : 0 < k) {gs : List (List A)} (hgs : ∀ g ∈ gs, g.length = k)
    (hys : ys.length < k) : wholes k (gs.flatten ++ ys) = gs := by
  induction gs with
  | nil => exact wholes_short hys
  | cons g gs ih =>
    rw [List.flatten_cons, List.append_assoc, wholes_append hk (hgs g List.mem_cons_self),
      ih fun g hg => hgs g (List.mem_cons_of_mem _ hg)]

lemma length_of_mem_wholes {g : List A} (hg : g ∈ wholes k xs) : g.length = k := by
  induction xs using wholes.induct k with
  | case1 xs hlong ih =>
    rw [wholes, if_pos hlong] at hg
    rcases List.mem_cons.mp hg with rfl | hg
    · exact List.length_take_of_le hlong.2
    · exact ih hg
  | case2 xs hshort =>
    rw [wholes, if_neg hshort] at hg
    cases hg

lemma flatten_wholes (hk : 0 < k) (xs : List A) :
    (wholes k xs).flatten = xs.take (k * (xs.length / k)) := by
  induction xs using groups hk with
  | short xs hlt => rw [wholes_short hlt, Nat.div_eq_of_lt hlt, Nat.mul_zero, List.take_zero,
      List.flatten_nil]
  | long xs hge ih =>
    have hdiv : xs.length / k = (xs.length - k) / k + 1 := by
      rw [Nat.div_eq xs.length, if_pos ⟨hk, hge⟩]
    rw [wholes, if_pos ⟨hk, hge⟩, List.flatten_cons, ih, List.length_drop, hdiv, Nat.mul_succ,
      Nat.add_comm _ k, List.take_add]

lemma length_wholes (hk : 0 < k) (xs : List A) : (wholes k xs).length = xs.length / k := by
  induction xs using groups hk with
  | short xs hlt => rw [wholes_short hlt, List.length_nil, Nat.div_eq_of_lt hlt]
  | long xs hge ih =>
    rw [wholes, if_pos ⟨hk, hge⟩, List.length_cons, ih, List.length_drop, Nat.div_eq xs.length,
      if_pos ⟨hk, hge⟩]

end

/-! ### Recoding -/

section

variable {n k : Nat}

/-- The bits of numbers of `n` bits. -/
def bits (n : Nat) (xs : List Nat) : List Bool := xs.flatMap (field n)

/-- Numbers of `n` bits as numbers of `k` bits, the last one filled up with zeros. -/
def recode (n k : Nat) (xs : List Nat) : List Nat := (cut k false (bits n xs)).map value

/-- The complete numbers of `n` bits in a list of numbers of `k` bits. -/
def readBack (n k : Nat) (ys : List Nat) : List Nat := (wholes n (bits k ys)).map value

lemma bits_cons (n x : Nat) (xs : List Nat) : bits n (x :: xs) = field n x ++ bits n xs := by
  rw [bits, List.flatMap_cons, bits]

@[simp] lemma length_bits (n : Nat) (xs : List Nat) : (bits n xs).length = n * xs.length := by
  induction xs with
  | nil => rfl
  | cons x xs ih =>
    rw [bits_cons, List.length_append, length_field, ih, List.length_cons, Nat.mul_succ,
      Nat.add_comm]

lemma length_recode (hk : 0 < k) (xs : List Nat) :
    (recode n k xs).length = (n * xs.length + (k - 1)) / k := by
  rw [recode, List.length_map, length_cut hk, length_bits]

lemma length_readBack (hn : 0 < n) (ys : List Nat) :
    (readBack n k ys).length = k * ys.length / n := by
  rw [readBack, List.length_map, length_wholes hn, length_bits]

lemma lt_of_mem_recode (hk : 0 < k) {x : Nat} {xs : List Nat} (hx : x ∈ recode n k xs) :
    x < 2 ^ k := by
  obtain ⟨g, hg, rfl⟩ := List.mem_map.mp hx
  have hlt := bitsNat_lt g.reverse
  rwa [List.length_reverse, length_of_mem_cut hk hg] at hlt

lemma bits_recode (hk : 0 < k) (xs : List Nat) :
    ∃ i < k, bits k (recode n k xs) = bits n xs ++ List.replicate i false := by
  obtain ⟨i, hi, hflatten⟩ := flatten_cut hk false (bits n xs)
  refine ⟨i, hi, ?_⟩
  rw [← hflatten, bits, recode, List.flatMap_map, List.flatMap_def]
  congr 1
  conv_rhs => rw [← List.map_id (cut k false (bits n xs))]
  apply List.map_congr_left
  intro g hg
  rw [← length_of_mem_cut hk hg, field_value, id_eq]

/-- What is read back is the front of the bits. -/
lemma bits_readBack (hn : 0 < n) (ys : List Nat) :
    bits n (readBack n k ys) = (bits k ys).take (n * (k * ys.length / n)) := by
  rw [← length_bits, bits, readBack, List.flatMap_map, List.flatMap_def]
  have hmap : (wholes n (bits k ys)).map (fun g => field n (value g)) = wholes n (bits k ys) := by
    conv_rhs => rw [← List.map_id (wholes n (bits k ys))]
    apply List.map_congr_left
    intro g hg
    rw [← length_of_mem_wholes hg, field_value, id_eq]
  rw [hmap, flatten_wholes hn]

/-- Fields that are no wider than the numbers were give them back. -/
theorem readBack_recode (hk : 0 < k) (hkn : k ≤ n) {xs : List Nat} (hxs : ∀ x ∈ xs, x < 2 ^ n) :
    readBack n k (recode n k xs) = xs := by
  obtain ⟨i, hi, hbits⟩ := bits_recode (n := n) hk xs
  rw [readBack, hbits, bits, List.flatMap_def, wholes_flatten_append (by omega), List.map_map]
  · conv_rhs => rw [← List.map_id xs]
    apply List.map_congr_left
    intro x hx
    rw [Function.comp_apply, value_field, Nat.mod_eq_of_lt (hxs x hx), id_eq]
  · intro g hg
    obtain ⟨x, -, rfl⟩ := List.mem_map.mp hg
    exact length_field n x
  · rw [List.length_replicate]
    omega

end

end Radix
