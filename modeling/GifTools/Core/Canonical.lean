import GifTools.Core.Radix
import Mathlib.Data.List.GetD

/-!
# Canonical prefix codes

A code is given by the lengths of its words, one for each symbol, zero for a symbol without a word.
Words of one length are consecutive numbers in the order of the symbols, and the first word of a
length follows the last one of the length before, with a bit appended.

A stream of bits is a number, its first bit the least significant one. The bits of a word come the
most significant first.
-/

namespace Canonical

open Bits Radix

/-! ### Streams -/

/-- The first `s` bits of a stream, as the number a word is compared with. -/
def lead : Nat → Nat → Nat
  | 0, _ => 0
  | s + 1, v => 2 * lead s v + v / 2 ^ s % 2

lemma lead_lt (s v : Nat) : lead s v < 2 ^ s := by
  induction s with
  | zero => exact Nat.one_pos
  | succ s ih =>
    have hbit := Nat.mod_lt (v / 2 ^ s) Nat.two_pos
    rw [lead, pow_succ]
    omega

lemma lead_add (s t v : Nat) : lead (s + t) v / 2 ^ t = lead s v := by
  induction t with
  | zero => rw [Nat.add_zero, pow_zero, Nat.div_one]
  | succ t ih =>
    have hbit := Nat.mod_lt (v / 2 ^ (s + t)) Nat.two_pos
    have hdiv : (2 * lead (s + t) v + v / 2 ^ (s + t) % 2) / 2 = lead (s + t) v := by omega
    rw [← Nat.add_assoc, lead, pow_succ', ← Nat.div_div_eq_div_mul, hdiv, ih]

lemma two_mul_lead_le (s v : Nat) : 2 * lead s v ≤ lead (s + 1) v := Nat.le_add_right _ _

lemma lead_mod {s n : Nat} (hsn : s ≤ n) (v : Nat) : lead s (v % 2 ^ n) = lead s v := by
  induction s with
  | zero => rfl
  | succ s ih =>
    have hpow : 2 ^ n = 2 ^ s * (2 * 2 ^ (n - s - 1)) := by
      rw [← pow_succ', ← pow_add]
      congr 1
      omega
    rw [lead, lead, ih (by omega), hpow, Nat.mod_mul_right_div_self, Nat.mod_mul_right_mod]

/-- The first bits are those of a list, the first one most significant. -/
lemma lead_eq_value (s v : Nat) : lead s v = value (natBits s v) := by
  induction s with
  | zero => rfl
  | succ s ih =>
    have hbit : value (natBits 1 (v / 2 ^ s)) = v / 2 ^ s % 2 := by
      change (decide (v / 2 ^ s % 2 = 1)).toNat + 2 * 0 = _
      rw [toNat_decide_mod_two, Nat.mul_zero, Nat.add_zero]
    rw [lead, ih, natBits_add, value_append, hbit, length_natBits, pow_one, Nat.mul_comm]

/-- A stream with bits in front of it. -/
def ahead (bs : List Bool) (v : Nat) : Nat := bitsNat bs + 2 ^ bs.length * v

@[simp] lemma ahead_nil (v : Nat) : ahead [] v = v := by
  rw [ahead, List.length_nil, pow_zero, Nat.one_mul]
  exact Nat.zero_add v

lemma ahead_append (xs ys : List Bool) (v : Nat) : ahead (xs ++ ys) v = ahead xs (ahead ys v) := by
  rw [ahead, ahead, ahead, bitsNat_append, List.length_append, pow_add]
  ring

lemma ahead_mod (bs : List Bool) (v : Nat) : ahead bs v % 2 ^ bs.length = bitsNat bs := by
  rw [ahead, Nat.add_mul_mod_self_left, Nat.mod_eq_of_lt (bitsNat_lt bs)]

lemma ahead_div (bs : List Bool) (v : Nat) : ahead bs v / 2 ^ bs.length = v := by
  rw [ahead, Nat.add_mul_div_left _ _ (Nat.two_pow_pos _), Nat.div_eq_of_lt (bitsNat_lt bs),
    Nat.zero_add]

/-- As many bits in front of the same stream are the same ones. -/
lemma ahead_inj {xs ys : List Bool} {v w : Nat} (hlength : xs.length = ys.length)
    (h : ahead xs v = ahead ys w) : xs = ys ∧ v = w := by
  have hmod := ahead_mod xs v
  have hdiv := ahead_div xs v
  rw [h, hlength, ahead_mod] at hmod
  rw [h, hlength, ahead_div] at hdiv
  refine ⟨?_, hdiv.symm⟩
  rw [← natBits_bitsNat xs, ← natBits_bitsNat ys, ← hmod, hlength]

lemma ahead_natBits_mod (n v : Nat) : ahead (natBits n (v % 2 ^ n)) (v / 2 ^ n) = v := by
  rw [ahead, bitsNat_natBits (Nat.mod_lt _ (Nat.two_pow_pos n)), length_natBits, Nat.mod_add_div]

lemma lead_ahead (bs : List Bool) (v : Nat) : lead bs.length (ahead bs v) = value bs := by
  rw [← lead_mod le_rfl, ahead_mod, lead_eq_value, natBits_bitsNat]

lemma testBit_lead (s v i : Nat) :
    (lead s v).testBit i = (decide (i < s) && v.testBit (s - 1 - i)) := by
  induction s generalizing i with
  | zero => simp [lead]
  | succ s ih =>
    have hbit : v / 2 ^ s % 2 < 2 := Nat.mod_lt _ Nat.two_pos
    have hhalf : (2 * lead s v + v / 2 ^ s % 2) / 2 = lead s v := by omega
    cases i with
    | zero =>
      have hodd : (2 * lead s v + v / 2 ^ s % 2) % 2 = v / 2 ^ s % 2 := by omega
      rw [lead, Nat.testBit_zero, hodd, Nat.add_sub_cancel, Nat.sub_zero,
        Nat.testBit_eq_decide_div_mod_eq]
      simp
    | succ i =>
      rw [lead, Nat.testBit_succ, hhalf, ih]
      congr 2
      · simp
      · omega

/-- Turned round twice. -/
lemma lead_lead (s v : Nat) : lead s (lead s v) = v % 2 ^ s := by
  apply Nat.eq_of_testBit_eq
  intro i
  rw [testBit_lead, testBit_lead, Nat.testBit_mod_two_pow]
  by_cases hi : i < s
  · rw [show s - 1 - (s - 1 - i) = i by omega]
    simp only [hi, show s - 1 - i < s by omega, decide_true, Bool.true_and]
  · simp only [hi, decide_false, Bool.false_and]

lemma mod_eq_lead_iff {s v w : Nat} (hw : w < 2 ^ s) : v % 2 ^ s = lead s w ↔ lead s v = w := by
  constructor
  · intro h
    rw [← lead_mod le_rfl, h, lead_lead, Nat.mod_eq_of_lt hw]
  · intro h
    rw [← h, lead_lead]

/-! ### Words -/

variable (lens : List Nat)

/-- The length of the word of a symbol. -/
def len (i : Nat) : Nat := lens.getD i 0

/-- The number of words of a length. -/
def used (s : Nat) : Nat := if s = 0 then 0 else lens.count s

/-- The first word of a length. -/
def first : Nat → Nat
  | 0 => 0
  | s + 1 => 2 * (first s + used lens s)

/-- Behind the last word of a length. -/
def bound (s : Nat) : Nat := first lens s + used lens s

/-- The number of words that are shorter. -/
def shorter : Nat → Nat
  | 0 => 0
  | s + 1 => shorter s + used lens s

/-- The number of words of the same length that come before. -/
def rank (i : Nat) : Nat := (lens.take i).count (len lens i)

/-- The word of a symbol. -/
def word (i : Nat) : Nat := first lens (len lens i) + rank lens i

/-- The place of a symbol when they are sorted by the lengths of their words. -/
def place (i : Nat) : Nat := shorter lens (len lens i) + rank lens i

/-- The bits of a word. -/
def wordBits (i : Nat) : List Bool := field (len lens i) (word lens i)

/-- The stream begins with the word of a symbol. -/
def Starts (i v : Nat) : Prop := 0 < len lens i ∧ lead (len lens i) v = word lens i

instance (i v : Nat) : Decidable (Starts lens i v) := inferInstanceAs (Decidable (_ ∧ _))

/-- There is room for the words of every length. -/
def Fits (n : Nat) : Prop := ∀ s ≤ n, bound lens s ≤ 2 ^ s

variable {lens} {i j s t n v : Nat}

@[simp] lemma length_wordBits (i : Nat) : (wordBits lens i).length = len lens i := length_field _ _

lemma lt_length_of_len_pos (h : 0 < len lens i) : i < lens.length := by
  by_contra hge
  rw [len, List.getD_eq_default _ _ (not_lt.mp hge)] at h
  exact absurd h (lt_irrefl 0)

lemma len_eq_getElem (h : i < lens.length) : len lens i = lens[i] := List.getD_eq_getElem _ _ h

lemma count_take_succ (h : i < lens.length) :
    (lens.take (i + 1)).count s = (lens.take i).count s + if len lens i = s then 1 else 0 := by
  rw [List.take_succ_eq_append_getElem h, List.count_append, List.count_singleton,
    len_eq_getElem h]
  simp only [beq_iff_eq]

lemma used_of_pos (h : 0 < s) : used lens s = lens.count s := if_neg h.ne'

/-- The word of a symbol is one of those of its length. -/
lemma rank_lt_used (h : 0 < len lens i) : rank lens i < used lens (len lens i) := by
  have hi := lt_length_of_len_pos h
  have hsucc := count_take_succ (s := len lens i) hi
  have hle : (lens.take (i + 1)).count (len lens i) ≤ lens.count (len lens i) :=
    (List.take_sublist _ _).count_le _
  rw [if_pos rfl] at hsucc
  rw [used_of_pos h, rank]
  omega

lemma rank_lt_rank (hij : i < j) (hlen : len lens i = len lens j) (h : 0 < len lens i) :
    rank lens i < rank lens j := by
  have hi := lt_length_of_len_pos h
  have hsucc := count_take_succ (s := len lens i) hi
  have hle : (lens.take (i + 1)).count (len lens i) ≤ (lens.take j).count (len lens i) :=
    (List.take_sublist_take_left (by omega)).count_le _
  rw [if_pos rfl] at hsucc
  rw [rank, rank, ← hlen]
  omega

lemma eq_of_rank_eq (hlen : len lens i = len lens j) (h : 0 < len lens i)
    (hrank : rank lens i = rank lens j) : i = j := by
  rcases lt_trichotomy i j with hij | hij | hij
  · exact absurd hrank (rank_lt_rank hij hlen h).ne
  · exact hij
  · exact absurd hrank (rank_lt_rank hij hlen.symm (hlen ▸ h)).ne'

lemma exists_rank {r : Nat} (hr : r < lens.count s) :
    ∃ i, len lens i = s ∧ rank lens i = r := by
  induction lens generalizing r with
  | nil => exact absurd hr (Nat.not_lt_zero r)
  | cons l ls ih =>
    by_cases hls : l = s
    · cases r with
      | zero => exact ⟨0, hls, rfl⟩
      | succ r =>
        rw [hls, List.count_cons_self] at hr
        obtain ⟨i, hlen, hrank⟩ := ih (by omega : r < ls.count s)
        have hlen' : len (l :: ls) (i + 1) = s := hlen
        refine ⟨i + 1, hlen', ?_⟩
        rw [rank, hlen] at hrank
        rw [rank, hlen', List.take_succ_cons, hls, List.count_cons_self, hrank]
    · rw [List.count_cons_of_ne hls] at hr
      obtain ⟨i, hlen, hrank⟩ := ih hr
      have hlen' : len (l :: ls) (i + 1) = s := hlen
      refine ⟨i + 1, hlen', ?_⟩
      rw [rank, hlen] at hrank
      rw [rank, hlen', List.take_succ_cons, List.count_cons_of_ne hls, hrank]

/-- A stretch of symbols with words of one length. -/
lemma len_rank_replicate (xs ys : List Nat) {m : Nat} (hge : xs.length ≤ i)
    (hlt : i < xs.length + m) :
    len (xs ++ (List.replicate m s ++ ys)) i = s ∧
      rank (xs ++ (List.replicate m s ++ ys)) i = xs.count s + (i - xs.length) := by
  obtain ⟨k, rfl⟩ : ∃ k, i = xs.length + k := ⟨i - xs.length, by omega⟩
  have hk : k < m := by omega
  have hlen : len (xs ++ (List.replicate m s ++ ys)) (xs.length + k) = s := by
    rw [len, List.getD_append_right _ _ _ _ hge, Nat.add_sub_cancel_left,
      List.getD_append _ _ _ _ (by rwa [List.length_replicate]), List.getD_replicate _ hk]
  refine ⟨hlen, ?_⟩
  rw [rank, hlen, List.take_length_add_append, List.take_append_of_le_length, List.take_replicate,
    List.count_append, List.count_replicate_self, Nat.min_eq_left hk.le, Nat.add_sub_cancel_left]
  rw [List.length_replicate]
  exact hk.le

/-! ### Which word a stream begins with -/

lemma word_lt_bound (h : 0 < len lens i) : word lens i < bound lens (len lens i) :=
  Nat.add_lt_add_left (rank_lt_used h) _

lemma first_le_word : first lens (len lens i) ≤ word lens i := Nat.le_add_right _ _

/-- Words leave no room to the words of longer lengths. -/
lemma pow_mul_bound_le_first (s t : Nat) :
    2 ^ (t + 1) * bound lens s ≤ first lens (s + t + 1) := by
  induction t with
  | zero => rfl
  | succ t ih =>
    have hle : first lens (s + t + 1) ≤ bound lens (s + t + 1) := Nat.le_add_right _ _
    have hstep : first lens (s + (t + 1) + 1) = 2 * bound lens (s + t + 1) := rfl
    rw [hstep, pow_succ']
    calc 2 * 2 ^ (t + 1) * bound lens s = 2 * (2 ^ (t + 1) * bound lens s) := Nat.mul_assoc _ _ _
      _ ≤ 2 * bound lens (s + t + 1) := by omega

/-- What is longer than a word of a length lies behind all of these. -/
lemma bound_le_lead_of_starts (h : Starts lens i v) (hs : s < len lens i) :
    bound lens s ≤ lead s v := by
  obtain ⟨t, ht⟩ : ∃ t, len lens i = s + t + 1 := ⟨len lens i - s - 1, by omega⟩
  have hword : 2 ^ (t + 1) * bound lens s ≤ lead (s + (t + 1)) v := by
    calc 2 ^ (t + 1) * bound lens s ≤ first lens (len lens i) := by
          rw [ht]
          exact pow_mul_bound_le_first s t
      _ ≤ word lens i := first_le_word
      _ = lead (s + (t + 1)) v := by rw [← h.2, ht, Nat.add_assoc]
  rw [← lead_add s (t + 1) v, Nat.le_div_iff_mul_le (Nat.two_pow_pos _), Nat.mul_comm]
  exact hword

lemma lead_lt_bound_of_starts (h : Starts lens i v) :
    lead (len lens i) v < bound lens (len lens i) := by
  rw [h.2]
  exact word_lt_bound h.1

/-- No word is the beginning of another one. -/
lemma eq_of_starts (hi : Starts lens i v) (hj : Starts lens j v) : i = j := by
  have hlen : len lens i = len lens j := by
    rcases lt_trichotomy (len lens i) (len lens j) with hlt | heq | hgt
    · exact absurd (lead_lt_bound_of_starts hi) (not_lt.mpr (bound_le_lead_of_starts hj hlt))
    · exact heq
    · exact absurd (lead_lt_bound_of_starts hj) (not_lt.mpr (bound_le_lead_of_starts hi hgt))
  have hword : word lens i = word lens j := by rw [← hi.2, ← hj.2, hlen]
  rw [word, word, hlen, Nat.add_left_cancel_iff] at hword
  exact eq_of_rank_eq hlen hi.1 hword

lemma exists_starts (hs : 0 < s) (hge : first lens s ≤ lead s v) (hlt : lead s v < bound lens s) :
    ∃ i, len lens i = s ∧ Starts lens i v := by
  have hrank : lead s v - first lens s < lens.count s := by
    rw [bound, used_of_pos hs] at hlt
    omega
  obtain ⟨i, hlen, hi⟩ := exists_rank hrank
  refine ⟨i, hlen, hlen.symm ▸ hs, ?_⟩
  rw [word, hlen, hi]
  omega

/-- A length at which the stream is not behind all words is that of its word, if it is the first
such length. -/
lemma exists_starts_of_least (hs : 0 < s) (hlt : lead s v < bound lens s)
    (hleast : ∀ t, 0 < t → t < s → bound lens t ≤ lead t v) :
    ∃ i, len lens i = s ∧ Starts lens i v := by
  refine exists_starts hs ?_ hlt
  obtain ⟨t, rfl⟩ : ∃ t, s = t + 1 := ⟨s - 1, by omega⟩
  rcases Nat.eq_zero_or_pos t with rfl | ht
  · exact Nat.zero_le _
  · calc first lens (t + 1) = 2 * bound lens t := rfl
      _ ≤ 2 * lead t v := Nat.mul_le_mul_left 2 (hleast t ht (Nat.lt_succ_self t))
      _ ≤ lead (t + 1) v := two_mul_lead_le t v

/-- Without a word at its beginning a stream is behind all of them. -/
lemma bound_le_lead_of_not_starts (h : ∀ i, len lens i ≤ n → ¬ Starts lens i v) (hs : s ≤ n) :
    bound lens s ≤ lead s v := by
  induction s using Nat.strong_induction_on with
  | _ s ih =>
    by_contra hlt
    rcases Nat.eq_zero_or_pos s with rfl | hpos
    · exact absurd (Nat.zero_le _) hlt
    · obtain ⟨i, hlen, hi⟩ := exists_starts_of_least hpos (not_le.mp hlt)
        fun t _ hts => ih t hts (by omega)
      exact h i (hlen ▸ hs) hi

/-- A word with anything behind it. -/
lemma starts_ahead (h : 0 < len lens i) (hfits : Fits lens (len lens i)) (v : Nat) :
    Starts lens i (ahead (wordBits lens i) v) := by
  refine ⟨h, ?_⟩
  have hlt : word lens i < 2 ^ len lens i := (word_lt_bound h).trans_le (hfits _ le_rfl)
  have hlead := lead_ahead (wordBits lens i) v
  rw [length_wordBits] at hlead
  rw [hlead, wordBits, value_field, Nat.mod_eq_of_lt hlt]

lemma ahead_wordBits_div (i v : Nat) : ahead (wordBits lens i) v / 2 ^ len lens i = v := by
  have hdiv := ahead_div (wordBits lens i) v
  rwa [length_wordBits] at hdiv

lemma ahead_of_starts (h : Starts lens i v) :
    ahead (wordBits lens i) (v / 2 ^ len lens i) = v := by
  have hlt : word lens i < 2 ^ len lens i := h.2 ▸ lead_lt _ _
  have hbits : bitsNat (wordBits lens i) = v % 2 ^ len lens i := by
    rw [(mod_eq_lead_iff hlt).mpr h.2, lead_eq_value]
    rfl
  rw [ahead, hbits, length_wordBits, Nat.mod_add_div]

/-! ### The sorted symbols -/

lemma shorter_mono (h : s ≤ t) : shorter lens s ≤ shorter lens t := by
  induction t with
  | zero =>
    rw [Nat.le_zero.mp h]
  | succ t ih =>
    rcases Nat.lt_or_eq_of_le h with hlt | rfl
    · exact (ih (by omega)).trans (Nat.le_add_right _ _)
    · exact le_rfl

lemma place_lt_shorter (h : 0 < len lens i) (hs : len lens i < s) :
    place lens i < shorter lens s :=
  (Nat.add_lt_add_left (rank_lt_used h) _).trans_le (shorter_mono hs)

lemma eq_of_place_eq (hi : 0 < len lens i) (hj : 0 < len lens j)
    (h : place lens i = place lens j) : i = j := by
  have hlt : ∀ {i j}, 0 < len lens i → len lens i < len lens j → place lens i < place lens j :=
    fun hi hij => (place_lt_shorter hi hij).trans_le (Nat.le_add_right _ _)
  rcases lt_trichotomy (len lens i) (len lens j) with hij | hij | hij
  · exact absurd h (hlt hi hij).ne
  · rw [place, place, hij, Nat.add_left_cancel_iff] at h
    exact eq_of_rank_eq hij hi h
  · exact absurd h (hlt hj hij).ne'

lemma shorter_eq_countP (s : Nat) : shorter lens s = lens.countP fun l => 0 < l ∧ l < s := by
  induction s with
  | zero =>
    symm
    rw [shorter, List.countP_eq_zero]
    intro l _
    simp
  | succ s ih =>
    rw [shorter, ih, used]
    split
    case isTrue hs =>
      rw [Nat.add_zero]
      refine List.countP_congr fun l _ => ?_
      simp only [decide_eq_true_eq]
      omega
    case isFalse hs =>
      clear ih
      induction lens with
      | nil => rfl
      | cons l ls ih =>
        have hitem : (if decide (0 < l ∧ l < s + 1) = true then 1 else 0) =
            (if decide (0 < l ∧ l < s) = true then 1 else 0) +
              if (l == s) = true then 1 else 0 := by
          simp only [decide_eq_true_eq, beq_iff_eq]
          split_ifs <;> omega
        rw [List.countP_cons, List.countP_cons, List.count_cons, hitem, ← ih]
        omega

lemma shorter_le_length (s : Nat) : shorter lens s ≤ lens.length := by
  rw [shorter_eq_countP]
  exact List.countP_le_length

/-! ### Room -/

/-- What the words of a code take up of the numbers of `n` bits. -/
def kraft (lens : List Nat) (n : Nat) : Nat :=
  (lens.map fun l => if 0 < l ∧ l ≤ n then 2 ^ (n - l) else 0).sum

lemma kraft_succ (lens : List Nat) (n : Nat) :
    kraft lens (n + 1) = 2 * kraft lens n + used lens (n + 1) := by
  rw [used_of_pos (Nat.succ_pos n)]
  induction lens with
  | nil => rfl
  | cons l ls ih =>
    have hl : (if 0 < l ∧ l ≤ n + 1 then 2 ^ (n + 1 - l) else 0) =
        2 * (if 0 < l ∧ l ≤ n then 2 ^ (n - l) else 0) + if l = n + 1 then 1 else 0 := by
      by_cases heq : l = n + 1
      · subst heq
        simp
      · by_cases hle : 0 < l ∧ l ≤ n
        · rw [if_pos hle, if_pos ⟨hle.1, by omega⟩, if_neg heq, Nat.succ_sub hle.2, pow_succ']
          rfl
        · rw [if_neg hle, if_neg (by omega), if_neg heq]
    simp only [kraft, List.map_cons, List.sum_cons, List.count_cons, beq_iff_eq] at ih ⊢
    rw [ih, hl]
    ring

lemma bound_eq_kraft (lens : List Nat) (s : Nat) : bound lens s = kraft lens s := by
  induction s with
  | zero =>
    symm
    rw [bound, first, used, if_pos rfl, kraft, List.sum_eq_zero_iff_forall_eq_nat]
    intro x hx
    obtain ⟨l, _, rfl⟩ := List.mem_map.mp hx
    exact if_neg (by omega)
  | succ s ih => rw [kraft_succ, ← ih]; rfl

lemma kraft_append (xs ys : List Nat) (n : Nat) :
    kraft (xs ++ ys) n = kraft xs n + kraft ys n := by
  rw [kraft, List.map_append, List.sum_append]
  rfl

lemma kraft_replicate (m : Nat) {l n : Nat} (hl : 0 < l) (hn : l ≤ n) :
    kraft (List.replicate m l) n = m * 2 ^ (n - l) := by
  rw [kraft, List.map_replicate, if_pos ⟨hl, hn⟩, List.sum_replicate_nat]

/-- There is room for all words if there is at the last length. -/
theorem fits_iff_kraft (lens : List Nat) (n : Nat) : Fits lens n ↔ kraft lens n ≤ 2 ^ n := by
  constructor
  · intro h
    rw [← bound_eq_kraft]
    exact h n le_rfl
  · intro h s hs
    by_contra hlt
    obtain ⟨t, rfl⟩ : ∃ t, n = s + t := ⟨n - s, by omega⟩
    have hgrow : ∀ t, 2 ^ t * kraft lens s ≤ kraft lens (s + t) := by
      intro t
      induction t with
      | zero => rw [pow_zero, Nat.one_mul, Nat.add_zero]
      | succ t ih =>
        rw [pow_succ', Nat.mul_assoc, ← Nat.add_assoc, kraft_succ]
        omega
    have hroom : 2 ^ t * kraft lens s ≤ 2 ^ t * 2 ^ s := by
      rw [← pow_add, Nat.add_comm t s]
      exact (hgrow t).trans h
    rw [bound_eq_kraft] at hlt
    exact hlt (Nat.le_of_mul_le_mul_left hroom (Nat.two_pow_pos t))

end Canonical
