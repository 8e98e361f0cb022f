import GifTools.Core.Canonical
import GifTools.Core.Cells
import GifTools.Png.Failure
import Mathlib.Tactic.IntervalCases

/-!
# The decoding tables

`stbi__zbuild_huffman` of `stb_image` turns the lengths of the words of a code into tables: one that
is indexed by the next nine bits, and one of the ranges of the words of each length. `TableFor` says
what the decoder relies on.
-/

namespace GifTools

open Bits Radix Canonical Cells

/-! ### Reversed bits -/

def stbiBitreverse16 (n : Nat) : Nat :=
  let n := (n &&& 0xAAAA) >>> 1 ||| (n &&& 0x5555) <<< 1
  let n := (n &&& 0xCCCC) >>> 2 ||| (n &&& 0x3333) <<< 2
  let n := (n &&& 0xF0F0) >>> 4 ||| (n &&& 0x0F0F) <<< 4
  (n &&& 0xFF00) >>> 8 ||| (n &&& 0x00FF) <<< 8

def stbiBitReverse (v bits : Nat) : Nat := stbiBitreverse16 v >>> (16 - bits)

/-! ### The tables -/

structure Zhuffman where
  fast : Vector Nat 512
  firstcode : Vector Nat 16
  maxcode : Vector Nat 17
  firstsymbol : Vector Nat 16
  size : Vector Nat 288
  value : Vector Nat 288

def Zhuffman.zero : Zhuffman :=
  ⟨.replicate 512 0, .replicate 16 0, .replicate 17 0, .replicate 16 0, .replicate 288 0,
    .replicate 288 0⟩

/-- `sizes`, with `sizes[0]` cleared. -/
def countSizes (sizelist : List Nat) : Vector Nat 17 :=
  write (sizelist.foldl (fun sizes s => write sizes s (read sizes s + 1)) (Vector.replicate 17 0))
    0 0

/-- What the loop over the lengths computes. -/
structure Ranges where
  code : Nat
  k : Nat
  next_code : Vector Nat 16
  firstcode : Vector Nat 16
  maxcode : Vector Nat 17
  firstsymbol : Vector Nat 16

def rangeStep (sizes : Vector Nat 17) (r : Ranges) (i : Nat) : Except StbiFailure Ranges :=
  let code := r.code + read sizes i
  if read sizes i ≠ 0 ∧ code - 1 ≥ 1 <<< i then .error (.err "bad codelengths")
  else .ok {
    code := code <<< 1
    k := r.k + read sizes i
    next_code := write r.next_code i r.code
    firstcode := write r.firstcode i r.code
    maxcode := write r.maxcode i (code <<< (16 - i))
    firstsymbol := write r.firstsymbol i r.k }

/-- `while (j < (1 << STBI__ZFAST_BITS))` -/
def fillFast (fastv s : Nat) (fast : Vector Nat 512) (j : Nat) : Vector Nat 512 :=
  if j < 512 then fillFast fastv s (write fast j fastv) (j + 2 ^ s) else fast
termination_by 512 - j
decreasing_by
  have := Nat.two_pow_pos s
  omega

/-- The tables while the symbols are entered, with the next word of each length. -/
structure Filling where
  next_code : Vector Nat 16
  z : Zhuffman

/-- Words of at most nine bits are entered into the first table. -/
def enterFast (fast : Vector Nat 512) (fastv s w : Nat) : Vector Nat 512 :=
  if s ≤ 9 then fillFast fastv s fast (stbiBitReverse w s) else fast

def symbolStep (f : Filling) (i s : Nat) : Filling :=
  if s = 0 then f
  else
    let w := read f.next_code s
    let c := w - read f.z.firstcode s + read f.z.firstsymbol s
    let fastv := s <<< 9 ||| i
    { next_code := write f.next_code s (w + 1)
      z := { f.z with
        fast := enterFast f.z.fast fastv s w
        size := write f.z.size c s
        value := write f.z.value c i } }

/-- The symbols from `i` on. -/
def enterSymbols (f : Filling) (i : Nat) : List Nat → Filling
  | [] => f
  | s :: sizelist => enterSymbols (symbolStep f i s) (i + 1) sizelist

/-- The tables in `z` are overwritten. -/
def stbiZbuildHuffman (z : Zhuffman) (sizelist : List Nat) : Except StbiFailure Zhuffman :=
  let sizes := countSizes sizelist
  if (List.range' 1 15).any fun i => read sizes i > 1 <<< i then .error (.err "bad sizes")
  else do
    let r ← (List.range' 1 15).foldlM (rangeStep sizes)
      ⟨0, 0, Vector.replicate 16 0, z.firstcode, z.maxcode, z.firstsymbol⟩
    return (enterSymbols ⟨r.next_code, { z with
      fast := Vector.replicate 512 0
      firstcode := r.firstcode
      maxcode := write r.maxcode 16 0x10000
      firstsymbol := r.firstsymbol }⟩ 0 sizelist).z

/-! ### What the tables hold -/

/-- Sixteen bits in the other order. -/
lemma stbiBitreverse16_eq (n : Nat) : stbiBitreverse16 n = lead 16 n := by
  apply Nat.eq_of_testBit_eq
  intro i
  rw [testBit_lead]
  rcases Nat.lt_or_ge i 16 with hi | hi
  · have hmask (m j : Nat) : m.testBit j = decide (m / 2 ^ j % 2 = 1) :=
      Nat.testBit_eq_decide_div_mod_eq
    interval_cases i <;> simp [stbiBitreverse16, hmask 0xAAAA, hmask 0x5555, hmask 0xCCCC,
      hmask 0x3333, hmask 0xF0F0, hmask 0x0F0F, hmask 0xFF00, hmask 0x00FF]
  · have hhigh : Nat.testBit 0xFF00 (8 + i) = false := Nat.testBit_lt_two_pow (by
      calc 0xFF00 < 2 ^ 16 := by decide
        _ ≤ 2 ^ (8 + i) := Nat.pow_le_pow_right Nat.two_pos (by omega))
    have hlow : Nat.testBit 0xFF (i - 8) = false := Nat.testBit_lt_two_pow (by
      calc 0xFF < 2 ^ 8 := by decide
        _ ≤ 2 ^ (i - 8) := Nat.pow_le_pow_right Nat.two_pos (by omega))
    simp only [stbiBitreverse16, Nat.testBit_or, Nat.testBit_shiftRight, Nat.testBit_shiftLeft,
      Nat.testBit_and, hhigh, hlow, not_lt.mpr hi]
    simp

/-- A word the other way round. -/
lemma stbiBitReverse_eq {s : Nat} (hs : s ≤ 16) (v : Nat) : stbiBitReverse v s = lead s v := by
  have hsplit := lead_add s (16 - s) v
  rw [Nat.add_sub_cancel' hs] at hsplit
  rw [stbiBitReverse, stbiBitreverse16_eq, Nat.shiftRight_eq_div_pow, hsplit]

lemma read_countSizes {lens : List Nat} (hle : ∀ l ∈ lens, l ≤ 15) (s : Nat) :
    read (countSizes lens) s = used lens s := by
  have hfold : ∀ (lens : List Nat) (sizes : Vector Nat 17), (∀ l ∈ lens, l ≤ 15) →
      read (lens.foldl (fun sizes s => write sizes s (read sizes s + 1)) sizes) s =
        read sizes s + lens.count s := by
    intro lens
    induction lens with
    | nil => exact fun sizes _ => rfl
    | cons l lens ih =>
      intro sizes hle
      have hl : l < 17 := by
        have := hle l List.mem_cons_self
        omega
      rw [List.foldl_cons, ih _ fun l hl => hle l (List.mem_cons_of_mem _ hl), read_write _ hl,
        List.count_cons]
      by_cases hls : l = s
      · subst hls
        simp only [if_pos, beq_self_eq_true]
        omega
      · rw [if_neg (Ne.symm hls), if_neg (by simpa using hls), Nat.add_zero]
  rw [countSizes, read_write _ (by decide), used, hfold _ _ hle, read_zeros, Nat.zero_add]

/-- After the lengths up to `m`. -/
structure RangeInv (lens : List Nat) (m : Nat) (r : Ranges) : Prop where
  code_eq : r.code = first lens (m + 1)
  k_eq : r.k = shorter lens (m + 1)
  next_code_eq : ∀ s, 0 < s → s ≤ m → read r.next_code s = first lens s
  firstcode_eq : ∀ s, 0 < s → s ≤ m → read r.firstcode s = first lens s
  maxcode_eq : ∀ s, 0 < s → s ≤ m → read r.maxcode s = bound lens s * 2 ^ (16 - s)
  firstsymbol_eq : ∀ s, 0 < s → s ≤ m → read r.firstsymbol s = shorter lens s

variable {lens : List Nat} {m n : Nat} {r r' : Ranges} {z z' : Zhuffman} {sizes : Vector Nat 17}

/-- An array with one entry more. -/
lemma write_agrees {k a : Nat} {v : Vector Nat k} {g : Nat → Nat} (hm : m + 1 < k)
    (h : ∀ s, 0 < s → s ≤ m → read v s = g s) (ha : a = g (m + 1)) :
    ∀ s, 0 < s → s ≤ m + 1 → read (write v (m + 1) a) s = g s := by
  intro s hs hle
  rw [read_write v hm]
  split_ifs with heq
  · rw [ha, heq]
  · exact h s hs (by omega)

section

variable (hsizes : ∀ s, read sizes s = used lens s)

include hsizes

lemma rangeStep_ok_iff (h : RangeInv lens m r) :
    (∃ r', rangeStep sizes r (m + 1) = .ok r') ↔
      (used lens (m + 1) = 0 ∨ bound lens (m + 1) ≤ 2 ^ (m + 1)) := by
  simp only [rangeStep, h.code_eq, hsizes, Nat.one_shiftLeft]
  split_ifs with hover
  · simp only [exists_false, false_iff]
    rw [bound]
    omega
  · simp only [Except.ok.injEq, exists_eq', true_iff]
    rw [bound]
    omega

lemma rangeInv_rangeStep (hm : m < 15) (h : RangeInv lens m r)
    (hstep : rangeStep sizes r (m + 1) = .ok r') : RangeInv lens (m + 1) r' := by
  simp only [rangeStep, hsizes] at hstep
  split_ifs at hstep
  cases hstep
  refine ⟨?_, ?_, write_agrees (by omega) h.next_code_eq h.code_eq,
    write_agrees (by omega) h.firstcode_eq h.code_eq, write_agrees (by omega) h.maxcode_eq ?_,
    write_agrees (by omega) h.firstsymbol_eq h.k_eq⟩
  · rw [h.code_eq, Nat.shiftLeft_eq, pow_one, Nat.mul_comm]
    rfl
  · rw [h.k_eq]
    rfl
  · rw [h.code_eq, Nat.shiftLeft_eq]
    rfl

/-- The loop over the lengths ends well if there is room for the words of each. -/
lemma foldlM_rangeStep_ok (n : Nat) (hmn : m + n ≤ 15) (h : RangeInv lens m r)
    (hfits : Fits lens (m + n)) :
    ∃ r', (List.range' (m + 1) n).foldlM (rangeStep sizes) r = .ok r' := by
  induction n generalizing m r with
  | zero => exact ⟨r, rfl⟩
  | succ n ih =>
    obtain ⟨r', hstep⟩ := (rangeStep_ok_iff hsizes h).mpr (.inr (hfits (m + 1) (by omega)))
    rw [List.range'_succ, List.foldlM_cons, hstep]
    exact ih (by omega) (rangeInv_rangeStep hsizes (by omega) h hstep)
      (by rwa [Nat.add_right_comm])

lemma rangeInv_foldlM (n : Nat) (hmn : m + n ≤ 15) (h : RangeInv lens m r) (hfits : Fits lens m)
    (hok : (List.range' (m + 1) n).foldlM (rangeStep sizes) r = .ok r') :
    Fits lens (m + n) ∧ RangeInv lens (m + n) r' := by
  induction n generalizing m r with
  | zero =>
    cases hok
    exact ⟨hfits, h⟩
  | succ n ih =>
    rw [List.range'_succ, List.foldlM_cons] at hok
    cases hstep : rangeStep sizes r (m + 1) with
    | error failure =>
      rw [hstep] at hok
      cases hok
    | ok r'' =>
      rw [hstep] at hok
      have hnext : Fits lens (m + 1) := by
        intro s hs
        rcases Nat.lt_or_eq_of_le hs with hlt | rfl
        · exact hfits s (by omega)
        · -- a length without words has room if the one before has
          rcases (rangeStep_ok_iff hsizes h).mp ⟨r'', hstep⟩ with hnone | hroom
          · rw [bound, hnone, pow_succ']
            exact Nat.mul_le_mul_left 2 (hfits m le_rfl)
          · exact hroom
      rw [← Nat.add_assoc, Nat.add_right_comm]
      exact ih (by omega) (rangeInv_rangeStep hsizes (by omega) h hstep) hnext hok

end

/-! ### Symbols -/

lemma read_fillFast (fastv s : Nat) (fast : Vector Nat 512) (j k : Nat) :
    read (fillFast fastv s fast j) k =
      if j ≤ k ∧ k < 512 ∧ (k - j) % 2 ^ s = 0 then fastv else read fast k := by
  induction fast, j using fillFast.induct fastv s with
  | case1 fast j hj ih =>
    have hpow := Nat.two_pow_pos s
    rw [fillFast, if_pos hj, ih, read_write _ hj]
    by_cases hkj : k = j
    · subst hkj
      rw [if_neg (by omega), if_pos rfl, if_pos ⟨le_rfl, hj, by rw [Nat.sub_self, Nat.zero_mod]⟩]
    · rw [if_neg hkj]
      refine if_congr ?_ rfl rfl
      constructor
      · rintro ⟨hle, hlt, hmod⟩
        refine ⟨by omega, hlt, ?_⟩
        rw [show k - j = k - (j + 2 ^ s) + 2 ^ s by omega, Nat.add_mod_right, hmod]
      · rintro ⟨hle, hlt, hmod⟩
        have hfar : 2 ^ s ≤ k - j := Nat.le_of_dvd (by omega) (Nat.dvd_of_mod_eq_zero hmod)
        refine ⟨by omega, hlt, ?_⟩
        rwa [show k - j = k - (j + 2 ^ s) + 2 ^ s by omega, Nat.add_mod_right] at hmod
  | case2 fast j hj =>
    rw [fillFast, if_neg hj, if_neg (by omega)]

/-- The cells that are filled are those whose bits begin with the word. -/
lemma read_fillFast_word {w s k : Nat} (hs : s ≤ 16) (hw : w < 2 ^ s) (fastv : Nat)
    (fast : Vector Nat 512) (hk : k < 512) :
    read (fillFast fastv s fast (stbiBitReverse w s)) k =
      if lead s k = w then fastv else read fast k := by
  have hlt := lead_lt s w
  rw [read_fillFast, stbiBitReverse_eq hs]
  refine if_congr ?_ rfl rfl
  rw [← mod_eq_lead_iff hw]
  constructor
  · rintro ⟨hle, -, hmod⟩
    rw [← Nat.sub_add_cancel hle, Nat.add_mod, hmod, Nat.zero_add, Nat.mod_mod,
      Nat.mod_eq_of_lt hlt]
  · intro h
    have hle := Nat.mod_le k (2 ^ s)
    refine ⟨by omega, hk, ?_⟩
    rw [← h]
    exact Nat.mod_eq_zero_of_dvd (Nat.dvd_sub_mod k)

/-- What the decoder relies on. -/
structure TableFor (lens : List Nat) (z : Zhuffman) : Prop where
  fits : Fits lens 15
  len_le : ∀ i, len lens i ≤ 15
  length_le : lens.length ≤ 288
  fast_word : ∀ i, ∀ j < 512, Starts lens i j → len lens i ≤ 9 →
    read z.fast j = len lens i <<< 9 ||| i
  fast_none : ∀ j < 512, (∀ i, len lens i ≤ 9 → ¬ Starts lens i j) → read z.fast j = 0
  firstcode_eq : ∀ s, 0 < s → s ≤ 15 → read z.firstcode s = first lens s
  maxcode_eq : ∀ s, 0 < s → s ≤ 15 → read z.maxcode s = bound lens s * 2 ^ (16 - s)
  firstsymbol_eq : ∀ s, 0 < s → s ≤ 15 → read z.firstsymbol s = shorter lens s
  value_place : ∀ i, 0 < len lens i → read z.value (place lens i) = i
  size_place : ∀ i, 0 < len lens i → read z.size (place lens i) = len lens i

/-- When the symbols before `i` have been entered. -/
structure FillInv (lens : List Nat) (i : Nat) (f : Filling) : Prop where
  next_code_eq : ∀ s, 0 < s → s ≤ 15 → read f.next_code s = first lens s + (lens.take i).count s
  firstcode_eq : ∀ s, 0 < s → s ≤ 15 → read f.z.firstcode s = first lens s
  maxcode_eq : ∀ s, 0 < s → s ≤ 15 → read f.z.maxcode s = bound lens s * 2 ^ (16 - s)
  firstsymbol_eq : ∀ s, 0 < s → s ≤ 15 → read f.z.firstsymbol s = shorter lens s
  value_place : ∀ k < i, 0 < len lens k → read f.z.value (place lens k) = k
  size_place : ∀ k < i, 0 < len lens k → read f.z.size (place lens k) = len lens k
  fast_word : ∀ k < i, ∀ j < 512, Starts lens k j → len lens k ≤ 9 →
    read f.z.fast j = len lens k <<< 9 ||| k
  fast_none : ∀ j < 512, (∀ k < i, len lens k ≤ 9 → ¬ Starts lens k j) → read f.z.fast j = 0

variable {f : Filling} {i : Nat}

lemma read_enterFast {j : Nat} (hpos : 0 < len lens i) (hroom : word lens i < 2 ^ len lens i)
    (fast : Vector Nat 512) (fastv : Nat) (hj : j < 512) :
    read (enterFast fast fastv (len lens i) (word lens i)) j =
      if len lens i ≤ 9 ∧ Starts lens i j then fastv else read fast j := by
  rw [enterFast]
  by_cases h9 : len lens i ≤ 9
  · rw [if_pos h9, read_fillFast_word (by omega) hroom _ _ hj]
    exact if_congr ⟨fun h => ⟨h9, hpos, h⟩, fun h => h.2.2⟩ rfl rfl
  · rw [if_neg h9, if_neg fun h => h9 h.1]

/-- A symbol without a word is passed over. -/
lemma fillInv_succ_of_len_eq_zero (hi : i < lens.length) (hzero : len lens i = 0)
    (h : FillInv lens i f) : FillInv lens (i + 1) f := by
  have hbefore : ∀ k < i + 1, 0 < len lens k → k < i := by
    intro k hk hpos
    refine Nat.lt_of_le_of_ne (by omega) ?_
    rintro rfl
    exact hpos.ne' hzero
  refine ⟨?_, h.firstcode_eq, h.maxcode_eq, h.firstsymbol_eq, ?_, ?_, ?_, ?_⟩
  · intro s hs hs15
    rw [count_take_succ hi, hzero, if_neg hs.ne, Nat.add_zero]
    exact h.next_code_eq s hs hs15
  · exact fun k hk hpos => h.value_place k (hbefore k hk hpos) hpos
  · exact fun k hk hpos => h.size_place k (hbefore k hk hpos) hpos
  · exact fun k hk j hj hstarts => h.fast_word k (hbefore k hk hstarts.1) j hj hstarts
  · exact fun j hj hall => h.fast_none j hj fun k hk => hall k (by omega)

/-- Only the places of the symbol itself are written. -/
lemma read_write_place {k a : Nat} (hlength : lens.length ≤ 288) (hi : 0 < len lens i)
    (hk : 0 < len lens k) (v : Vector Nat 288) :
    read (write v (place lens i) a) (place lens k) =
      if k = i then a else read v (place lens k) := by
  have hplace : place lens i < 288 :=
    ((place_lt_shorter hi (Nat.lt_succ_self _)).trans_le (shorter_le_length _)).trans_le hlength
  rw [read_write v hplace]
  exact if_congr ⟨eq_of_place_eq hk hi, fun h => by rw [h]⟩ rfl rfl

lemma fillInv_symbolStep (hle : ∀ i, len lens i ≤ 15) (hlength : lens.length ≤ 288)
    (hfits : Fits lens 15) (hi : i < lens.length) (h : FillInv lens i f) :
    FillInv lens (i + 1) (symbolStep f i (len lens i)) := by
  rw [symbolStep]
  rcases Nat.eq_zero_or_pos (len lens i) with hzero | hpos
  · rw [if_pos hzero]
    exact fillInv_succ_of_len_eq_zero hi hzero h
  rw [if_neg hpos.ne']
  have hbefore : ∀ k, k < i + 1 → k ≠ i → k < i := by omega
  have hword : read f.next_code (len lens i) = word lens i := h.next_code_eq _ hpos (hle i)
  have hplace : word lens i - read f.z.firstcode (len lens i) +
      read f.z.firstsymbol (len lens i) = place lens i := by
    rw [h.firstcode_eq _ hpos (hle i), h.firstsymbol_eq _ hpos (hle i), word, place]
    omega
  have hroom : word lens i < 2 ^ len lens i := (word_lt_bound hpos).trans_le (hfits _ (hle i))
  have hs16 : len lens i < 16 := Nat.lt_succ_of_le (hle i)
  simp only [hword, hplace]
  refine ⟨?_, h.firstcode_eq, h.maxcode_eq, h.firstsymbol_eq, ?_, ?_, ?_, ?_⟩
  · intro s hs hs15
    refine (read_write _ hs16).trans ?_
    rw [count_take_succ hi]
    by_cases heq : s = len lens i
    · rw [if_pos heq, if_pos heq.symm, ← hword, heq, h.next_code_eq _ hpos (hle i), Nat.add_assoc]
    · rw [if_neg heq, if_neg (Ne.symm heq), Nat.add_zero]
      exact h.next_code_eq s hs hs15
  · intro k hk hkpos
    refine (read_write_place hlength hpos hkpos _).trans ?_
    split_ifs with hki
    · exact hki.symm
    · exact h.value_place k (hbefore k hk hki) hkpos
  · intro k hk hkpos
    refine (read_write_place hlength hpos hkpos _).trans ?_
    split_ifs with hki
    · rw [hki]
    · exact h.size_place k (hbefore k hk hki) hkpos
  · intro k hk j hj hstarts h9
    refine (read_enterFast hpos hroom _ _ hj).trans ?_
    by_cases hki : k = i
    · subst hki
      exact if_pos ⟨h9, hstarts⟩
    · rw [if_neg fun hand => hki (eq_of_starts hstarts hand.2)]
      exact h.fast_word k (hbefore k hk hki) j hj hstarts h9
  · intro j hj hall
    refine (read_enterFast hpos hroom _ _ hj).trans ?_
    rw [if_neg fun hand => hall i (Nat.lt_succ_self i) hand.1 hand.2]
    exact h.fast_none j hj fun k hk => hall k (by omega)

lemma fillInv_enterSymbols (hle : ∀ i, len lens i ≤ 15) (hlength : lens.length ≤ 288)
    (hfits : Fits lens 15) (h : FillInv lens i f) (hi : i ≤ lens.length) :
    FillInv lens lens.length (enterSymbols f i (lens.drop i)) := by
  induction hn : lens.length - i generalizing i f with
  | zero =>
    obtain rfl : i = lens.length := by omega
    rw [List.drop_length]
    exact h
  | succ n ih =>
    have hlt : i < lens.length := by omega
    rw [List.drop_eq_getElem_cons hlt, enterSymbols, ← len_eq_getElem hlt]
    exact ih (fillInv_symbolStep hle hlength hfits hlt h) hlt (by omega)

/-! ### Building -/

lemma rangeInv_zero (lens : List Nat) (next_code firstcode firstsymbol : Vector Nat 16)
    (maxcode : Vector Nat 17) :
    RangeInv lens 0 ⟨0, 0, next_code, firstcode, maxcode, firstsymbol⟩ := by
  refine ⟨rfl, rfl, ?_, ?_, ?_, ?_⟩
  all_goals
    intro s hs hle
    omega

lemma fits_zero (lens : List Nat) : Fits lens 0 := by
  intro s hs
  rw [Nat.le_zero.mp hs]
  exact Nat.zero_le _

lemma len_le_of_forall (h : ∀ l ∈ lens, l ≤ 15) (i : Nat) : len lens i ≤ 15 := by
  rcases Nat.eq_zero_or_pos (len lens i) with hzero | hpos
  · rw [hzero]
    exact Nat.zero_le 15
  · rw [len_eq_getElem (lt_length_of_len_pos hpos)]
    exact h _ (List.getElem_mem _)

lemma fillInv_zero (h : RangeInv lens 15 r) (z : Zhuffman) :
    FillInv lens 0 ⟨r.next_code, { z with
      fast := Vector.replicate 512 0
      firstcode := r.firstcode
      maxcode := write r.maxcode 16 0x10000
      firstsymbol := r.firstsymbol }⟩ := by
  refine ⟨?_, h.firstcode_eq, ?_, h.firstsymbol_eq, ?_, ?_, ?_, fun j _ _ => read_zeros 512 j⟩
  · intro s hs hs15
    rw [List.take_zero, List.count_nil, Nat.add_zero]
    exact h.next_code_eq s hs hs15
  · intro s hs hs15
    refine (read_write _ (by decide)).trans ?_
    rw [if_neg (by omega)]
    exact h.maxcode_eq s hs hs15
  · exact fun k hk => absurd hk (Nat.not_lt_zero k)
  · exact fun k hk => absurd hk (Nat.not_lt_zero k)
  · exact fun k hk => absurd hk (Nat.not_lt_zero k)

/-- Tables that are built are for lengths there is room for. -/
lemma ranges_of_build (hle : ∀ l ∈ lens, l ≤ 15) (h : stbiZbuildHuffman z lens = .ok z') :
    Fits lens 15 ∧ ∃ r, RangeInv lens 15 r ∧
      z' = (enterSymbols ⟨r.next_code, { z with
        fast := Vector.replicate 512 0
        firstcode := r.firstcode
        maxcode := write r.maxcode 16 0x10000
        firstsymbol := r.firstsymbol }⟩ 0 lens).z := by
  simp only [stbiZbuildHuffman] at h
  split_ifs at h
  cases hranges : (List.range' 1 15).foldlM (rangeStep (countSizes lens))
      ⟨0, 0, Vector.replicate 16 0, z.firstcode, z.maxcode, z.firstsymbol⟩ with
  | error failure =>
    rw [hranges] at h
    cases h
  | ok r =>
    rw [hranges] at h
    cases h
    obtain ⟨hfits, hr⟩ := rangeInv_foldlM (read_countSizes hle) 15 le_rfl
      (rangeInv_zero lens _ _ _ _) (fits_zero lens) hranges
    exact ⟨hfits, r, hr, rfl⟩

/-- Tables that are built decode the code, whatever they held before. -/
lemma tableFor_of_build (hle : ∀ l ∈ lens, l ≤ 15) (hlength : lens.length ≤ 288)
    (h : stbiZbuildHuffman z lens = .ok z') : TableFor lens z' := by
  have hlen := len_le_of_forall hle
  obtain ⟨hfits, r, hr, rfl⟩ := ranges_of_build hle h
  have hfill := fillInv_enterSymbols hlen hlength hfits (fillInv_zero hr z) (Nat.zero_le _)
  rw [List.drop_zero] at hfill
  have hall : ∀ i, 0 < len lens i → i < lens.length := fun i hi => lt_length_of_len_pos hi
  refine ⟨hfits, hlen, hlength, ?_, ?_, hfill.firstcode_eq, hfill.maxcode_eq,
    hfill.firstsymbol_eq, ?_, ?_⟩
  · exact fun i j hj hi => hfill.fast_word i (hall i hi.1) j hj hi
  · exact fun j hj hnone => hfill.fast_none j hj fun k _ => hnone k
  · exact fun i hi => hfill.value_place i (hall i hi) hi
  · exact fun i hi => hfill.size_place i (hall i hi) hi

lemma build_ok (z : Zhuffman) (hle : ∀ l ∈ lens, l ≤ 15) (hfits : Fits lens 15) :
    ∃ z', stbiZbuildHuffman z lens = .ok z' := by
  have hsizes :
      ¬ (List.range' 1 15).any (fun i => read (countSizes lens) i > 1 <<< i) = true := by
    rw [List.any_eq_true]
    rintro ⟨s, hs, hover⟩
    have hs15 := (List.mem_range'_1.mp hs).2
    have hused : used lens s ≤ bound lens s := Nat.le_add_left _ _
    have hroom := hfits s (by omega)
    rw [decide_eq_true_eq, Nat.one_shiftLeft, read_countSizes hle] at hover
    omega
  obtain ⟨r, hr⟩ := foldlM_rangeStep_ok (read_countSizes hle) 15 le_rfl
    (rangeInv_zero lens (Vector.replicate 16 0) z.firstcode z.firstsymbol z.maxcode)
    (by rwa [Nat.zero_add])
  simp only [stbiZbuildHuffman]
  rw [if_neg hsizes]
  exact ⟨_, by rw [hr]; rfl⟩

/-- Exactly the lengths for which there is a code are accepted: their words must not take up more
than all numbers of 15 bits. -/
theorem stbiZbuildHuffman_ok_iff (z : Zhuffman) (lens : List Nat) (hle : ∀ l ∈ lens, l ≤ 15) :
    (∃ z', stbiZbuildHuffman z lens = .ok z') ↔ kraft lens 15 ≤ 2 ^ 15 := by
  rw [← fits_iff_kraft]
  constructor
  · rintro ⟨z', h⟩
    exact (ranges_of_build hle h).1
  · exact build_ok z hle

theorem stbiZbuildHuffman_ok_iff_three :
    (∃ z', stbiZbuildHuffman Zhuffman.zero [1, 2, 2] = .ok z') ↔ kraft [1, 2, 2] 15 ≤ 2 ^ 15 :=
  stbiZbuildHuffman_ok_iff _ _ (by decide)

end GifTools
