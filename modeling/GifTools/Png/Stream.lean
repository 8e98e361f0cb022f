import GifTools.Png.Inflate

/-!
# What the decompressor reads

The bits in the buffer and those of the bytes that are left are one stream, which goes on with
zeros. Numbers and symbols are read off it, and `Reads` says how far one has come.
-/

namespace GifTools

open Bits Canonical Cells Lz77

variable {a b c : Zbuf} {m n : Nat}

/-- The bits that have not been used. -/
def Zbuf.stream (a : Zbuf) : Nat := a.code_buffer + 2 ^ a.num_bits * bitsNat (byteBits a.zbuffer)

/-- No other bits are in the buffer, and there is room for them. -/
structure Zbuf.Good (a : Zbuf) : Prop where
  code_buffer_lt : a.code_buffer < 2 ^ a.num_bits
  num_bits_le : a.num_bits ≤ 32

/-- `n` bits of the input are left. There are more in the buffer if zeros from behind the end are in
it. -/
def Zbuf.Holds (a : Zbuf) (n : Nat) : Prop :=
  ∃ k, a.num_bits + 8 * a.zbuffer.length = n + 8 * k ∧ (k ≠ 0 → a.zbuffer = [])

/-- `n` bits have been used, if there were as many. -/
def Uses (n : Nat) (a b : Zbuf) : Prop := ∀ r, a.Holds (n + r) → b.Holds r

lemma Uses.trans (hab : Uses m a b) (hbc : Uses n b c) : Uses (m + n) a c := by
  intro r hr
  rw [Nat.add_assoc] at hr
  exact hbc r (hab _ hr)

/-- `b` is `a` after `n` bits. -/
structure Reads (n : Nat) (a b : Zbuf) : Prop where
  good : b.Good
  stream_eq : b.stream = a.stream / 2 ^ n
  uses : Uses n a b
  zout_eq : b.zout = a.zout
  zout_end_eq : b.zout_end = a.zout_end
  z_length_eq : b.z_length = a.z_length
  z_distance_eq : b.z_distance = a.z_distance

lemma reads_refl (h : a.Good) : Reads 0 a a :=
  ⟨h, (Nat.div_one _).symm, fun r hr => Nat.zero_add r ▸ hr, rfl, rfl, rfl, rfl⟩

lemma Reads.trans (hab : Reads m a b) (hbc : Reads n b c) : Reads (m + n) a c := by
  refine ⟨hbc.good, ?_, hab.uses.trans hbc.uses, hbc.zout_eq.trans hab.zout_eq,
    hbc.zout_end_eq.trans hab.zout_end_eq, hbc.z_length_eq.trans hab.z_length_eq,
    hbc.z_distance_eq.trans hab.z_distance_eq⟩
  rw [hbc.stream_eq, hab.stream_eq, Nat.div_div_eq_div_mul, pow_add]

/-! ### Bits -/

lemma bitsNat_byteBits (bytes : List UInt8) : bitsNat (byteBits bytes) =
    (bytes.headD 0).toNat + 2 ^ 8 * bitsNat (byteBits bytes.tail) := by
  cases bytes with
  | nil => rfl
  | cons b bytes =>
    rw [byteBits_cons, bitsNat_append, length_natBits, bitsNat_natBits b.toNat_lt]
    rfl

lemma uses_fillByte (a : Zbuf) : Uses 0 a (fillByte a) := by
  rintro r ⟨k, hleft, hend⟩
  rw [Nat.zero_add] at hleft
  simp only [Zbuf.Holds, fillByte, stbiZget8_eq]
  cases hz : a.zbuffer with
  | nil =>
    rw [hz] at hleft
    exact ⟨k + 1, by rw [List.tail_nil]; omega, fun _ => rfl⟩
  | cons b zbuffer =>
    rw [hz, List.length_cons] at hleft
    refine ⟨k, by rw [List.tail_cons]; omega, fun hk => ?_⟩
    rw [hend hk] at hz
    exact absurd hz (List.cons_ne_nil _ _).symm

lemma reads_fillByte (h : a.Good) (hroom : a.num_bits ≤ 24) : Reads 0 a (fillByte a) := by
  have hbyte := (a.zbuffer.headD 0).toNat_lt
  have hcode_buffer : (fillByte a).code_buffer =
      a.code_buffer + 2 ^ a.num_bits * (a.zbuffer.headD 0).toNat := by
    simp only [fillByte, stbiZget8_eq]
    rw [Nat.or_comm, Nat.shiftLeft_eq, Nat.mul_comm,
      ← Nat.two_pow_add_eq_or_of_lt h.code_buffer_lt, Nat.add_comm]
  have hstream : (fillByte a).stream = a.stream := by
    rw [Zbuf.stream, Zbuf.stream, bitsNat_byteBits a.zbuffer, hcode_buffer, num_bits_fillByte,
      pow_add]
    simp only [fillByte, stbiZget8_eq]
    ring
  refine ⟨⟨?_, ?_⟩, ?_, uses_fillByte a, ?_, ?_, ?_, ?_⟩
  · calc (fillByte a).code_buffer
        < 2 ^ a.num_bits + 2 ^ a.num_bits * (a.zbuffer.headD 0).toNat := by
          rw [hcode_buffer]
          exact Nat.add_lt_add_right h.code_buffer_lt _
      _ = 2 ^ a.num_bits * ((a.zbuffer.headD 0).toNat + 1) := by ring
      _ ≤ 2 ^ a.num_bits * 2 ^ 8 := Nat.mul_le_mul_left _ hbyte
      _ = 2 ^ (fillByte a).num_bits := by rw [num_bits_fillByte, pow_add]
  · rw [num_bits_fillByte]
    omega
  · rw [hstream, pow_zero, Nat.div_one]
  all_goals simp only [fillByte, stbiZget8_eq]

lemma reads_stbiFillBits (h : a.Good) (hroom : a.num_bits ≤ 24) :
    Reads 0 a (stbiFillBits a) ∧ 24 < (stbiFillBits a).num_bits := by
  induction a using stbiFillBits.induct with
  | case1 a hmore ih =>
    rw [stbiFillBits, if_pos hmore]
    have hbyte := reads_fillByte h hroom
    obtain ⟨hreads, hfull⟩ := ih hbyte.good hmore
    exact ⟨hbyte.trans hreads, hfull⟩
  | case2 a hfull =>
    rw [stbiFillBits, if_neg hfull]
    exact ⟨reads_fillByte h hroom, by omega⟩

/-- The buffer holds the beginning of the stream. -/
lemma code_buffer_mod (h : n ≤ a.num_bits) : a.code_buffer % 2 ^ n = a.stream % 2 ^ n := by
  rw [Zbuf.stream, ← Nat.add_sub_cancel' h, pow_add, Nat.mul_assoc, Nat.add_mul_mod_self_left]

lemma reads_shift (h : a.Good) (hn : n ≤ a.num_bits) :
    Reads n a { a with code_buffer := a.code_buffer >>> n, num_bits := a.num_bits - n } := by
  have hpow : 2 ^ a.num_bits = 2 ^ n * 2 ^ (a.num_bits - n) := by
    rw [← pow_add, Nat.add_sub_cancel' hn]
  refine ⟨⟨?_, ?_⟩, ?_, ?_, rfl, rfl, rfl, rfl⟩
  · rw [Nat.shiftRight_eq_div_pow, Nat.div_lt_iff_lt_mul (Nat.two_pow_pos n), Nat.mul_comm, ← hpow]
    exact h.code_buffer_lt
  · exact (Nat.sub_le _ _).trans h.num_bits_le
  · rw [Zbuf.stream, Zbuf.stream, hpow, Nat.mul_assoc,
      Nat.add_mul_div_left _ _ (Nat.two_pow_pos n), Nat.shiftRight_eq_div_pow]
  · rintro r ⟨k, hleft, hend⟩
    exact ⟨k, by simp only; omega, hend⟩

lemma reads_fill_if (h : a.Good) (hn : n ≤ 24) :
    Reads 0 a (if a.num_bits < n then stbiFillBits a else a) ∧
      n ≤ (if a.num_bits < n then stbiFillBits a else a).num_bits := by
  split_ifs with hfew
  · obtain ⟨hreads, hfull⟩ := reads_stbiFillBits h (by omega)
    exact ⟨hreads, by omega⟩
  · exact ⟨reads_refl h, by omega⟩

/-- A number. -/
lemma reads_stbiZreceive (h : a.Good) (hn : n ≤ 24) :
    (stbiZreceive a n).1 = a.stream % 2 ^ n ∧ Reads n a (stbiZreceive a n).2 := by
  obtain ⟨hfill, hroom⟩ := reads_fill_if h hn
  have hshift := hfill.trans (reads_shift hfill.good hroom)
  rw [Nat.zero_add] at hshift
  refine ⟨?_, hshift⟩
  simp only [stbiZreceive]
  rw [Nat.one_shiftLeft, Nat.and_two_pow_sub_one_eq_mod, code_buffer_mod hroom, hfill.stream_eq,
    pow_zero, Nat.div_one]

lemma reads_receiveExtra (h : a.Good) (hn : n ≤ 24) :
    (receiveExtra a n).1 = a.stream % 2 ^ n ∧ Reads n a (receiveExtra a n).2 := by
  rw [receiveExtra]
  split_ifs with hne
  · exact reads_stbiZreceive h hn
  · rw [not_not.mp hne, pow_zero, Nat.mod_one]
    exact ⟨rfl, reads_refl h⟩

/-! ### Words -/

variable {lens : List Nat} {z : Zhuffman} {k v s : Nat}

section

variable (h : TableFor lens z) (hk : k = lead 16 v)

include h hk

lemma lt_maxcode_iff (hs : 0 < s) (hs15 : s ≤ 15) :
    k < read z.maxcode s ↔ lead s v < bound lens s := by
  have hlead := lead_add s (16 - s) v
  rw [Nat.add_sub_cancel' (by omega), ← hk] at hlead
  rw [h.maxcode_eq s hs hs15, ← hlead, Nat.div_lt_iff_lt_mul (Nat.two_pow_pos _)]

/-- The first length from `s` on at which the stream is not behind all words, or the sentinel. -/
lemma slowLength_spec (hs : 0 < s) (hn : s + n = 16) :
    s ≤ slowLength z k n s ∧ slowLength z k n s ≤ 16 ∧
      (∀ t, s ≤ t → t < slowLength z k n s → bound lens t ≤ lead t v) ∧
      (slowLength z k n s ≠ 16 →
        lead (slowLength z k n s) v < bound lens (slowLength z k n s)) := by
  induction n generalizing s with
  | zero =>
    obtain rfl : s = 16 := hn
    exact ⟨le_rfl, le_rfl, fun t ht hlt => absurd hlt (not_lt.mpr ht), fun hne => absurd rfl hne⟩
  | succ n ih =>
    rw [slowLength]
    split_ifs with hlt
    · rw [lt_maxcode_iff h hk hs (by omega)] at hlt
      exact ⟨le_rfl, by omega, fun t ht hlt => absurd hlt (not_lt.mpr ht), fun _ => hlt⟩
    · rw [lt_maxcode_iff h hk hs (by omega), not_lt] at hlt
      obtain ⟨hle, h16, hbefore, hat⟩ := ih (s := s + 1) (by omega) (by omega)
      refine ⟨by omega, h16, fun t ht hts => ?_, hat⟩
      rcases Nat.eq_or_lt_of_le ht with rfl | hst
      · exact hlt
      · exact hbefore t hst hts

end

/-- What is read off the stream: a symbol, or nothing if no word is there. -/
def Decodes (lens : List Nat) (a : Zbuf) : Except StbiFailure (Option Nat × Zbuf) → Prop
  | .ok (some i, b) => Starts lens i a.stream ∧ Reads (len lens i) a b
  | .ok (none, _) => ∀ i, ¬ Starts lens i a.stream
  | .error _ => False

lemma decodes_slowpath (h : TableFor lens z) (ha : a.Good) (hbits : 16 ≤ a.num_bits)
    (hnone : ∀ i, len lens i ≤ 9 → ¬ Starts lens i a.stream) :
    Decodes lens a (stbiZhuffmanDecodeSlowpath a z) := by
  have hk : stbiBitReverse a.code_buffer 16 = lead 16 a.stream := by
    rw [stbiBitReverse_eq le_rfl, ← lead_mod le_rfl, code_buffer_mod hbits, lead_mod le_rfl]
  simp only [stbiZhuffmanDecodeSlowpath, hk]
  obtain ⟨hge, hle, hbefore, hat⟩ := slowLength_spec h rfl (n := 6) (s := 10) (by decide) rfl
  set s := slowLength z (lead 16 a.stream) 6 10
  have hleast : ∀ t, t < s → bound lens t ≤ lead t a.stream := by
    intro t hts
    rcases Nat.lt_or_ge t 10 with ht | ht
    · exact bound_le_lead_of_not_starts hnone (show t ≤ 9 by omega)
    · exact hbefore t ht hts
  by_cases h16 : s = 16
  · rw [if_pos h16]
    intro i hi
    have hlt := lead_lt_bound_of_starts hi
    have hlen := h.len_le i
    exact absurd hlt (not_lt.mpr (hleast _ (by omega)))
  · obtain ⟨i, hlen, hi⟩ := exists_starts_of_least (by omega) (hat h16) fun t _ => hleast t
    have hlead := lead_add s (16 - s) a.stream
    rw [Nat.add_sub_cancel' (by omega)] at hlead
    have hword : word lens i = lead s a.stream := by rw [← hi.2, hlen]
    have hplace : lead 16 a.stream >>> (16 - s) - read z.firstcode s + read z.firstsymbol s =
        place lens i := by
      rw [Nat.shiftRight_eq_div_pow, hlead, h.firstcode_eq s (by omega) (by omega),
        h.firstsymbol_eq s (by omega) (by omega), ← hword, word, place, hlen]
      omega
    rw [if_neg h16, hplace, h.value_place i hi.1, h.size_place i hi.1,
      if_neg (not_not.mpr hlen), Decodes]
    refine ⟨hi, ?_⟩
    rw [hlen]
    exact reads_shift ha (by omega)

lemma decodes_of_tableFor (h : TableFor lens z) (ha : a.Good) :
    Decodes lens a (stbiZhuffmanDecode a z) := by
  obtain ⟨hfill, hbits⟩ := reads_fill_if ha (show 16 ≤ 24 by decide)
  have hstream := hfill.stream_eq
  rw [pow_zero, Nat.div_one] at hstream
  -- what is read off the filled buffer is read off the stream
  suffices hfilled : Decodes lens (if a.num_bits < 16 then stbiFillBits a else a)
      (stbiZhuffmanDecode a z) by
    generalize stbiZhuffmanDecode a z = result at hfilled ⊢
    rcases result with failure | ⟨_ | i, b⟩
    · exact hfilled
    · rw [Decodes, hstream] at hfilled
      exact hfilled
    · rw [Decodes, hstream] at hfilled
      have htrans := hfill.trans hfilled.2
      rw [Nat.zero_add] at htrans
      exact ⟨hfilled.1, htrans⟩
  simp only [stbiZhuffmanDecode]
  generalize (if a.num_bits < 16 then stbiFillBits a else a) = b at hfill hbits
  have hindex : b.code_buffer &&& 511 = b.stream % 2 ^ 9 := by
    rw [show (511 : Nat) = 2 ^ 9 - 1 by rfl, Nat.and_two_pow_sub_one_eq_mod,
      code_buffer_mod (by omega)]
  have hlow : b.stream % 2 ^ 9 < 512 := Nat.mod_lt _ (by decide)
  have hstarts : ∀ i, len lens i ≤ 9 →
      (Starts lens i (b.stream % 2 ^ 9) ↔ Starts lens i b.stream) := by
    intro i hi
    rw [Starts, Starts, lead_mod hi]
  rw [hindex]
  by_cases hfast : ∃ i, len lens i ≤ 9 ∧ Starts lens i b.stream
  · obtain ⟨i, h9, hi⟩ := hfast
    have hi512 : i < 2 ^ 9 := by
      have := lt_length_of_len_pos hi.1
      have := h.length_le
      omega
    have hentry : read z.fast (b.stream % 2 ^ 9) = 2 ^ 9 * len lens i + i := by
      rw [h.fast_word i _ hlow ((hstarts i h9).mpr hi) h9, Nat.shiftLeft_eq, Nat.mul_comm,
        Nat.two_pow_add_eq_or_of_lt hi512]
    have hne : 2 ^ 9 * len lens i + i ≠ 0 := by
      have := hi.1
      omega
    have hlen : (2 ^ 9 * len lens i + i) >>> 9 = len lens i := by
      rw [Nat.shiftRight_eq_div_pow]
      omega
    have hsymbol : (2 ^ 9 * len lens i + i) &&& 511 = i := by
      rw [show (511 : Nat) = 2 ^ 9 - 1 by rfl, Nat.and_two_pow_sub_one_eq_mod]
      omega
    rw [hentry, if_pos hne, hlen, hsymbol, Decodes]
    exact ⟨hi, reads_shift hfill.good (by omega)⟩
  · have hnone : ∀ i, len lens i ≤ 9 → ¬ Starts lens i b.stream := fun i h9 hi => hfast ⟨i, h9, hi⟩
    have hentry : read z.fast (b.stream % 2 ^ 9) = 0 :=
      h.fast_none _ hlow fun i h9 hi => hnone i h9 ((hstarts i h9).mp hi)
    rw [hentry, if_neg (by decide)]
    exact decodes_slowpath h hfill.good hbits hnone

/-- Tables that are built for the lengths of a code decode it: the result is the symbol whose word
the stream begins with, which is used up, and none if there is no such word. -/
theorem stbiZhuffmanDecode_of_stbiZbuildHuffman (z z' : Zhuffman) (lens : List Nat) (a : Zbuf)
    (hle : ∀ l ∈ lens, l ≤ 15) (hlength : lens.length ≤ 288)
    (hbuild : stbiZbuildHuffman z lens = .ok z') (ha : a.Good) :
    Decodes lens a (stbiZhuffmanDecode a z') :=
  decodes_of_tableFor (tableFor_of_build hle hlength hbuild) ha

theorem stbiZhuffmanDecode_of_stbiZbuildHuffman_three :
    ∃ z', stbiZbuildHuffman Zhuffman.zero [1, 2, 2] = .ok z' ∧
      Decodes [1, 2, 2] ⟨[3], 0, 0, [], 0, z', z'⟩
        (stbiZhuffmanDecode ⟨[3], 0, 0, [], 0, z', z'⟩ z') := by
  have hle : ∀ l ∈ [1, 2, 2], l ≤ 15 := by decide
  have hfits : Fits [1, 2, 2] 15 := by
    rw [fits_iff_kraft]
    decide
  obtain ⟨z', hz'⟩ := build_ok Zhuffman.zero hle hfits
  exact ⟨z', hz', stbiZhuffmanDecode_of_stbiZbuildHuffman _ _ _ _ hle (by decide) hz'
    ⟨Nat.one_pos, Nat.zero_le _⟩⟩

end GifTools
