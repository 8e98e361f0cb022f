import GifTools.Png.Zlib

/-!
# What the compressor writes

Every round of the loop writes one token, and the tokens written so far stand for the bytes that
have been passed. A match is a copy because its bytes were compared; that the hash found it does not
matter. The whole is a stream in the zlib format.
-/

namespace GifTools

open Bits Radix Canonical Deflate Lz77

/-! ### Bits -/

/-- The bits that have been written; the last of them are still in `bitbuf`. -/
structure Wrote (z : ZlibOut) (bits : List Bool) : Prop where
  bits_eq : byteBits z.out ++ natBits z.bitcount z.bitbuf = bits
  bitbuf_lt : z.bitbuf < 2 ^ z.bitcount
  bitcount_lt : z.bitcount < 8

variable {z : ZlibOut} {bits : List Bool} {data : List UInt8} {i loc quality : Nat}

lemma wrote_stbiwZlibFlushf (hlt : z.bitbuf < 2 ^ z.bitcount)
    (h : byteBits z.out ++ natBits z.bitcount z.bitbuf = bits) :
    Wrote (stbiwZlibFlushf z) bits := by
  induction z using stbiwZlibFlushf.induct with
  | case1 z hge ih =>
    obtain ⟨n, hn⟩ : ∃ n, z.bitcount = 8 + n := ⟨z.bitcount - 8, by omega⟩
    have hcount : z.bitcount - 8 = n := by omega
    have hbyte : natBits 8 (UInt8.ofNat z.bitbuf).toNat = natBits 8 z.bitbuf := by
      rw [UInt8.toNat_ofNat', natBits_mod]
    rw [stbiwZlibFlushf, if_pos hge]
    apply ih
    · rw [Nat.shiftRight_eq_div_pow]
      refine Nat.div_lt_of_lt_mul ?_
      rwa [hcount, ← pow_add, ← hn]
    · rw [hcount, byteBits_append, byteBits_singleton, hbyte, List.append_assoc,
        Nat.shiftRight_eq_div_pow, ← natBits_add, ← hn]
      exact h
  | case2 z hlt8 =>
    rw [stbiwZlibFlushf, if_neg hlt8]
    exact ⟨h, hlt, not_le.mp hlt8⟩

lemma wrote_stbiwZlibAdd (h : Wrote z bits) {code codebits : Nat} (hcode : code < 2 ^ codebits) :
    Wrote (stbiwZlibAdd z code codebits) (bits ++ natBits codebits code) := by
  refine wrote_stbiwZlibFlushf ?_ ?_
  · rw [Nat.shiftLeft_eq]
    refine Nat.or_lt_two_pow (h.bitbuf_lt.trans_le ?_) ?_
    · exact Nat.pow_le_pow_right Nat.two_pos (Nat.le_add_right _ _)
    · rw [Nat.pow_add, Nat.mul_comm]
      exact Nat.mul_lt_mul_of_pos_left hcode (Nat.two_pow_pos _)
  · rw [natBits_or_shiftLeft h.bitbuf_lt, ← List.append_assoc, h.bits_eq]

lemma stbiwZlibBitrevFrom_eq (res code codebits : Nat) :
    stbiwZlibBitrevFrom res code codebits =
      res * 2 ^ codebits + value (natBits codebits code) := by
  induction codebits generalizing res code with
  | zero => rw [stbiwZlibBitrevFrom, pow_zero, Nat.mul_one]; rfl
  | succ codebits ih =>
    have hbit : code % 2 < 2 ^ 1 := Nat.mod_lt code Nat.two_pos
    have hres : res <<< 1 ||| code &&& 1 = 2 ^ 1 * res + code % 2 := by
      rw [Nat.and_one_is_mod, Nat.shiftLeft_eq, Nat.mul_comm, ← Nat.two_pow_add_eq_or_of_lt hbit]
    have hlow : value (natBits 1 code) = code % 2 := by
      change (decide (code % 2 = 1)).toNat + 2 * 0 = _
      rw [toNat_decide_mod_two, Nat.mul_zero, Nat.add_zero]
    rw [stbiwZlibBitrevFrom, ih, hres, Nat.shiftRight_eq_div_pow, Nat.add_comm codebits 1,
      natBits_add, value_append, hlow, length_natBits]
    ring

/-- The reversed code has the bits of the code, the most significant first. -/
lemma natBits_stbiwZlibBitrev (code codebits : Nat) :
    natBits codebits (stbiwZlibBitrev code codebits) = field codebits code := by
  have hvalue : stbiwZlibBitrev code codebits = value (natBits codebits code) := by
    rw [stbiwZlibBitrev, stbiwZlibBitrevFrom_eq, Nat.zero_mul, Nat.zero_add]
  have hfield := field_value (natBits codebits code)
  rw [length_natBits, ← hvalue, field] at hfield
  rw [field, ← hfield, List.reverse_reverse]

lemma stbiwZlibBitrev_lt (code codebits : Nat) : stbiwZlibBitrev code codebits < 2 ^ codebits := by
  have hlt := bitsNat_lt (natBits codebits code).reverse
  rw [List.length_reverse, length_natBits] at hlt
  rw [stbiwZlibBitrev, stbiwZlibBitrevFrom_eq, Nat.zero_mul, Nat.zero_add]
  exact hlt

lemma wrote_stbiwZlibHuffa (h : Wrote z bits) (b c : Nat) :
    Wrote (stbiwZlibHuffa z b c) (bits ++ field c b) := by
  rw [← natBits_stbiwZlibBitrev]
  exact wrote_stbiwZlibAdd h (stbiwZlibBitrev_lt b c)

/-! ### Words of the fixed codes -/

lemma wordBits_eq {lens : List Nat} {n s r b : Nat} (h : len lens n = s ∧ rank lens n = r)
    (hb : first lens s + r = b) : wordBits lens n = field s b := by
  rw [wordBits, word, h.1, h.2, hb]

lemma wrote_stbiwZlibHuff (h : Wrote z bits) {n : Nat} (hn : n < 288) :
    Wrote (stbiwZlibHuff z n) (bits ++ wordBits fixedLit n) := by
  have hfirst : first fixedLit 7 = 0 ∧ first fixedLit 8 = 0x30 ∧ first fixedLit 9 = 0x190 := by
    decide +kernel
  rw [stbiwZlibHuff]
  split_ifs
  · rw [wordBits_eq (b := 0x30 + n) (fixedLit_first (by omega)) (by rw [hfirst.2.1])]
    exact wrote_stbiwZlibHuffa h _ 8
  · rw [wordBits_eq (b := 0x190 + n - 144) (fixedLit_second (by omega) (by omega)) (by omega)]
    exact wrote_stbiwZlibHuffa h _ 9
  · rw [wordBits_eq (b := 0 + n - 256) (fixedLit_third (by omega) (by omega)) (by omega)]
    exact wrote_stbiwZlibHuffa h _ 7
  · rw [wordBits_eq (b := 0xc0 + n - 280) (fixedLit_fourth (by omega) hn) (by omega)]
    exact wrote_stbiwZlibHuffa h _ 8

/-- The short form for a byte. -/
lemma stbiwZlibHuffb_eq (z : ZlibOut) {n : Nat} (hn : n < 256) :
    stbiwZlibHuffb z n = stbiwZlibHuff z n := by
  rw [stbiwZlibHuffb, stbiwZlibHuff, if_pos (show n ≤ 255 by omega)]

lemma wrote_literal (h : Wrote z bits) (b : UInt8) :
    Wrote (stbiwZlibHuffb z b.toNat) (bits ++ (Token.literal b).bits fixedLit fixedDist) := by
  have hb := b.toNat_lt
  rw [stbiwZlibHuffb_eq z (by omega)]
  exact wrote_stbiwZlibHuff h (by omega)

/-! ### A match -/

lemma codeIndex_spec (v : Nat) (table : List Nat) (hne : table ≠ []) (hpos : ∀ c ∈ table, 0 < c)
    (hfirst : table.getD 0 0 ≤ v) (hlast : v < table.getLast hne) :
    codeIndex v table + 1 < table.length ∧ table.getD (codeIndex v table) 0 ≤ v ∧
      v < table.getD (codeIndex v table + 1) 0 := by
  induction table with
  | nil => exact absurd rfl hne
  | cons a rest ih =>
    cases rest with
    | nil => exact absurd hfirst (not_le.mpr hlast)
    | cons c rest =>
      have hc : 0 < c := hpos c (by simp)
      by_cases hv : v > c - 1
      · obtain ⟨hlt, hle, hgt⟩ := ih (List.cons_ne_nil _ _)
          (fun c hc => hpos c (List.mem_cons_of_mem _ hc)) (show c ≤ v by omega)
          (by rwa [List.getLast_cons (List.cons_ne_nil _ _)] at hlast)
        rw [codeIndex, if_pos hv]
        exact ⟨Nat.succ_lt_succ hlt, hle, hgt⟩
      · rw [codeIndex, if_neg hv]
        exact ⟨Nat.succ_lt_succ (Nat.succ_pos _), hfirst, show v < c by omega⟩

/-- A number behind a word, if the word has extra bits at all. -/
lemma wrote_extra (h : Wrote z bits) {code codebits : Nat} (hcode : code < 2 ^ codebits) :
    Wrote (if codebits ≠ 0 then stbiwZlibAdd z code codebits else z)
      (bits ++ natBits codebits code) := by
  split_ifs with hzero
  · exact wrote_stbiwZlibAdd h hcode
  · rw [not_not.mp hzero, natBits_zero, List.append_nil]
    exact h

/-- A match is a copy that copies as much from as far away. -/
lemma wrote_writeMatch (h : Wrote z bits) {best d : Nat} (hbest : 3 ≤ best) (hbest' : best ≤ 258)
    (hd : 0 < d) (hd' : d ≤ 32767) :
    ∃ l lextra k dextra, (Token.copy l lextra k dextra).Valid ∧ Token.length l lextra = best ∧
      Token.distance k dextra = d ∧
      Wrote (writeMatch z best d)
        (bits ++ (Token.copy l lextra k dextra).bits fixedLit fixedDist) := by
  have hlength := codeIndex_spec best lengthc (by decide) (by decide) hbest
    (show best < 259 by omega)
  have hdist := codeIndex_spec d distc (by decide) (by decide) hd
    (show d < 32768 by omega)
  generalize hj : codeIndex best lengthc = j at hlength
  generalize hk : codeIndex d distc = k at hdist
  have hj29 : j < 29 := Nat.lt_of_succ_lt_succ hlength.1
  have hk30 : k < 30 := Nat.lt_of_succ_lt_succ hdist.1
  have hlengthTable : ∀ j < 29, lengthc.getD j 0 = lengthBase.getD j 0 ∧
      lengtheb.getD j 0 = lengthExtra.getD j 0 ∧
      lengthc.getD (j + 1) 0 ≤ lengthc.getD j 0 + 2 ^ lengtheb.getD j 0 := by decide
  have hdistTable : ∀ k < 30, distc.getD k 0 = distBase.getD k 0 ∧
      disteb.getD k 0 = distExtra.getD k 0 ∧
      distc.getD (k + 1) 0 ≤ distc.getD k 0 + 2 ^ disteb.getD k 0 := by decide
  obtain ⟨hbase, hextra, hgap⟩ := hlengthTable j hj29
  obtain ⟨hdbase, hdextra, hdgap⟩ := hdistTable k hk30
  have hlextra : best - lengthc.getD j 0 < 2 ^ lengtheb.getD j 0 := by omega
  have hdextra' : d - distc.getD k 0 < 2 ^ disteb.getD k 0 := by omega
  have hword : first fixedDist 5 + k = k := by
    rw [show first fixedDist 5 = 0 by decide, Nat.zero_add]
  refine ⟨j, best - lengthc.getD j 0, k, d - distc.getD k 0, ?_, ?_, ?_, ?_⟩
  · exact ⟨hj29, hextra ▸ hlextra, hk30, hdextra ▸ hdextra'⟩
  · rw [Token.length]
    omega
  · rw [Token.distance]
    omega
  · have hwrote := wrote_extra (wrote_stbiwZlibHuffa (wrote_extra
      (wrote_stbiwZlibHuff h (show j + 257 < 288 by omega)) hlextra) k 5) hdextra'
    simp only [writeMatch, hj, hk, Token.bits, wordBits_eq (fixedDist_all (by omega)) hword,
      ← hextra, ← hdextra, Nat.add_comm 257 j]
    simpa only [stbiwZlibHuffa, List.append_assoc] using hwrote

/-! ### The search -/

lemma stbiwZlibCountmFrom_spec (data : List UInt8) (a b n i : Nat) :
    stbiwZlibCountmFrom data a b n i ≤ i + n ∧
      ∀ k, i ≤ k → k < stbiwZlibCountmFrom data a b n i →
        byteAt data (a + k) = byteAt data (b + k) := by
  induction n generalizing i with
  | zero => exact ⟨le_rfl, fun k hk hlt => absurd hlt (not_lt.mpr hk)⟩
  | succ n ih =>
    rw [stbiwZlibCountmFrom]
    split
    case isTrue => exact ⟨by omega, fun k hk hlt => absurd hlt (not_lt.mpr hk)⟩
    case isFalse hsame =>
      obtain ⟨hle, hagree⟩ := ih (i + 1)
      refine ⟨by omega, fun k hk hlt => ?_⟩
      rcases Nat.eq_or_lt_of_le hk with rfl | hk
      · exact not_not.mp hsame
      · exact hagree k hk hlt

lemma getElem?_eq_byteAt {k : Nat} (h : k < data.length) : data[k]? = some (byteAt data k) := by
  rw [byteAt, List.getD_eq_getElem _ _ h, List.getElem?_eq_getElem h]

/-- What a match promises: it lies in the window, and it was compared. -/
structure IsMatch (data : List UInt8) (i best loc : Nat) : Prop where
  window : i < loc + 32768
  le_length : i + best ≤ data.length
  le_max : best ≤ 258
  same : ∀ k < best, byteAt data (loc + k) = byteAt data (i + k)

lemma isMatch_countm (hi : i ≤ data.length) (hwindow : i < loc + 32768) :
    IsMatch data i (stbiwZlibCountm data loc i (data.length - i)) loc := by
  obtain ⟨hle, hsame⟩ := stbiwZlibCountmFrom_spec data loc i (min (data.length - i) 258) 0
  rw [Nat.zero_add] at hle
  refine ⟨hwindow, ?_, hle.trans (Nat.min_le_right _ _), fun k hk => hsame k (Nat.zero_le k) hk⟩
  have := hle.trans (Nat.min_le_left _ _)
  rw [stbiwZlibCountm]
  omega

/-- The match found is one of the places in the list. -/
lemma bestMatch_spec (hi : i ≤ data.length) (hlist : List Nat) :
    ∀ loc, (bestMatch data i hlist).2 = some loc →
      loc ∈ hlist ∧ IsMatch data i (bestMatch data i hlist).1 loc := by
  suffices hfold : ∀ (rest : List Nat) (found : Nat × Option Nat), (∀ l ∈ rest, l ∈ hlist) →
      (∀ loc, found.2 = some loc → loc ∈ hlist ∧ IsMatch data i found.1 loc) →
      ∀ loc, (rest.foldl (searchStep data i) found).2 = some loc →
        loc ∈ hlist ∧ IsMatch data i (rest.foldl (searchStep data i) found).1 loc by
    exact hfold hlist (3, none) (fun _ h => h) fun loc h => by cases h
  intro rest
  induction rest with
  | nil => exact fun found _ h => h
  | cons l rest ih =>
    intro found hmem hfound
    refine ih _ (fun l hl => hmem l (List.mem_cons_of_mem _ hl)) ?_
    intro loc hloc
    simp only [searchStep] at hloc ⊢
    split at hloc
    case isTrue hwindow =>
      rw [if_pos hwindow]
      split at hloc
      case isTrue hle =>
        rw [if_pos hle]
        cases hloc
        exact ⟨hmem l List.mem_cons_self, isMatch_countm hi hwindow⟩
      case isFalse hgt =>
        rw [if_neg hgt]
        exact hfound loc hloc
    case isFalse hout =>
      rw [if_neg hout]
      exact hfound loc hloc

/-- A match earlier in the data is a copy of it. -/
lemma copyBack_of_isMatch {best : Nat} (h : IsMatch data i best loc) (hloc : loc < i) :
    copyBack (i - loc) best (data.take i) = data.take (i + best) := by
  refine copyBack_take (by omega) (by omega) h.le_length fun k hk => ?_
  have hlength := h.le_length
  rw [show i - (i - loc) + k = loc + k by omega, getElem?_eq_byteAt (by omega),
    getElem?_eq_byteAt (by omega), h.same k hk]

/-! ### The loop -/

/-- The tokens written behind `base` stand for the first `i` bytes. -/
def Emitted (data : List UInt8) (base : List Bool) (i : Nat) (z : ZlibOut) : Prop :=
  ∃ ts : List Token, (∀ t ∈ ts, t.Valid) ∧ expand [] ts = some (data.take i) ∧
    Wrote z (base ++ ts.flatMap (Token.bits fixedLit fixedDist))

variable {base : List Bool} {s : ZlibLoop}

lemma emitted_snoc {t : Token} {j : Nat} {z' : ZlibOut} (hvalid : t.Valid)
    (happly : t.apply (data.take i) = some (data.take j))
    (hwrote : ∀ bits, Wrote z bits → Wrote z' (bits ++ t.bits fixedLit fixedDist))
    (h : Emitted data base i z) : Emitted data base j z' := by
  obtain ⟨ts, hts, hexpand, hbits⟩ := h
  refine ⟨ts ++ [t], ?_, ?_, ?_⟩
  · intro u hu
    rcases List.mem_append.mp hu with hu | hu
    · exact hts u hu
    · rwa [List.mem_singleton.mp hu]
  · rw [expand_append, hexpand, Option.bind_some, expand_cons, happly]
    rfl
  · rw [List.flatMap_append, List.flatMap_singleton, ← List.append_assoc]
    exact hwrote _ hbits

lemma emitted_literal (hi : i < data.length) (h : Emitted data base i z) :
    Emitted data base (i + 1) (stbiwZlibHuffb z (byteAt data i).toNat) := by
  refine emitted_snoc (t := .literal (byteAt data i)) trivial ?_
    (fun bits hbits => wrote_literal hbits _) h
  rw [Token.apply, List.take_succ_eq_append_getElem hi, byteAt, List.getD_eq_getElem _ _ hi]

lemma emitted_match {best : Nat} (hbest : 3 ≤ best) (hmatch : IsMatch data i best loc)
    (hloc : loc < i) (h : Emitted data base i z) :
    Emitted data base (i + best) (writeMatch z best (i - loc)) := by
  obtain ⟨ts, hts, hexpand, hbits⟩ := h
  have hwindow := hmatch.window
  obtain ⟨l, lextra, k, dextra, hvalid, hlength, hdist, hwrote⟩ :=
    wrote_writeMatch hbits hbest hmatch.le_max (show 0 < i - loc by omega) (by omega)
  have hle := hmatch.le_length
  refine ⟨ts ++ [.copy l lextra k dextra], ?_, ?_, ?_⟩
  · intro u hu
    rcases List.mem_append.mp hu with hu | hu
    · exact hts u hu
    · rwa [List.mem_singleton.mp hu]
  · have hroom : i - loc ≤ (data.take i).length := by
      rw [List.length_take_of_le (by omega)]
      omega
    rw [expand_append, hexpand, Option.bind_some, expand_cons, Token.apply, hlength, hdist,
      if_pos hroom, copyBack_of_isMatch hmatch hloc]
    rfl
  · rw [List.flatMap_append, List.flatMap_singleton, ← List.append_assoc]
    exact hwrote

/-- Between two rounds: every place in the table has been passed. -/
structure LoopInv (data : List UInt8) (base : List Bool) (s : ZlibLoop) : Prop where
  i_le : s.i ≤ data.length
  passed : ∀ h, ∀ loc ∈ s.hash_table h, loc < s.i
  emitted : Emitted data base s.i s.z

lemma mem_hashPush {loc : Nat} {hlist : List Nat} (h : loc ∈ hashPush quality i hlist) :
    loc = i ∨ loc ∈ hlist := by
  rw [hashPush] at h
  rcases List.mem_append.mp h with h | h
  · split at h
    · exact .inr (List.mem_of_mem_drop h)
    · exact .inr h
  · exact .inl (List.mem_singleton.mp h)

lemma loopInv_zlibStep (h : LoopInv data base s) (hi : s.i + 3 < data.length) :
    LoopInv data base (zlibStep data quality s) := by
  have hadvance := i_lt_zlibStep data quality s
  have hbest := three_le_bestMatch data s.i (s.hash_table (hashIndex data s.i))
  have hmatch := bestMatch_spec h.i_le (s.hash_table (hashIndex data s.i))
  have hpassed : ∀ j, s.i < j → ∀ k, ∀ loc ∈ Function.update s.hash_table (hashIndex data s.i)
      (hashPush quality s.i (s.hash_table (hashIndex data s.i))) k, loc < j := by
    intro j hj k loc hloc
    rw [Function.update_apply] at hloc
    split at hloc
    · rcases mem_hashPush hloc with rfl | hloc
      · exact hj
      · exact (h.passed _ loc hloc).trans hj
    · exact (h.passed _ loc hloc).trans hj
  simp only [zlibStep] at hadvance ⊢
  split
  case h_1 loc hbestloc =>
    rw [hbestloc] at hadvance
    split_ifs at hbestloc
    obtain ⟨hmem, hcompared⟩ := hmatch loc hbestloc
    exact ⟨hcompared.le_length, hpassed _ hadvance,
      emitted_match hbest hcompared (h.passed _ loc hmem) h.emitted⟩
  case h_2 hbestloc =>
    rw [hbestloc] at hadvance
    exact ⟨by simp only; omega, hpassed _ hadvance, emitted_literal (by omega) h.emitted⟩

lemma loopInv_zlibLoop (quality : Nat) (h : LoopInv data base s) :
    LoopInv data base (zlibLoop data quality s) := by
  induction s using zlibLoop.induct data quality with
  | case1 s hi ih =>
    rw [zlibLoop, if_pos hi]
    exact ih (loopInv_zlibStep h hi)
  | case2 s hi =>
    rw [zlibLoop, if_neg hi]
    exact h

/-- The last bytes are written one by one. -/
lemma emitted_tail (h : Emitted data base i z) (hi : i ≤ data.length) :
    Emitted data base data.length
      ((data.drop i).foldl (fun z b => stbiwZlibHuffb z b.toNat) z) := by
  induction hn : data.length - i generalizing i z with
  | zero =>
    obtain rfl : i = data.length := by omega
    rw [List.drop_length]
    exact h
  | succ n ih =>
    have hlt : i < data.length := by omega
    have hnext := emitted_literal hlt h
    rw [byteAt, List.getD_eq_getElem _ _ hlt] at hnext
    rw [List.drop_eq_getElem_cons hlt, List.foldl_cons]
    exact ih hnext hlt (by omega)

lemma wrote_zlibBlock (h : Wrote z base) (data : List UInt8) (quality : Nat) :
    ∃ ts : List Token, (∀ t ∈ ts, t.Valid) ∧ expand [] ts = some data ∧
      Wrote (zlibBlock data quality z) (base ++ blockBits fixedLit fixedDist ts) := by
  have hinit : LoopInv data base ⟨0, fun _ => [], z⟩ :=
    ⟨Nat.zero_le _, by simp, [], by simp, rfl, by simpa using h⟩
  have hloop := loopInv_zlibLoop quality hinit
  obtain ⟨ts, hts, hexpand, hbits⟩ := emitted_tail hloop.emitted hloop.i_le
  refine ⟨ts, hts, by rw [hexpand, List.take_length], ?_⟩
  rw [blockBits, ← List.append_assoc]
  exact wrote_stbiwZlibHuff hbits (by decide)

/-! ### The end -/

lemma bitcount_stbiwZlibFlushf (z : ZlibOut) : (stbiwZlibFlushf z).bitcount = z.bitcount % 8 := by
  induction z using stbiwZlibFlushf.induct with
  | case1 z hge ih =>
    rw [stbiwZlibFlushf, if_pos hge, ih]
    exact (Nat.mod_eq_sub_mod hge).symm
  | case2 z hlt =>
    rw [stbiwZlibFlushf, if_neg hlt, Nat.mod_eq_of_lt (not_le.mp hlt)]

lemma wrote_zlibPad (h : Wrote z bits) (n : Nat) (hn : z.bitcount = 0 ∨ 8 ≤ z.bitcount + n) :
    (zlibPad n z).bitcount = 0 ∧
      ∃ pad, pad + z.bitcount ≤ 8 ∧ (z.bitcount = 0 → pad = 0) ∧
        Wrote (zlibPad n z) (bits ++ List.replicate pad false) := by
  induction n generalizing z bits with
  | zero =>
    have hlt := h.bitcount_lt
    refine ⟨?_, 0, by omega, fun _ => rfl, ?_⟩
    · rw [zlibPad]
      omega
    · rw [List.replicate_zero, List.append_nil]
      exact h
  | succ n ih =>
    rw [zlibPad]
    split_ifs with hzero
    · have hlt := h.bitcount_lt
      have hcount : (stbiwZlibAdd z 0 1).bitcount = (z.bitcount + 1) % 8 :=
        bitcount_stbiwZlibFlushf _
      have hadd := wrote_stbiwZlibAdd h (show 0 < 2 ^ 1 by decide)
      obtain ⟨hend, pad, hpad, hnone, hwrote⟩ := ih hadd (by omega)
      refine ⟨hend, pad + 1, by omega, fun hz => absurd hz hzero, ?_⟩
      rw [List.append_assoc] at hwrote
      exact hwrote
    · have hbits : bits ++ List.replicate 0 false = bits := List.append_nil bits
      exact ⟨not_not.mp hzero, 0, by omega, fun _ => rfl, hbits.symm ▸ h⟩

/-- As long as the sums stay below 2^32, those of the machine are exact. -/
lemma toNat_adlerBlock {s : UInt32 × UInt32} {t : Nat × Nat} (h1 : s.1.toNat = t.1)
    (h2 : s.2.toNat = t.2) (block : List UInt8) (hlt1 : (Checksum.sums t block).1 < 2 ^ 32)
    (hlt2 : (Checksum.sums t block).2 < 2 ^ 32) :
    (adlerBlock s block).1.toNat = (Checksum.sums t block).1 ∧
      (adlerBlock s block).2.toNat = (Checksum.sums t block).2 := by
  induction block generalizing s t with
  | nil => exact ⟨h1, h2⟩
  | cons b block ih =>
    have hle := Checksum.le_sums (t.1 + b.toNat, t.2 + (t.1 + b.toNat)) block
    have hcons : Checksum.sums t (b :: block) =
        Checksum.sums (t.1 + b.toNat, t.2 + (t.1 + b.toNat)) block := rfl
    rw [hcons] at hlt1 hlt2 ⊢
    refine ih ?_ ?_ hlt1 hlt2
    · simp only [UInt32.toNat_add, UInt8.toNat_toUInt32, h1]
      omega
    · simp only [UInt32.toNat_add, UInt8.toNat_toUInt32, h1, h2]
      omega

/-- A block is short enough for the sums not to overflow, whatever its bytes. -/
lemma toNat_adlerBlocks (data : List UInt8) (blocklen : Nat) (s : UInt32 × UInt32)
    (hlen : blocklen ≤ 5552) (h1 : s.1.toNat ≤ 65520) (h2 : s.2.toNat ≤ 65520) :
    (adlerBlocks data blocklen s).1.toNat =
        (data.foldl Checksum.adlerStep (s.1.toNat, s.2.toNat)).1 ∧
      (adlerBlocks data blocklen s).2.toNat =
        (data.foldl Checksum.adlerStep (s.1.toNat, s.2.toNat)).2 := by
  induction data, blocklen, s using adlerBlocks.induct with
  | case1 blocklen s =>
    rw [adlerBlocks, if_pos rfl]
    exact ⟨rfl, rfl⟩
  | case2 data blocklen s hne t ih =>
    have htake : (data.take blocklen).length ≤ 5552 := (List.length_take_le _ _).trans hlen
    have hsums := Checksum.sums_le (s := (s.1.toNat, s.2.toNat)) h1
      (Nat.mul_le_mul_left 2 h2) (data.take blocklen)
    have hbound : (data.take blocklen).length *
        (2 * 65520 + 255 * ((data.take blocklen).length + 1)) ≤
          5552 * (2 * 65520 + 255 * (5552 + 1)) := Nat.mul_le_mul htake (by omega)
    have hblock := toNat_adlerBlock (s := s) (t := (s.1.toNat, s.2.toNat)) rfl rfl
      (data.take blocklen) (by omega) (by omega)
    have hmod : ∀ x : UInt32, (x % 65521).toNat = x.toNat % 65521 := fun x => UInt32.toNat_mod x _
    have hreduced : (data.take blocklen).foldl Checksum.adlerStep (s.1.toNat, s.2.toNat) =
        (((adlerBlock s (data.take blocklen)).1 % 65521).toNat,
          ((adlerBlock s (data.take blocklen)).2 % 65521).toNat) := by
      rw [hmod, hmod, hblock.1, hblock.2]
      exact Checksum.foldl_adlerStep _ _ _ (Nat.mod_eq_of_lt (by simp only; omega)).symm
        (Nat.mod_eq_of_lt (by simp only; omega)).symm
    have hnext := ih le_rfl (by simp only [hmod]; omega) (by simp only [hmod]; omega)
    have hfold : data.foldl Checksum.adlerStep (s.1.toNat, s.2.toNat) =
        (data.drop blocklen).foldl Checksum.adlerStep
          (((adlerBlock s (data.take blocklen)).1 % 65521).toNat,
            ((adlerBlock s (data.take blocklen)).2 % 65521).toNat) := by
      rw [← hreduced, ← List.foldl_append, List.take_append_drop]
    rw [adlerBlocks, if_neg hne, hfold]
    exact hnext

lemma adlerTail_eq (data : List UInt8) : adlerTail data = Checksum.adlerBytes data := by
  have hlen : data.length % 5552 ≤ 5552 := (Nat.mod_lt _ (by decide)).le
  obtain ⟨h1, h2⟩ := toNat_adlerBlocks data (data.length % 5552) (1, 0) hlen (by decide) (by decide)
  have hbyte : ∀ x : UInt32, x.toUInt8 = UInt8.ofNat x.toNat := by
    intro x
    apply UInt8.toNat_inj.mp
    rw [UInt32.toNat_toUInt8, UInt8.toNat_ofNat']
  have hhigh : ∀ x : UInt32, (x >>> 8).toUInt8 = UInt8.ofNat (x.toNat / 256) := by
    intro x
    rw [hbyte, UInt32.toNat_shiftRight, Nat.shiftRight_eq_div_pow]
    rfl
  simp only [adlerTail, hhigh]
  simp only [hbyte, h1, h2]
  rfl

/-- The compressed bytes are a stream in the zlib format: one block in the fixed codes between the
header and the check sum, with tokens that stand for the data. -/
theorem isFixedStream_zlibBytes (data : List UInt8) (quality : Nat) :
    IsFixedStream [0x78, 0x5e] (Checksum.adlerBytes data) (zlibBytes data quality) data := by
  have hinit : Wrote ⟨[0x78, 0x5e], 0, 0⟩ (byteBits [0x78, 0x5e]) :=
    ⟨by rw [natBits_zero, List.append_nil], by decide, by decide⟩
  have hheader := wrote_stbiwZlibAdd (wrote_stbiwZlibAdd hinit (show 1 < 2 ^ 1 by decide))
    (show 1 < 2 ^ 2 by decide)
  obtain ⟨ts, hts, hexpand, hblock⟩ :=
    wrote_zlibBlock hheader data (if quality < 5 then 5 else quality)
  have hlt := hblock.bitcount_lt
  obtain ⟨hend, pad, hpad, hnone, hwrote⟩ := wrote_zlibPad hblock 8 (by omega)
  refine ⟨ts, pad, hts, hexpand, by omega, ?_⟩
  have hbits := hwrote.bits_eq
  rw [hend, natBits_zero, List.append_nil] at hbits
  rw [zlibBytes, byteBits_append, hbits, adlerTail_eq]
  simp only [List.append_assoc]

end GifTools
