import Mathlib.Data.List.Basic
import GifTools.Base64.Text

/-!
# Decoding in scratch arrays

`base64_decode` collects characters in an array that still holds what the group before left in it,
and replaces them there by their indices. `ScratchDecoder` has its variables; what it does is what
`base64Decode` does, as long as the `int32_t` index does not overflow. That is to read back the
bytes whose bits are all there, of the characters up to the first that is not of the alphabet.
-/

namespace GifTools

open Radix

/-- What goes wrong in `base64_encode` and `base64_decode`. -/
inductive Base64Fault where
  /-- `encoded_string` is read past its end. -/
  | outOfBounds
  /-- `in_` overflows. -/
  | overflow
  /-- `std::vector::push_back` beyond `max_size`. -/
  | length
  deriving DecidableEq

/-- The variables of `base64_decode`. -/
structure ScratchDecoder where
  i : Nat
  in_ : Nat
  char_array_4 : Nat → UInt8
  ret : List UInt8

namespace ScratchDecoder

/-- The first `n` characters of the array are replaced by their indices. -/
def findChars (n : Nat) (char_array_4 : Nat → UInt8) : Nat → UInt8 :=
  fun j => if j < n then base64Index (char_array_4 j) else char_array_4 j

/-- `char_array_3` -/
def group (char_array_4 : Nat → UInt8) : List UInt8 :=
  decodeGroup (char_array_4 0) (char_array_4 1) (char_array_4 2) (char_array_4 3)

/-- The body of the loop, for the character that was read. -/
def push (s : ScratchDecoder) (c : UInt8) : ScratchDecoder :=
  let char_array_4 := Function.update s.char_array_4 s.i c
  if s.i + 1 = 4 then
    let char_array_4 := findChars 4 char_array_4
    ⟨0, s.in_ + 1, char_array_4, s.ret ++ group char_array_4⟩
  else ⟨s.i + 1, s.in_ + 1, char_array_4, s.ret⟩

/-- The loop; `in_len` is what is left to read. -/
def loop (encoded_string : List UInt8) : Nat → ScratchDecoder → Except Base64Fault ScratchDecoder
  | 0, s => .ok s
  | in_len + 1, s =>
    match encoded_string[s.in_]? with
    | none => .error .outOfBounds
    | some c =>
      if c != 0x3d && isBase64 c then
        if s.in_ + 1 < 2 ^ 31 then loop encoded_string in_len (s.push c) else .error .overflow
      else .ok s

/-- What follows the loop. The bytes are made of what is in the array, also behind `i`. -/
def finish (s : ScratchDecoder) : List UInt8 :=
  if s.i = 0 then s.ret
  else s.ret ++ (group (findChars s.i s.char_array_4)).take (s.i - 1)

/-- `base64_decode`, of `in_len` bytes in memory. -/
def base64Decode (encoded_string : List UInt8) (in_len : Nat) :
    Except Base64Fault (List UInt8) := do
  let s ← loop encoded_string in_len ⟨0, 0, fun _ => 0, []⟩
  return s.finish

end ScratchDecoder

/-! ### The scratch array holds the group that is begun -/

lemma Base64Decoder.push_short {t : Base64Decoder} (h : t.char_array_4.length < 3) (c : UInt8) :
    t.push c = ⟨t.char_array_4 ++ [c], t.ret⟩ := by
  obtain ⟨char_array_4, ret⟩ := t
  match char_array_4, h with
  | [], _ => rfl
  | [_], _ => rfl
  | [_, _], _ => rfl

namespace ScratchDecoder

/-- The decoder with lists is in the same place. -/
structure Follows (s : ScratchDecoder) (t : Base64Decoder) : Prop where
  chars : t.char_array_4 = (List.range s.i).map s.char_array_4
  lt : s.i < 4
  ret : t.ret = s.ret

variable {s : ScratchDecoder} {t : Base64Decoder}

lemma Follows.push (h : s.Follows t) (c : UInt8) : (s.push c).Follows (t.push c) := by
  have hlt := h.lt
  have hlength : t.char_array_4.length = s.i := by rw [h.chars, List.length_map, List.length_range]
  have hnew : (List.range (s.i + 1)).map (Function.update s.char_array_4 s.i c) =
      t.char_array_4 ++ [c] := by
    rw [List.range_succ, List.map_append, h.chars]
    congr 1
    · apply List.map_congr_left
      intro j hj
      exact Function.update_of_ne (List.mem_range.mp hj).ne ..
    · exact congrArg (fun c => [c]) (Function.update_self ..)
  rw [ScratchDecoder.push]
  by_cases hfull : s.i + 1 = 4
  · have hgroup : (t.char_array_4 ++ [c]).map base64Index =
        (List.range 4).map (findChars 4 (Function.update s.char_array_4 s.i c)) := by
      rw [← hnew, hfull, List.map_map]
      apply List.map_congr_left
      intro j hj
      exact (if_pos (List.mem_range.mp hj)).symm
    rw [if_pos hfull, Base64Decoder.push, hgroup]
    exact ⟨rfl, Nat.zero_lt_succ _, congrArg (· ++ _) h.ret⟩
  · rw [if_neg hfull, Base64Decoder.push_short (by omega)]
    exact ⟨hnew.symm, by simp only; omega, h.ret⟩

/-- What the group before left in the array is not in the bytes. -/
lemma Follows.finish (h : s.Follows t) : s.finish = t.finish := by
  obtain ⟨i, in_, char_array_4, ret⟩ := s
  obtain ⟨chars, ret'⟩ := t
  obtain ⟨hchars, hlt, hret⟩ := h
  simp only at hchars hlt hret
  rw [ScratchDecoder.finish, Base64Decoder.finish, hret, hchars]
  match i, hlt with
  | 0, _ => simp
  | 1, _ => simp
  | 2, _ => rfl
  | 3, _ => rfl

@[simp] lemma in_push (s : ScratchDecoder) (c : UInt8) : (s.push c).in_ = s.in_ + 1 := by
  rw [ScratchDecoder.push]
  split <;> rfl

/-- The characters that are decoded. -/
def digits (encoded_string : List UInt8) : List UInt8 :=
  encoded_string.takeWhile fun c => c != 0x3d && isBase64 c

variable {encoded_string before rest behind : List UInt8}

lemma getElem?_in (hmem : encoded_string = before ++ rest ++ behind)
    (hin : s.in_ = before.length) {c : UInt8} {rest' : List UInt8} (hrest : rest = c :: rest') :
    encoded_string[s.in_]? = some c := by
  rw [hmem, hin, hrest, List.append_assoc, List.getElem?_append_right le_rfl]
  simp

/-- The loop over what is left of the string. -/
lemma loop_eq (h : s.Follows t) (hmem : encoded_string = before ++ rest ++ behind)
    (hin : s.in_ = before.length) (hlt : before.length + (digits rest).length < 2 ^ 31) :
    ∃ s', loop encoded_string rest.length s = .ok s' ∧
      s'.Follows ((digits rest).foldl Base64Decoder.push t) := by
  induction rest generalizing s t before with
  | nil => exact ⟨s, rfl, h⟩
  | cons c rest ih =>
    have hmem' : encoded_string = (before ++ [c]) ++ rest ++ behind := by
      rw [hmem]
      simp
    rw [List.length_cons, loop, getElem?_in hmem hin rfl]
    rw [digits, List.takeWhile_cons] at hlt ⊢
    by_cases hdigit : (c != 0x3d && isBase64 c) = true
    · rw [if_pos hdigit, List.length_cons] at hlt
      simp only [if_pos hdigit, if_pos (show s.in_ + 1 < 2 ^ 31 by omega), List.foldl_cons]
      apply ih (h.push c) hmem'
      · rw [in_push, hin, List.length_append, List.length_singleton]
      · rw [List.length_append, List.length_singleton, digits]
        omega
    · simp only [if_neg hdigit]
      exact ⟨s, rfl, h⟩

/-- With too many characters the index overflows. -/
lemma loop_overflow (hmem : encoded_string = before ++ rest ++ behind)
    (hin : s.in_ = before.length) (hbefore : before.length < 2 ^ 31)
    (hge : 2 ^ 31 ≤ before.length + (digits rest).length) :
    loop encoded_string rest.length s = .error .overflow := by
  induction rest generalizing s before with
  | nil =>
    simp only [digits, List.takeWhile_nil, List.length_nil] at hge
    omega
  | cons c rest ih =>
    have hmem' : encoded_string = (before ++ [c]) ++ rest ++ behind := by
      rw [hmem]
      simp
    rw [List.length_cons, loop, getElem?_in hmem hin rfl]
    rw [digits, List.takeWhile_cons] at hge
    by_cases hdigit : (c != 0x3d && isBase64 c) = true
    · rw [if_pos hdigit, List.length_cons] at hge
      simp only [if_pos hdigit]
      by_cases hlast : s.in_ + 1 < 2 ^ 31
      · rw [if_pos hlast]
        apply ih hmem'
        · rw [in_push, hin, List.length_append, List.length_singleton]
        · rw [List.length_append, List.length_singleton]
          omega
        · rw [List.length_append, List.length_singleton, digits]
          omega
      · exact if_neg hlast
    · rw [if_neg hdigit, List.length_nil] at hge
      omega

/-- `base64_decode` does what the decoder with lists does, if its index does not overflow. -/
lemma base64Decode_eq (hmem : encoded_string = rest ++ behind)
    (hlt : (digits rest).length < 2 ^ 31) :
    base64Decode encoded_string rest.length = .ok (GifTools.base64Decode rest) := by
  have hstart : (⟨0, 0, fun _ => 0, []⟩ : ScratchDecoder).Follows ⟨[], []⟩ :=
    ⟨rfl, Nat.zero_lt_succ _, rfl⟩
  obtain ⟨s', hloop, hfollows⟩ := loop_eq hstart
    (show encoded_string = [] ++ rest ++ behind from hmem)
    rfl (by simpa using hlt)
  rw [base64Decode, hloop]
  exact congrArg _ hfollows.finish

lemma base64Decode_overflow (hmem : encoded_string = rest ++ behind)
    (hge : 2 ^ 31 ≤ (digits rest).length) :
    base64Decode encoded_string rest.length = .error .overflow := by
  rw [base64Decode, loop_overflow (show encoded_string = [] ++ rest ++ behind from hmem) rfl
    (by simp) (by simpa using hge)]
  rfl

end ScratchDecoder

/-! ### The bytes of some characters -/

/-- The six bits of a character, if it is one of the alphabet of RFC 4648. -/
def alphabetValue (c : UInt8) : Option Nat :=
  if 0x41 ≤ c ∧ c ≤ 0x5a then some (c.toNat - 0x41)
  else if 0x61 ≤ c ∧ c ≤ 0x7a then some (c.toNat - 0x61 + 26)
  else if 0x30 ≤ c ∧ c ≤ 0x39 then some (c.toNat - 0x30 + 52)
  else if c = 0x2b then some 62
  else if c = 0x2f then some 63
  else none

/-- The longest prefix of characters of the alphabet. -/
def alphabetPrefix (s : List UInt8) : List UInt8 :=
  s.takeWhile fun c => (alphabetValue c).isSome

/-- The bits of that prefix, six for each character. -/
def prefixBits (s : List UInt8) : List Bool :=
  bits 6 ((alphabetPrefix s).filterMap alphabetValue)

lemma alphabetValue_alphabetChar : ∀ v < 64, alphabetValue (alphabetChar v) = some v := by
  decide +kernel

/-- What the tests of the loop and `base64_chars.find` come to, for every character. -/
lemma alphabetValue_ofNat : ∀ n < 256,
    alphabetValue (UInt8.ofNat n) =
      if UInt8.ofNat n != 0x3d && isBase64 (UInt8.ofNat n) then
        some (base64Index (UInt8.ofNat n)).toNat
      else none := by
  decide +kernel

lemma alphabetValue_eq (c : UInt8) :
    alphabetValue c = if c != 0x3d && isBase64 c then some (base64Index c).toNat else none := by
  have h := alphabetValue_ofNat c.toNat (UInt8.toNat_lt c)
  rwa [UInt8.ofNat_toNat] at h

lemma isSome_alphabetValue (c : UInt8) :
    (alphabetValue c).isSome = (c != 0x3d && isBase64 c) := by
  rw [alphabetValue_eq]
  split <;> simp_all

lemma alphabetValue_lt {c : UInt8} {v : Nat} (h : alphabetValue c = some v) : v < 64 := by
  simp only [alphabetValue, UInt8.le_iff_toNat_le, UInt8.reduceToNat] at h
  split at h
  · cases h
    omega
  split at h
  · cases h
    omega
  split at h
  · cases h
    omega
  split at h
  · cases h
    decide
  split at h
  · cases h
    decide
  · cases h

lemma digits_eq (s : List UInt8) : ScratchDecoder.digits s = alphabetPrefix s := by
  rw [ScratchDecoder.digits, alphabetPrefix]
  congr 1
  funext c
  exact (isSome_alphabetValue c).symm

/-! ### Groups of four characters -/

/-- Four fields of six bits in three bytes. -/
def octets (a b c d : Nat) : List Nat :=
  [a % 64 * 4 + b / 16 % 4, b % 16 * 16 + c / 4 % 16, c % 4 * 64 + d % 64]

lemma byteValues_decodeGroup {a d : UInt8} (ha : a.toNat < 64) (hd : d.toNat < 64) (b c : UInt8) :
    byteValues (decodeGroup a b c d) = octets a.toNat b.toNat c.toNat d.toNat := by
  have hb2 : ((b &&& 0x30) >>> 4).toNat = b.toNat / 16 % 4 :=
    toNat_shiftRight_mask (i := 4) (n := 2) rfl rfl
  have hb4 : (b &&& 0x0f).toNat = b.toNat % 16 := toNat_and_mask (n := 4) rfl
  have hc4 : ((c &&& 0x3c) >>> 2).toNat = c.toNat / 4 % 16 :=
    toNat_shiftRight_mask (i := 2) (n := 4) rfl rfl
  have hc2 : (c &&& 0x03).toNat = c.toNat % 4 := toNat_and_mask (n := 2) rfl
  have hfirst : ((a <<< 2) + ((b &&& 0x30) >>> 4)).toNat = a.toNat % 64 * 4 + b.toNat / 16 % 4 := by
    rw [toNat_shiftLeft_add (i := 2) rfl (by omega), hb2, Nat.mod_eq_of_lt ha]
    rfl
  have hsecond : (((b &&& 0x0f) <<< 4) + ((c &&& 0x3c) >>> 2)).toNat =
      b.toNat % 16 * 16 + c.toNat / 4 % 16 := by
    rw [toNat_shiftLeft_add (i := 4) rfl (by omega), hb4, hc4]
    rfl
  have hthird : (((c &&& 0x03) <<< 6) + d).toNat = c.toNat % 4 * 64 + d.toNat % 64 := by
    rw [toNat_shiftLeft_add (i := 6) rfl (by omega), hc2, Nat.mod_eq_of_lt hd]
    rfl
  simp only [byteValues, decodeGroup, octets, List.map_cons, List.map_nil, hfirst, hsecond, hthird]

/-- Six bits for each character, cut where the bytes are. -/
lemma bits_four (a b c d : Nat) (ys : List Nat) :
    bits 6 (a :: b :: c :: d :: ys) = (field 6 a ++ field 2 (b / 16)) ++
      ((field 4 b ++ field 4 (c / 4)) ++ ((field 2 c ++ field 6 d) ++ bits 6 ys)) := by
  rw [bits_cons, bits_cons, bits_cons, bits_cons, show 6 = 2 + 4 from rfl, field_add 2 4 b,
    show 2 + 4 = 4 + 2 from rfl, field_add 4 2 c]
  simp only [List.append_assoc]
  rfl

/-- Four characters are three bytes. -/
lemma readBack_four (a b c d : Nat) (ys : List Nat) :
    readBack 8 6 (a :: b :: c :: d :: ys) = octets a b c d ++ readBack 8 6 ys := by
  rw [readBack, bits_four, wholes_append (by decide) (by simp), wholes_append (by decide) (by simp),
    wholes_append (by decide) (by simp)]
  simp only [List.map_cons, value_append, value_field, length_field]
  rfl

/-- The three characters that are left are two bytes; two bits of the last are not used. -/
lemma readBack_three (a b c : Nat) : readBack 8 6 [a, b, c] = (octets a b c 0).take 2 := by
  have hbits : bits 6 [a, b, c] = (field 6 a ++ field 2 (b / 16)) ++
      ((field 4 b ++ field 4 (c / 4)) ++ field 2 c) := by
    rw [bits_cons, bits_cons, bits_cons, show 6 = 2 + 4 from rfl, field_add 2 4 b,
      show 2 + 4 = 4 + 2 from rfl, field_add 4 2 c]
    simp only [List.append_assoc]
    rfl
  rw [readBack, hbits, wholes_append (by decide) (by simp), wholes_append (by decide) (by simp),
    wholes_short (by simp)]
  simp only [List.map_cons, value_append, value_field, length_field]
  rfl

lemma readBack_two (a b : Nat) : readBack 8 6 [a, b] = (octets a b 0 0).take 1 := by
  have hbits : bits 6 [a, b] = (field 6 a ++ field 2 (b / 16)) ++ field 4 b := by
    rw [bits_cons, bits_cons, show 6 = 2 + 4 from rfl, field_add 2 4 b]
    simp only [List.append_assoc]
    rfl
  rw [readBack, hbits, wholes_append (by decide) (by simp), wholes_short (by simp)]
  simp only [List.map_cons, value_append, value_field, length_field]
  rfl

lemma readBack_one (a : Nat) : readBack 8 6 [a] = [] := by
  rw [readBack, wholes_short (by simp)]
  rfl

/-! ### The decoder -/

/-- The six bits of each character, as the decoder finds them. -/
def indices (cs : List UInt8) : List Nat := byteValues (cs.map base64Index)

lemma indices_cons (c : UInt8) (cs : List UInt8) :
    indices (c :: cs) = (base64Index c).toNat :: indices cs := rfl

/-- The loop appends the bytes whose bits are all there. -/
lemma byteValues_foldl_push {cs : List UInt8} (hcs : ∀ c ∈ cs, (base64Index c).toNat < 64)
    (ret : List UInt8) :
    byteValues (cs.foldl Base64Decoder.push ⟨[], ret⟩).finish =
      byteValues ret ++ readBack 8 6 (indices cs) := by
  match cs with
  | [] =>
    have hnil : readBack 8 6 (indices []) = [] := by
      rw [readBack, wholes_short (by simp [indices, byteValues, bits])]
      rfl
    simp [hnil, Base64Decoder.finish]
  | [a] =>
    rw [indices_cons]
    simp [indices, byteValues, readBack_one, Base64Decoder.finish, Base64Decoder.push]
  | [a, b] =>
    have hgroup := byteValues_decodeGroup (hcs a (by simp)) (show (0 : UInt8).toNat < 64 by decide)
      (base64Index b) 0
    have hfinish : ([a, b].foldl Base64Decoder.push ⟨[], ret⟩).finish =
        ret ++ (decodeGroup (base64Index a) (base64Index b) 0 0).take 1 := rfl
    rw [hfinish, byteValues, List.map_append, List.map_take, ← byteValues, ← byteValues, hgroup]
    exact congrArg _ (readBack_two ..).symm
  | [a, b, c] =>
    have hgroup := byteValues_decodeGroup (hcs a (by simp)) (show (0 : UInt8).toNat < 64 by decide)
      (base64Index b) (base64Index c)
    have hfinish : ([a, b, c].foldl Base64Decoder.push ⟨[], ret⟩).finish =
        ret ++ (decodeGroup (base64Index a) (base64Index b) (base64Index c) 0).take 2 := rfl
    rw [hfinish, byteValues, List.map_append, List.map_take, ← byteValues, ← byteValues, hgroup]
    exact congrArg _ (readBack_three ..).symm
  | a :: b :: c :: d :: rest =>
    have hgroup := byteValues_decodeGroup (hcs a (by simp)) (hcs d (by simp)) (base64Index b)
      (base64Index c)
    have hrest : ∀ c ∈ rest, (base64Index c).toNat < 64 := by
      intro c hc
      exact hcs c (by simp [hc])
    have hpush : [a, b, c, d].foldl Base64Decoder.push ⟨[], ret⟩ = ⟨[], ret ++
        decodeGroup (base64Index a) (base64Index b) (base64Index c) (base64Index d)⟩ := rfl
    have hsplit : a :: b :: c :: d :: rest = [a, b, c, d] ++ rest := rfl
    rw [hsplit, List.foldl_append, hpush, byteValues_foldl_push hrest, byteValues, List.map_append,
      ← byteValues, ← byteValues, hgroup, List.append_assoc]
    exact congrArg _ (readBack_four ..).symm

lemma mem_alphabetPrefix {s : List UInt8} {c : UInt8} (hc : c ∈ alphabetPrefix s) :
    alphabetValue c = some (base64Index c).toNat := by
  have hsome : (alphabetValue c).isSome = true := (List.all_eq_true.mp List.all_takeWhile) c hc
  rw [isSome_alphabetValue] at hsome
  rw [alphabetValue_eq, if_pos hsome]

lemma base64Index_lt {s : List UInt8} : ∀ c ∈ alphabetPrefix s, (base64Index c).toNat < 64 := by
  intro c hc
  exact alphabetValue_lt (mem_alphabetPrefix hc)

lemma bits_indices (s : List UInt8) : bits 6 (indices (alphabetPrefix s)) = prefixBits s := by
  have hvalues : (alphabetPrefix s).filterMap alphabetValue =
      (alphabetPrefix s).map fun c => (base64Index c).toNat :=
    List.filterMap_eq_map_iff_forall_eq_some.mpr fun _ hc => mem_alphabetPrefix hc
  rw [prefixBits, hvalues, indices, byteValues, List.map_map]
  rfl

/-- The bytes of the decoder are read back from the characters of the prefix. -/
lemma byteValues_base64Decode (s : List UInt8) :
    byteValues (GifTools.base64Decode s) = readBack 8 6 (indices (alphabetPrefix s)) := by
  have hdecode : GifTools.base64Decode s =
      ((alphabetPrefix s).foldl Base64Decoder.push ⟨[], []⟩).finish := by
    rw [← digits_eq]
    rfl
  rw [hdecode, byteValues_foldl_push base64Index_lt]
  rfl

/-- Every string is decoded up to its first foreign character: the complete bytes of what the
characters before it stand for. -/
theorem base64_decode_prefix (s : List UInt8) (hlength : s.length < 2 ^ 31) :
    ∃ ret, ScratchDecoder.base64Decode s s.length = .ok ret ∧
      ret.length = 3 * (alphabetPrefix s).length / 4 ∧
      bits 8 (byteValues ret) = (prefixBits s).take (8 * (3 * (alphabetPrefix s).length / 4)) ∧
      ∀ s' : List UInt8, s'.length < 2 ^ 31 → alphabetPrefix s' = alphabetPrefix s →
        ScratchDecoder.base64Decode s' s'.length = .ok ret := by
  have hscratch : ∀ s' : List UInt8, s'.length < 2 ^ 31 →
      ScratchDecoder.base64Decode s' s'.length = .ok (GifTools.base64Decode s') := by
    intro s' hs'
    have hdigits := (List.takeWhile_sublist (fun c => c != 0x3d && isBase64 c) (l := s')).length_le
    exact ScratchDecoder.base64Decode_eq (List.append_nil s').symm (hdigits.trans_lt hs')
  have hvalues := byteValues_base64Decode s
  have hindices : (indices (alphabetPrefix s)).length = (alphabetPrefix s).length := by
    rw [indices, byteValues, List.length_map, List.length_map]
  have hbytes : 6 * (alphabetPrefix s).length / 8 = 3 * (alphabetPrefix s).length / 4 := by omega
  refine ⟨GifTools.base64Decode s, hscratch s hlength, ?_, ?_, ?_⟩
  · have hmap := congrArg List.length hvalues
    rwa [byteValues, List.length_map, length_readBack (by decide), hindices, hbytes] at hmap
  · rw [hvalues, bits_readBack (by decide), hindices, hbytes, bits_indices]
  · intro s' hs' hprefix
    have hmap : byteValues (GifTools.base64Decode s') = byteValues (GifTools.base64Decode s) := by
      rw [byteValues_base64Decode, byteValues_base64Decode, hprefix]
    rw [hscratch s' hs', (List.map_inj_right fun _ _ => UInt8.toNat_inj.mp).mp hmap]

/-- `TWE=`, and `TWE` with a foreign character behind it, are both decoded to `Ma`. -/
theorem base64_decode_prefix_twe :
    ∃ ret, ScratchDecoder.base64Decode [0x54, 0x57, 0x45, 0x3d] 4 = .ok ret ∧ ret.length = 2 ∧
      ScratchDecoder.base64Decode [0x54, 0x57, 0x45, 0x20, 0x54] 5 = .ok ret := by
  obtain ⟨ret, hret, hlength, -, hsame⟩ :=
    base64_decode_prefix [0x54, 0x57, 0x45, 0x3d] (by decide)
  exact ⟨ret, hret, hlength, hsame [0x54, 0x57, 0x45, 0x20, 0x54] (by decide) (by decide +kernel)⟩

end GifTools
