import GifTools.Base64.Basic
import GifTools.Core.Radix

/-!
# The text of some bytes

What base64 is, apart from the loops: the bits of the bytes are cut into fields of six, each is a
character of the alphabet, and `=` makes the length a multiple of four. Both encoders give this
text, `base64_encode` with a zero behind it.
-/

namespace GifTools

open Radix

/-- Bytes as numbers. -/
def byteValues (bytes : List UInt8) : List Nat := bytes.map UInt8.toNat

/-- The alphabet of RFC 4648. -/
def alphabetChar (v : Nat) : UInt8 :=
  if v < 26 then UInt8.ofNat (0x41 + v)
  else if v < 52 then UInt8.ofNat (0x61 + (v - 26))
  else if v < 62 then UInt8.ofNat (0x30 + (v - 52))
  else if v = 62 then 0x2b
  else 0x2f

/-- The characters of some bytes, without padding. -/
def base64Digits (bytes : List UInt8) : List UInt8 :=
  (recode 8 6 (byteValues bytes)).map alphabetChar

/-- The base64 text of RFC 4648, with padding. -/
def base64Text (bytes : List UInt8) : List UInt8 :=
  base64Digits bytes ++ List.replicate ((4 - (base64Digits bytes).length % 4) % 4) 0x3d

lemma length_base64Digits (bytes : List UInt8) :
    (base64Digits bytes).length = (8 * bytes.length + 5) / 6 := by
  rw [base64Digits, List.length_map, length_recode (by decide), byteValues, List.length_map]

lemma length_base64Text (bytes : List UInt8) :
    (base64Text bytes).length = 4 * ((bytes.length + 2) / 3) := by
  rw [base64Text, List.length_append, List.length_replicate, length_base64Digits]
  omega

/-! ### Bits of a byte -/

section

variable {a b mask s : UInt8} {i n : Nat}

lemma toNat_and_mask (hmask : mask.toNat = 2 ^ n - 1) : (a &&& mask).toNat = a.toNat % 2 ^ n := by
  rw [UInt8.toNat_and, hmask, Nat.and_two_pow_sub_one_eq_mod]

lemma toNat_shiftRight_mask (hs : s.toNat % 8 = i) (hmask : mask.toNat >>> i = 2 ^ n - 1) :
    ((a &&& mask) >>> s).toNat = a.toNat / 2 ^ i % 2 ^ n := by
  rw [UInt8.toNat_shiftRight, UInt8.toNat_and, hs, Nat.shiftRight_and_distrib, hmask,
    Nat.and_two_pow_sub_one_eq_mod, Nat.shiftRight_eq_div_pow]

/-- Two parts of a byte that do not overlap. -/
lemma toNat_shiftLeft_add (hs : s.toNat % 8 = i) (h : a.toNat * 2 ^ i + b.toNat < 2 ^ 8) :
    ((a <<< s) + b).toNat = a.toNat * 2 ^ i + b.toNat := by
  rw [UInt8.toNat_add, UInt8.toNat_shiftLeft, hs, Nat.shiftLeft_eq, Nat.mod_add_mod,
    Nat.mod_eq_of_lt h]

end

/-- Three bytes in fields of six bits. -/
def sextets (a b c : Nat) : List Nat :=
  [a / 4 % 64, a % 4 * 16 + b / 16 % 16, b % 16 * 4 + c / 64 % 4, c % 64]

lemma toNat_encodeGroup (a b c : UInt8) :
    byteValues (encodeGroup a b c) = sextets a.toNat b.toNat c.toNat := by
  have ha : (a &&& 0x03).toNat = a.toNat % 4 := toNat_and_mask (n := 2) rfl
  have hb : ((b &&& 0xf0) >>> 4).toNat = b.toNat / 16 % 16 :=
    toNat_shiftRight_mask (i := 4) (n := 4) rfl rfl
  have hb' : (b &&& 0x0f).toNat = b.toNat % 16 := toNat_and_mask (n := 4) rfl
  have hc : ((c &&& 0xc0) >>> 6).toNat = c.toNat / 64 % 4 :=
    toNat_shiftRight_mask (i := 6) (n := 2) rfl rfl
  have hfirst : ((a &&& 0xfc) >>> 2).toNat = a.toNat / 4 % 64 :=
    toNat_shiftRight_mask (i := 2) (n := 6) rfl rfl
  have hsecond : (((a &&& 0x03) <<< 4) + ((b &&& 0xf0) >>> 4)).toNat =
      a.toNat % 4 * 16 + b.toNat / 16 % 16 := by
    rw [toNat_shiftLeft_add (i := 4) rfl (by omega), ha, hb]
    rfl
  have hthird : (((b &&& 0x0f) <<< 2) + ((c &&& 0xc0) >>> 6)).toNat =
      b.toNat % 16 * 4 + c.toNat / 64 % 4 := by
    rw [toNat_shiftLeft_add (i := 2) rfl (by omega), hb', hc]
    rfl
  have hfourth : (c &&& 0x3f).toNat = c.toNat % 64 := toNat_and_mask (n := 6) rfl
  simp only [byteValues, encodeGroup, sextets, List.map_cons, List.map_nil, hfirst, hsecond,
    hthird, hfourth]

/-! ### Groups of three bytes -/

/-- Three bytes are four characters. -/
lemma recode_three (a b c : Nat) (xs : List Nat) :
    recode 8 6 (a :: b :: c :: xs) = sextets a b c ++ recode 8 6 xs := by
  have hbits : bits 8 (a :: b :: c :: xs) = field 6 (a / 4) ++ ((field 2 a ++ field 4 (b / 16)) ++
      ((field 4 b ++ field 2 (c / 64)) ++ (field 6 c ++ bits 8 xs))) := by
    rw [bits_cons, bits_cons, bits_cons, show 8 = 6 + 2 from rfl, field_add 6 2 a,
      show 6 + 2 = 4 + 4 from rfl, field_add 4 4 b, show 4 + 4 = 2 + 6 from rfl, field_add 2 6 c]
    simp only [List.append_assoc]
    rfl
  rw [recode, hbits, cut_append (by decide) (by simp), cut_append (by decide) (by simp),
    cut_append (by decide) (by simp), cut_append (by decide) (by simp)]
  simp only [List.map_cons, value_append, value_field, length_field]
  rfl

/-- The two bytes that are left are three characters. -/
lemma recode_two (a b : Nat) : recode 8 6 [a, b] = (sextets a b 0).take 3 := by
  have hbits : bits 8 [a, b] = field 6 (a / 4) ++ ((field 2 a ++ field 4 (b / 16)) ++
      field 4 b) := by
    rw [bits_cons, bits_cons, show 8 = 6 + 2 from rfl, field_add 6 2 a,
      show 6 + 2 = 4 + 4 from rfl, field_add 4 4 b]
    simp only [List.append_assoc]
    rfl
  have hne : field 4 b ≠ [] := List.ne_nil_of_length_pos (by simp)
  rw [recode, hbits, cut_append (by decide) (by simp), cut_append (by decide) (by simp),
    cut_short hne (by simp)]
  simp only [List.map_cons, value_append, value_field, value_replicate_false, length_field,
    List.length_replicate]
  rfl

lemma recode_one (a : Nat) : recode 8 6 [a] = (sextets a 0 0).take 2 := by
  have hbits : bits 8 [a] = field 6 (a / 4) ++ field 2 a := by
    rw [bits_cons, show 8 = 6 + 2 from rfl, field_add 6 2 a]
    rfl
  have hne : field 2 a ≠ [] := List.ne_nil_of_length_pos (by simp)
  rw [recode, hbits, cut_append (by decide) (by simp), cut_short hne (by simp)]
  simp only [List.map_cons, value_append, value_field, value_replicate_false, length_field,
    List.length_replicate]
  rfl

lemma lt_of_mem_sextets {a b c v : Nat} (hv : v ∈ sextets a b c) : v < 64 := by
  simp only [sextets, List.mem_cons, List.not_mem_nil, or_false] at hv
  omega

lemma base64Chars_getD : ∀ v < 64, base64Chars.getD v 0 = alphabetChar v := by
  decide +kernel

/-- `base64_chars` is the alphabet. -/
lemma map_base64Char_encodeGroup (a b c : UInt8) :
    (encodeGroup a b c).map base64Char =
      (sextets a.toNat b.toNat c.toNat).map alphabetChar := by
  have hmap : (encodeGroup a b c).map base64Char =
      (byteValues (encodeGroup a b c)).map fun v => base64Chars.getD v 0 := by
    rw [byteValues, List.map_map]
    rfl
  rw [hmap, toNat_encodeGroup]
  apply List.map_congr_left
  intro v hv
  exact base64Chars_getD v (lt_of_mem_sextets hv)

lemma base64Text_three (a b c : UInt8) (rest : List UInt8) :
    base64Text (a :: b :: c :: rest) = (encodeGroup a b c).map base64Char ++ base64Text rest := by
  have hdigits : base64Digits (a :: b :: c :: rest) =
      (encodeGroup a b c).map base64Char ++ base64Digits rest := by
    rw [map_base64Char_encodeGroup, base64Digits, byteValues, List.map_cons, List.map_cons,
      List.map_cons, recode_three, List.map_append]
    rfl
  have hlength : (base64Digits (a :: b :: c :: rest)).length % 4 =
      (base64Digits rest).length % 4 := by
    rw [hdigits, List.length_append]
    exact Nat.add_mod_left 4 _
  rw [base64Text, hlength, hdigits, List.append_assoc, base64Text]

/-! ### The encoders -/

/-- The loop appends what is the text up to the group that is begun. -/
lemma foldl_push (ret bytes : List UInt8) :
    (bytes.foldl Base64Encoder.push ⟨[], ret⟩).finish = ret ++ base64Text bytes := by
  match bytes with
  | [] =>
    have htext : base64Text [] = [] := by
      simp [base64Text, base64Digits, byteValues, recode, bits]
    rw [htext, List.append_nil]
    rfl
  | [a] =>
    have htext : base64Text [a] = ((encodeGroup a 0 0).take 2).map base64Char ++ [0x3d, 0x3d] := by
      rw [List.map_take, map_base64Char_encodeGroup, base64Text, base64Digits, byteValues,
        List.map_singleton, recode_one, ← List.map_take]
      rfl
    rw [htext, ← List.append_assoc]
    rfl
  | [a, b] =>
    have htext : base64Text [a, b] = ((encodeGroup a b 0).take 3).map base64Char ++ [0x3d] := by
      rw [List.map_take, map_base64Char_encodeGroup, base64Text, base64Digits, byteValues,
        List.map_cons, List.map_singleton, recode_two, ← List.map_take]
      rfl
    rw [htext, ← List.append_assoc]
    rfl
  | a :: b :: c :: rest =>
    have hpush : [a, b, c].foldl Base64Encoder.push ⟨[], ret⟩ =
        ⟨[], ret ++ (encodeGroup a b c).map base64Char⟩ := rfl
    have hsplit : a :: b :: c :: rest = [a, b, c] ++ rest := rfl
    rw [hsplit, List.foldl_append, hpush, foldl_push, List.append_assoc, ← base64Text_three]
    rfl

/-- Both encoders give the text of RFC 4648; `base64_encode` ends it with a zero. -/
theorem base64_encoders (x : List UInt8) :
    base64EncodeString x = base64Text x ∧ base64Encode x = base64Text x ++ [0] ∧
      (base64Text x).length = 4 * ((x.length + 2) / 3) := by
  have hencode := foldl_push [] x
  rw [List.nil_append] at hencode
  refine ⟨hencode, ?_, length_base64Text x⟩
  rw [base64Encode, hencode]

end GifTools
