import GifTools.Base64.Decode
import GifTools.Gif.Builder

/-!
# Buffers of base64 text

`bufferToStringBase64` and `bufferFromStringBase64`, as they make the contents of a buffer from
those of another. Each undoes the other as long as the text has fewer than 2³¹ characters before
its padding, which is as far as the index of `base64_decode` goes.
-/

namespace GifTools

open Radix ScratchDecoder

/-- `base64_encode`, with what `push_back` checks for every character. -/
def encodeVector (maxSize : Nat) (bytes_to_encode : List UInt8) : Except Base64Fault (List UInt8) :=
  if maxSize < (base64Encode bytes_to_encode).length then .error .length
  else .ok (base64Encode bytes_to_encode)

/-- `bufferToStringBase64`: the contents of the buffer that is made, if one is. -/
def bufferToStringBase64 (maxSize : Nat) (contents : List UInt8) :
    Except Base64Fault (Option (List UInt8)) :=
  if contents = [] then .ok none
  else do
    let encodedBuffer ← encodeVector maxSize contents
    return bufferFromVector encodedBuffer

/-- `bufferFromStringBase64`, which takes the last byte for the zero. What is decoded is shorter
than the text, so that `push_back` has room. -/
def bufferFromStringBase64 (contents : List UInt8) : Except Base64Fault (Option (List UInt8)) :=
  if contents = [] then .ok none
  else do
    let decodedBuffer ← ScratchDecoder.base64Decode contents (contents.length - 1)
    return bufferFromVector decodedBuffer

/-! ### The text of some bytes is decoded to them -/

lemma alphabetValue_base64Digits {bytes : List UInt8} {c : UInt8} (hc : c ∈ base64Digits bytes) :
    (alphabetValue c).isSome = true := by
  obtain ⟨v, hv, rfl⟩ := List.mem_map.mp hc
  rw [alphabetValue_alphabetChar v (lt_of_mem_recode (by decide) hv)]
  rfl

/-- What is behind the digits is not decoded. -/
lemma alphabetPrefix_base64Digits_append {bytes behind : List UInt8}
    (hbehind : ∀ c ∈ behind, alphabetValue c = none) :
    alphabetPrefix (base64Digits bytes ++ behind) = base64Digits bytes := by
  have hnone : behind.takeWhile (fun c => (alphabetValue c).isSome) = [] := by
    cases behind with
    | nil => rfl
    | cons c behind => simp [hbehind c List.mem_cons_self]
  rw [alphabetPrefix, List.takeWhile_append_of_pos fun c hc => alphabetValue_base64Digits hc, hnone,
    List.append_nil]

lemma alphabetPrefix_base64Text (bytes : List UInt8) :
    alphabetPrefix (base64Text bytes) = base64Digits bytes := by
  apply alphabetPrefix_base64Digits_append
  intro c hc
  rw [(List.mem_replicate.mp hc).2]
  rfl

lemma indices_base64Digits (bytes : List UInt8) :
    indices (base64Digits bytes) = recode 8 6 (byteValues bytes) := by
  rw [indices, byteValues, base64Digits, List.map_map, List.map_map]
  conv_rhs => rw [← List.map_id (recode 8 6 (byteValues bytes))]
  apply List.map_congr_left
  intro v hv
  have hvalue := alphabetValue_alphabetChar v (lt_of_mem_recode (by decide) hv)
  rw [alphabetValue_eq] at hvalue
  split at hvalue
  · exact Option.some.inj hvalue
  · cases hvalue

lemma base64Decode_base64Text (bytes : List UInt8) :
    GifTools.base64Decode (base64Text bytes) = bytes := by
  apply (List.map_inj_right fun _ _ => UInt8.toNat_inj.mp).mp
  change byteValues _ = byteValues bytes
  rw [byteValues_base64Decode, alphabetPrefix_base64Text, indices_base64Digits,
    readBack_recode (by decide) (by decide)]
  intro v hv
  obtain ⟨c, -, rfl⟩ := List.mem_map.mp hv
  exact UInt8.toNat_lt c

lemma length_digits_base64Text (bytes : List UInt8) :
    (digits (base64Text bytes)).length = (8 * bytes.length + 5) / 6 := by
  rw [digits_eq, alphabetPrefix_base64Text, length_base64Digits]

/-! ### Buffers -/

/-- The buffer of the text of some bytes, with its zero. -/
def textBuffer (bytes : List UInt8) : List UInt8 := base64Text bytes ++ [0]

lemma textBuffer_ne_nil (bytes : List UInt8) : textBuffer bytes ≠ [] := by
  simp [textBuffer]

lemma length_textBuffer (bytes : List UInt8) :
    (textBuffer bytes).length = 4 * ((bytes.length + 2) / 3) + 1 := by
  rw [textBuffer, List.length_append, length_base64Text, List.length_singleton]

/-- The zero is not decoded either. -/
lemma alphabetPrefix_textBuffer (bytes : List UInt8) :
    alphabetPrefix (textBuffer bytes) = alphabetPrefix (base64Text bytes) := by
  rw [alphabetPrefix_base64Text, textBuffer, base64Text, List.append_assoc]
  apply alphabetPrefix_base64Digits_append
  intro c hc
  rcases List.mem_append.mp hc with hc | hc
  · rw [(List.mem_replicate.mp hc).2]
    rfl
  · rw [List.mem_singleton.mp hc]
    rfl

lemma base64Encode_eq (bytes : List UInt8) : base64Encode bytes = textBuffer bytes := by
  have hencode := foldl_push [] bytes
  rw [List.nil_append] at hencode
  rw [base64Encode, hencode, textBuffer]

variable {maxSize : Nat} {bytes : List UInt8}

lemma encodeVector_ok (hlength : (textBuffer bytes).length ≤ maxSize) :
    encodeVector maxSize bytes = .ok (textBuffer bytes) := by
  rw [encodeVector, base64Encode_eq, if_neg hlength.not_gt]

lemma bufferToStringBase64_ok (hne : bytes ≠ []) (hlength : (textBuffer bytes).length ≤ maxSize) :
    bufferToStringBase64 maxSize bytes = .ok (some (textBuffer bytes)) := by
  rw [bufferToStringBase64, if_neg hne, encodeVector_ok hlength]
  exact congrArg _ (if_neg (textBuffer_ne_nil bytes))

lemma bufferToStringBase64_error (hne : bytes ≠ [])
    (hlength : maxSize < (textBuffer bytes).length) :
    bufferToStringBase64 maxSize bytes = .error .length := by
  rw [bufferToStringBase64, if_neg hne, encodeVector, base64Encode_eq, if_pos hlength]
  rfl

lemma bufferFromStringBase64_textBuffer (bytes : List UInt8) :
    bufferFromStringBase64 (textBuffer bytes) =
      (ScratchDecoder.base64Decode (textBuffer bytes) (base64Text bytes).length).map
        bufferFromVector := by
  rw [bufferFromStringBase64, if_neg (textBuffer_ne_nil bytes)]
  have hlength : (textBuffer bytes).length - 1 = (base64Text bytes).length := by
    rw [textBuffer, List.length_append, List.length_singleton, Nat.add_sub_cancel]
  rw [hlength]
  cases ScratchDecoder.base64Decode (textBuffer bytes) (base64Text bytes).length <;> rfl

lemma bufferFromStringBase64_ok (hne : bytes ≠ [])
    (hdigits : (digits (base64Text bytes)).length < 2 ^ 31) :
    bufferFromStringBase64 (textBuffer bytes) = .ok (some bytes) := by
  have hdecode : ScratchDecoder.base64Decode (textBuffer bytes) (base64Text bytes).length =
      .ok bytes := by
    rw [base64Decode_eq (show textBuffer bytes = base64Text bytes ++ [0] from rfl) hdigits,
      base64Decode_base64Text]
  rw [bufferFromStringBase64_textBuffer, hdecode]
  simp [Except.map, bufferFromVector, hne]

lemma bufferFromStringBase64_error (hdigits : 2 ^ 31 ≤ (digits (base64Text bytes)).length) :
    bufferFromStringBase64 (textBuffer bytes) = .error .overflow := by
  have hdecode : ScratchDecoder.base64Decode (textBuffer bytes) (base64Text bytes).length =
      .error .overflow :=
    base64Decode_overflow rfl hdigits
  rw [bufferFromStringBase64_textBuffer, hdecode]
  rfl

/-! ### Round trips -/

/-- Encoding a buffer and decoding what comes out gives its bytes. -/
def EncodesBack (maxSize : Nat) (b : List UInt8) : Prop :=
  ∃ t, bufferToStringBase64 maxSize b = .ok (some t) ∧ bufferFromStringBase64 t = .ok (some b)

/-- Decoding a buffer and encoding what comes out gives its text. -/
def DecodesBack (maxSize : Nat) (t : List UInt8) : Prop :=
  ∃ b, bufferFromStringBase64 t = .ok (some b) ∧ bufferToStringBase64 maxSize b = .ok (some t)

/-- A zero-terminated buffer with the padded text of at least one byte. -/
def IsText (t : List UInt8) : Prop := ∃ b, b ≠ [] ∧ t = textBuffer b

lemma encodesBack_iff {b : List UInt8} (hne : b ≠ []) :
    EncodesBack maxSize b ↔
      (textBuffer b).length ≤ maxSize ∧ (digits (base64Text b)).length < 2 ^ 31 := by
  constructor
  · rintro ⟨t, hencode, hdecode⟩
    rcases Nat.lt_or_ge maxSize (textBuffer b).length with hlong | hlength
    · rw [bufferToStringBase64_error hne hlong] at hencode
      cases hencode
    · rw [bufferToStringBase64_ok hne hlength] at hencode
      cases hencode
      refine ⟨hlength, Nat.lt_of_not_ge fun hdigits => ?_⟩
      rw [bufferFromStringBase64_error hdigits] at hdecode
      cases hdecode
  · rintro ⟨hlength, hdigits⟩
    exact ⟨_, bufferToStringBase64_ok hne hlength, bufferFromStringBase64_ok hne hdigits⟩

lemma decodesBack_iff {b : List UInt8} (hne : b ≠ []) (hlength : (textBuffer b).length ≤ maxSize) :
    DecodesBack maxSize (textBuffer b) ↔ (digits (base64Text b)).length < 2 ^ 31 := by
  constructor
  · rintro ⟨b', hdecode, -⟩
    refine Nat.lt_of_not_ge fun hdigits => ?_
    rw [bufferFromStringBase64_error hdigits] at hdecode
    cases hdecode
  · intro hdigits
    exact ⟨b, bufferFromStringBase64_ok hne hdigits, bufferToStringBase64_ok hne hlength⟩

/-- Both round trips, for vectors of up to `maxSize` bytes: they are made exactly by buffers whose
text the vector has room for, and the index of the decoder. -/
theorem base64_round_trips (maxSize : Nat) :
    (∀ b : List UInt8, b ≠ [] →
      (EncodesBack maxSize b ↔
        4 * ((b.length + 2) / 3) + 1 ≤ maxSize ∧ b.length < 3 * 2 ^ 29)) ∧
    ∀ t, IsText t → t.length ≤ maxSize →
      (DecodesBack maxSize t ↔ (alphabetPrefix t).length < 2 ^ 31) := by
  constructor
  · intro b hne
    rw [encodesBack_iff hne, length_textBuffer, length_digits_base64Text]
    omega
  · rintro t ⟨b, hne, rfl⟩ hlength
    rw [decodesBack_iff hne hlength, alphabetPrefix_textBuffer, digits_eq]

/-- One byte is encoded and decoded, and so is its text, wherever vectors hold five bytes. -/
theorem base64_round_trips_one :
    EncodesBack 5 [0x4d] ∧ DecodesBack 5 (textBuffer [0x4d]) := by
  obtain ⟨hencode, hdecode⟩ := base64_round_trips 5
  have htext : textBuffer [0x4d] = [0x54, 0x51, 0x3d, 0x3d, 0] := by
    rw [← base64Encode_eq]
    decide +kernel
  have hlength : (alphabetPrefix (textBuffer [0x4d])).length < 2 ^ 31 := by
    rw [htext]
    decide
  exact ⟨(hencode [0x4d] (by simp)).mpr (by decide),
    (hdecode _ ⟨[0x4d], by simp, rfl⟩ (by rw [htext]; decide)).mpr hlength⟩

lemma not_encodesBack_replicate {n : Nat} (hn : 3 * 2 ^ 29 ≤ n) :
    ¬ EncodesBack maxSize (List.replicate n 0) := by
  intro h
  have hne : List.replicate n (0 : UInt8) ≠ [] :=
    List.ne_nil_of_length_pos (by rw [List.length_replicate]; omega)
  obtain ⟨-, hdigits⟩ := (encodesBack_iff hne).mp h
  rw [length_digits_base64Text, List.length_replicate] at hdigits
  omega

/-- The text of 2³¹ - 1 zeros is not decoded, on a machine of 64 bits or of 32. -/
theorem base64_round_trips_long :
    ¬ (∀ b : List UInt8, b ≠ [] → b.length < 2 ^ 31 → EncodesBack (2 ^ 63 - 1) b) ∧
      ¬ ∀ b : List UInt8, b ≠ [] → b.length < 2 ^ 31 → EncodesBack (2 ^ 31 - 1) b := by
  have hlength : (List.replicate (2 ^ 31 - 1) (0 : UInt8)).length = 2 ^ 31 - 1 :=
    List.length_replicate
  have hne : List.replicate (2 ^ 31 - 1) (0 : UInt8) ≠ [] :=
    List.ne_nil_of_length_pos (by rw [hlength]; decide)
  have hlt : (List.replicate (2 ^ 31 - 1) (0 : UInt8)).length < 2 ^ 31 := by
    rw [hlength]
    decide
  exact ⟨fun h => not_encodesBack_replicate (by decide) (h _ hne hlt),
    fun h => not_encodesBack_replicate (by decide) (h _ hne hlt)⟩

end GifTools
