import GifTools.Gif.BitStatus

/-!
# Base64

The two encoders share their loop: it collects three bytes, and appends four characters for every
three. The decoder collects four characters and appends three bytes for every four. What is left
of a group at the end gives fewer characters or bytes.
-/

namespace GifTools

/-- `base64_chars`. -/
def base64Chars : List UInt8 :=
  asciiBytes "ABCDEFGHIJKLMNOPQRSTUVWXYZabcdefghijklmnopqrstuvwxyz0123456789+/"

/-- `is_base64`, with `isalnum` of the C locale. -/
def isBase64 (c : UInt8) : Bool :=
  (0x30 ≤ c && c ≤ 0x39) || (0x41 ≤ c && c ≤ 0x5a) || (0x61 ≤ c && c ≤ 0x7a) || c == 0x2b ||
    c == 0x2f

/-- `base64_chars[i]`. -/
def base64Char (i : UInt8) : UInt8 := base64Chars.getD i.toNat 0

/-- `base64_chars.find(c) & 0xff`. -/
def base64Index (c : UInt8) : UInt8 := UInt8.ofNat (base64Chars.idxOf c)

/-! ### Encoding -/

/-- `char_array_4`, of the three bytes of `char_array_3`. -/
def encodeGroup (a b c : UInt8) : List UInt8 :=
  [(a &&& 0xfc) >>> 2, ((a &&& 0x03) <<< 4) + ((b &&& 0xf0) >>> 4),
    ((b &&& 0x0f) <<< 2) + ((c &&& 0xc0) >>> 6), c &&& 0x3f]

/-- The bytes collected in `char_array_3`, and `ret`. -/
structure Base64Encoder where
  char_array_3 : List UInt8
  ret : List UInt8

/-- One turn of the loop. -/
def Base64Encoder.push (s : Base64Encoder) (byte : UInt8) : Base64Encoder :=
  match s.char_array_3 ++ [byte] with
  | [a, b, c] => ⟨[], s.ret ++ (encodeGroup a b c).map base64Char⟩
  | char_array_3 => ⟨char_array_3, s.ret⟩

/-- What follows the loop: the rest of a group, filled up with zeros, and its padding. -/
def Base64Encoder.finish (s : Base64Encoder) : List UInt8 :=
  match s.char_array_3 with
  | [] => s.ret
  | char_array_3 =>
    let i := char_array_3.length
    let char_array_4 :=
      encodeGroup (char_array_3.getD 0 0) (char_array_3.getD 1 0) (char_array_3.getD 2 0)
    s.ret ++ (char_array_4.take (i + 1)).map base64Char ++ List.replicate (3 - i) 0x3d

/-- `base64_encode_string`. -/
def base64EncodeString (bytes_to_encode : List UInt8) : List UInt8 :=
  (bytes_to_encode.foldl Base64Encoder.push ⟨[], []⟩).finish

/-- `base64_encode`. -/
def base64Encode (bytes_to_encode : List UInt8) : List UInt8 :=
  (bytes_to_encode.foldl Base64Encoder.push ⟨[], []⟩).finish ++ [0]

/-! ### Decoding -/

/-- `char_array_3`, of the four indices in `char_array_4`. -/
def decodeGroup (a b c d : UInt8) : List UInt8 :=
  [(a <<< 2) + ((b &&& 0x30) >>> 4), ((b &&& 0x0f) <<< 4) + ((c &&& 0x3c) >>> 2),
    ((c &&& 0x03) <<< 6) + d]

/-- The characters collected in `char_array_4`, and `ret`. -/
structure Base64Decoder where
  char_array_4 : List UInt8
  ret : List UInt8

def Base64Decoder.push (s : Base64Decoder) (c : UInt8) : Base64Decoder :=
  match (s.char_array_4 ++ [c]).map base64Index with
  | [a, b, c, d] => ⟨[], s.ret ++ decodeGroup a b c d⟩
  | _ => ⟨s.char_array_4 ++ [c], s.ret⟩

/-- What follows the loop. Only bytes whose characters were there are appended. -/
def Base64Decoder.finish (s : Base64Decoder) : List UInt8 :=
  let char_array_4 := s.char_array_4.map base64Index
  s.ret ++ (decodeGroup (char_array_4.getD 0 0) (char_array_4.getD 1 0) (char_array_4.getD 2 0)
    (char_array_4.getD 3 0)).take (s.char_array_4.length - 1)

/-- `base64_decode`: the loop ends at the first character that is none of `base64_chars`. -/
def base64Decode (encoded_string : List UInt8) : List UInt8 :=
  ((encoded_string.takeWhile fun c => c != 0x3d && isBase64 c).foldl Base64Decoder.push
    ⟨[], []⟩).finish

end GifTools
