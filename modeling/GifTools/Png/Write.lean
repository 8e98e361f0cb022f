import GifTools.Core.Checksum
import GifTools.Core.Predict
import GifTools.Png.Zlib
import Mathlib.Data.UInt

/-!
# The PNG writer

`stbi_write_png_to_mem` of `stb_image_write`: each row is written as differences from one of five
predictions, the rows are compressed, and three chunks are put around them. The global variables of
the writer are the fields of `StbiWrite`.
-/

namespace GifTools

/-! ### Check sums and numbers -/

def crcTable : List (BitVec 32) :=
  [
    0x00000000, 0x77073096, 0xEE0E612C, 0x990951BA, 0x076DC419, 0x706AF48F, 0xE963A535, 0x9E6495A3,
    0x0eDB8832, 0x79DCB8A4, 0xE0D5E91E, 0x97D2D988, 0x09B64C2B, 0x7EB17CBD, 0xE7B82D07, 0x90BF1D91,
    0x1DB71064, 0x6AB020F2, 0xF3B97148, 0x84BE41DE, 0x1ADAD47D, 0x6DDDE4EB, 0xF4D4B551, 0x83D385C7,
    0x136C9856, 0x646BA8C0, 0xFD62F97A, 0x8A65C9EC, 0x14015C4F, 0x63066CD9, 0xFA0F3D63, 0x8D080DF5,
    0x3B6E20C8, 0x4C69105E, 0xD56041E4, 0xA2677172, 0x3C03E4D1, 0x4B04D447, 0xD20D85FD, 0xA50AB56B,
    0x35B5A8FA, 0x42B2986C, 0xDBBBC9D6, 0xACBCF940, 0x32D86CE3, 0x45DF5C75, 0xDCD60DCF, 0xABD13D59,
    0x26D930AC, 0x51DE003A, 0xC8D75180, 0xBFD06116, 0x21B4F4B5, 0x56B3C423, 0xCFBA9599, 0xB8BDA50F,
    0x2802B89E, 0x5F058808, 0xC60CD9B2, 0xB10BE924, 0x2F6F7C87, 0x58684C11, 0xC1611DAB, 0xB6662D3D,
    0x76DC4190, 0x01DB7106, 0x98D220BC, 0xEFD5102A, 0x71B18589, 0x06B6B51F, 0x9FBFE4A5, 0xE8B8D433,
    0x7807C9A2, 0x0F00F934, 0x9609A88E, 0xE10E9818, 0x7F6A0DBB, 0x086D3D2D, 0x91646C97, 0xE6635C01,
    0x6B6B51F4, 0x1C6C6162, 0x856530D8, 0xF262004E, 0x6C0695ED, 0x1B01A57B, 0x8208F4C1, 0xF50FC457,
    0x65B0D9C6, 0x12B7E950, 0x8BBEB8EA, 0xFCB9887C, 0x62DD1DDF, 0x15DA2D49, 0x8CD37CF3, 0xFBD44C65,
    0x4DB26158, 0x3AB551CE, 0xA3BC0074, 0xD4BB30E2, 0x4ADFA541, 0x3DD895D7, 0xA4D1C46D, 0xD3D6F4FB,
    0x4369E96A, 0x346ED9FC, 0xAD678846, 0xDA60B8D0, 0x44042D73, 0x33031DE5, 0xAA0A4C5F, 0xDD0D7CC9,
    0x5005713C, 0x270241AA, 0xBE0B1010, 0xC90C2086, 0x5768B525, 0x206F85B3, 0xB966D409, 0xCE61E49F,
    0x5EDEF90E, 0x29D9C998, 0xB0D09822, 0xC7D7A8B4, 0x59B33D17, 0x2EB40D81, 0xB7BD5C3B, 0xC0BA6CAD,
    0xEDB88320, 0x9ABFB3B6, 0x03B6E20C, 0x74B1D29A, 0xEAD54739, 0x9DD277AF, 0x04DB2615, 0x73DC1683,
    0xE3630B12, 0x94643B84, 0x0D6D6A3E, 0x7A6A5AA8, 0xE40ECF0B, 0x9309FF9D, 0x0A00AE27, 0x7D079EB1,
    0xF00F9344, 0x8708A3D2, 0x1E01F268, 0x6906C2FE, 0xF762575D, 0x806567CB, 0x196C3671, 0x6E6B06E7,
    0xFED41B76, 0x89D32BE0, 0x10DA7A5A, 0x67DD4ACC, 0xF9B9DF6F, 0x8EBEEFF9, 0x17B7BE43, 0x60B08ED5,
    0xD6D6A3E8, 0xA1D1937E, 0x38D8C2C4, 0x4FDFF252, 0xD1BB67F1, 0xA6BC5767, 0x3FB506DD, 0x48B2364B,
    0xD80D2BDA, 0xAF0A1B4C, 0x36034AF6, 0x41047A60, 0xDF60EFC3, 0xA867DF55, 0x316E8EEF, 0x4669BE79,
    0xCB61B38C, 0xBC66831A, 0x256FD2A0, 0x5268E236, 0xCC0C7795, 0xBB0B4703, 0x220216B9, 0x5505262F,
    0xC5BA3BBE, 0xB2BD0B28, 0x2BB45A92, 0x5CB36A04, 0xC2D7FFA7, 0xB5D0CF31, 0x2CD99E8B, 0x5BDEAE1D,
    0x9B64C2B0, 0xEC63F226, 0x756AA39C, 0x026D930A, 0x9C0906A9, 0xEB0E363F, 0x72076785, 0x05005713,
    0x95BF4A82, 0xE2B87A14, 0x7BB12BAE, 0x0CB61B38, 0x92D28E9B, 0xE5D5BE0D, 0x7CDCEFB7, 0x0BDBDF21,
    0x86D3D2D4, 0xF1D4E242, 0x68DDB3F8, 0x1FDA836E, 0x81BE16CD, 0xF6B9265B, 0x6FB077E1, 0x18B74777,
    0x88085AE6, 0xFF0F6A70, 0x66063BCA, 0x11010B5C, 0x8F659EFF, 0xF862AE69, 0x616BFFD3, 0x166CCF45,
    0xA00AE278, 0xD70DD2EE, 0x4E048354, 0x3903B3C2, 0xA7672661, 0xD06016F7, 0x4969474D, 0x3E6E77DB,
    0xAED16A4A, 0xD9D65ADC, 0x40DF0B66, 0x37D83BF0, 0xA9BCAE53, 0xDEBB9EC5, 0x47B2CF7F, 0x30B5FFE9,
    0xBDBDF21C, 0xCABAC28A, 0x53B39330, 0x24B4A3A6, 0xBAD03605, 0xCDD70693, 0x54DE5729, 0x23D967BF,
    0xB3667A2E, 0xC4614AB8, 0x5D681B02, 0x2A6F2B94, 0xB40BBE37, 0xC30C8EA1, 0x5A05DF1B, 0x2D02EF8D]

def stbiwCrc32 (buffer : List UInt8) : BitVec 32 :=
  ~~~ buffer.foldl
    (fun crc b => crc >>> 8 ^^^ crcTable.getD (b.toNat ^^^ (crc &&& 0xff#32).toNat) 0) (~~~ 0#32)

/-- Four bytes, the most significant first. -/
def stbiwWp32 (v : Nat) : List UInt8 :=
  [UInt8.ofNat (v >>> 24), UInt8.ofNat (v >>> 16), UInt8.ofNat (v >>> 8), UInt8.ofNat v]

def stbiwWptag (s : String) : List UInt8 := s.toList.map fun c => UInt8.ofNat c.toNat

/-- The check sum of the last `len` bytes of `data` and the tag in front of them. -/
def stbiwWpcrc (data : List UInt8) (len : Nat) : List UInt8 :=
  data ++ stbiwWp32 (stbiwCrc32 (data.drop (data.length - len - 4))).toNat

/-! ### Filters -/

/-- `avgFirst` and `paethFirst` stand for `avg` and `paeth` in the first row. -/
inductive PngFilter where
  | none | sub | up | avg | paeth | avgFirst | paethFirst
  deriving DecidableEq

/-- One of `a`, `b` and `c`, the one that is nearest to `a + b - c`. -/
def paethOf (a b c : UInt8) : UInt8 :=
  let p : Int := a.toNat + b.toNat - c.toNat
  let pa := (p - a.toNat).natAbs
  let pb := (p - b.toNat).natAbs
  let pc := (p - c.toNat).natAbs
  if pa ≤ pb ∧ pa ≤ pc then a else if pb ≤ pc then b else c

def stbiwPaeth (a b c : UInt8) : UInt8 := paethOf a b c

/-- `mapping` -/
def pngMapping : List PngFilter := [.none, .sub, .up, .avg, .paeth]

/-- `firstmap` -/
def pngFirstmap : List PngFilter := [.none, .sub, .none, .avgFirst, .paethFirst]

/-- A byte of the first pixel, `z[i]`; above it is `up`. -/
def encodeFirst (type : PngFilter) (z up : UInt8) : UInt8 :=
  match type with
  | .none => z
  | .sub => z
  | .up => z - up
  | .avg => z - up >>> 1
  | .paeth => z - stbiwPaeth 0 up 0
  | .avgFirst => z
  | .paethFirst => z

/-- A byte of another pixel; `left` is `z[i-n]`, and `upLeft` lies above that. -/
def encodeRest (type : PngFilter) (z left up upLeft : UInt8) : UInt8 :=
  match type with
  | .none => z
  | .sub => z - left
  | .up => z - up
  | .avg => z - UInt8.ofNat ((left.toNat + up.toNat) >>> 1)
  | .paeth => z - stbiwPaeth left up upLeft
  | .avgFirst => z - left >>> 1
  | .paethFirst => z - stbiwPaeth left 0 0

structure StbiWrite where
  stbi_write_png_compression_level : Nat
  stbi__flip_vertically_on_write : Bool
  stbi_write_force_png_filter : Int

/-- As they are initialised. -/
def StbiWrite.default : StbiWrite := ⟨8, false, -1⟩

/-- Where a row begins. -/
def rowStart (flip : Bool) (stride_bytes height y : Nat) : Nat :=
  stride_bytes * (if flip then height - 1 - y else y)

/-- `k - signed_stride` -/
def lessStride (flip : Bool) (stride_bytes k : Nat) : Nat :=
  if flip then k + stride_bytes else k - stride_bytes

def lineType (y filter_type : Nat) : PngFilter :=
  (if y ≠ 0 then pngMapping else pngFirstmap).getD filter_type .none

/-- What is put into `line_buffer`. -/
def stbiwEncodePngLine (flip : Bool) (pixels : List UInt8)
    (stride_bytes width height y n filter_type : Nat) : List UInt8 :=
  let type := lineType y filter_type
  let z := rowStart flip stride_bytes height y
  let up (i : Nat) := byteAt pixels (lessStride flip stride_bytes (z + i))
  if type = .none then (List.range (width * n)).map fun i => byteAt pixels (z + i)
  else
    (List.range n).map (fun i => encodeFirst type (byteAt pixels (z + i)) (up i)) ++
      (List.range' n (width * n - n)).map fun i =>
        encodeRest type (byteAt pixels (z + i)) (byteAt pixels (z + i - n)) (up i) (up (i - n))

/-- `est += abs((signed char) line_buffer[i]);` -/
def addEstimate (est : Int) (b : UInt8) : Except StbiFailure Int :=
  let est := est + b.toBitVec.toInt.natAbs
  if est < 2 ^ 31 then .ok est else .error .overflow

def estimate (line_buffer : List UInt8) : Except StbiFailure Int := line_buffer.foldlM addEstimate 0

/-- `best_filter` and `best_filter_val` after a filter. -/
def betterFilter (encode : Nat → List UInt8) (best : Nat × Int) (filter_type : Nat) :
    Except StbiFailure (Nat × Int) := do
  let est ← estimate (encode filter_type)
  return if est < best.2 then (filter_type, est) else best

/-- The filter of a row: the one that is forced, or the best one. -/
def rowFilter (force_filter : Int) (encode : Nat → List UInt8) : Except StbiFailure Nat :=
  if 0 ≤ force_filter then .ok force_filter.toNat
  else ((List.range 5).foldlM (betterFilter encode) (0, 0x7fffffff)).map Prod.fst

/-! ### The file -/

def pngCtype : List Int := [-1, 0, 4, 2, 6]

/-- A row of `filt`. -/
def filtRow (globals : StbiWrite) (pixels : List UInt8) (stride_bytes x y n j : Nat) :
    Except StbiFailure (List UInt8) :=
  let force_filter :=
    if 5 ≤ globals.stbi_write_force_png_filter then -1 else globals.stbi_write_force_png_filter
  let encode :=
    stbiwEncodePngLine globals.stbi__flip_vertically_on_write pixels stride_bytes x y j n
  (rowFilter force_filter encode).map fun filter_type =>
    UInt8.ofNat filter_type :: encode filter_type

/-- What is compressed. -/
def pngFilt (globals : StbiWrite) (pixels : List UInt8) (stride_bytes x y n : Nat) :
    Except StbiFailure (List UInt8) :=
  ((List.range y).mapM (filtRow globals pixels stride_bytes x y n)).map List.flatten

/-- `n` is at most four; allocations succeed. -/
def stbiWritePngToMem (globals : StbiWrite) (pixels : List UInt8) (stride_bytes x y n : Nat) :
    Except StbiFailure (List UInt8) := do
  let stride_bytes := if stride_bytes = 0 then x * n else stride_bytes
  if 2 ^ 31 ≤ (x * n + 1) * y then throw .overflow
  let filt ← pngFilt globals pixels stride_bytes x y n
  let zlib ← stbiZlibCompress filt globals.stbi_write_png_compression_level
  let o : List UInt8 := [137, 80, 78, 71, 13, 10, 26, 10]
  let o := o ++ stbiwWp32 13 ++ stbiwWptag "IHDR" ++ stbiwWp32 x ++ stbiwWp32 y ++
    [8, UInt8.ofInt (pngCtype.getD n 0), 0, 0, 0]
  let o := stbiwWpcrc o 13
  let o := stbiwWpcrc (o ++ stbiwWp32 zlib.length ++ stbiwWptag "IDAT" ++ zlib) zlib.length
  return stbiwWpcrc (o ++ stbiwWp32 0 ++ stbiwWptag "IEND") 0

/-- `StbiWriterFn` -/
def stbiWriterFn (contents data : List UInt8) : List UInt8 := contents ++ data

/-- What the writer of GifTools holds in the end. -/
def stbiWritePngToFunc (globals : StbiWrite) (contents : List UInt8) (x y comp : Nat)
    (data : List UInt8) (stride_bytes : Nat) : Except StbiFailure (List UInt8) :=
  (stbiWritePngToMem globals data stride_bytes x y comp).map (stbiWriterFn contents)

end GifTools
