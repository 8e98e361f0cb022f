import Mathlib.Tactic.Common
import Mathlib.Algebra.Order.Ring.Nat

/-!
# Managed objects and their ids

`ManagedObjId` is one 32-bit word seen through three bit-fields: 20 bits of `identifier`, 8 bits of
`generation` and 4 bits of `type`, the first field in the low bits. A `ManagedObj` carries such an
id, its class, and the handles (`UniqueManagedObj` members) its destructor releases.
-/

namespace GifTools

/-! ### Ids -/

/-- `ManagedObjIdInt`, a `uint32_t`. -/
abbrev ManagedObjIdInt := BitVec 32

@[ext] structure ManagedObjId where
  identifier : BitVec 20
  generation : BitVec 8
  type : BitVec 4
  deriving DecidableEq

/-- The other view of the union: the whole word. -/
def ManagedObjId.composite (id : ManagedObjId) : ManagedObjIdInt :=
  id.type ++ (id.generation ++ id.identifier)

/-- The id whose word is given, `ManagedObjId{.composite = w}`. -/
def ManagedObjId.ofComposite (w : ManagedObjIdInt) : ManagedObjId :=
  ⟨w.extractLsb' 0 20, w.extractLsb' 20 8, w.extractLsb' 28 4⟩

/-- `InvalidId`, the largest `uint32_t`. -/
def InvalidId : ManagedObjIdInt := BitVec.allOnes 32

def managedObjIdMake : ManagedObjId := .ofComposite InvalidId

lemma ManagedObjId.toNat_composite (id : ManagedObjId) :
    id.composite.toNat =
      id.type.toNat * 2 ^ 28 + id.generation.toNat * 2 ^ 20 + id.identifier.toNat := by
  have hi := id.identifier.isLt
  have hg := id.generation.isLt
  rw [ManagedObjId.composite, BitVec.toNat_append, BitVec.toNat_append,
    ← Nat.shiftLeft_add_eq_or_of_lt hi, ← Nat.shiftLeft_add_eq_or_of_lt,
    Nat.shiftLeft_eq, Nat.shiftLeft_eq]
  · omega
  · rw [Nat.shiftLeft_eq]
    omega

@[simp] lemma ManagedObjId.ofComposite_composite (id : ManagedObjId) :
    ManagedObjId.ofComposite id.composite = id := by
  have hi := id.identifier.isLt
  have hg := id.generation.isLt
  have ht := id.type.isLt
  ext1 <;> apply BitVec.eq_of_toNat_eq <;>
    simp only [ofComposite, BitVec.extractLsb'_toNat, toNat_composite, Nat.shiftRight_eq_div_pow]
      <;> omega

@[simp] lemma ManagedObjId.composite_ofComposite (w : ManagedObjIdInt) :
    (ManagedObjId.ofComposite w).composite = w := by
  have hw := w.isLt
  apply BitVec.eq_of_toNat_eq
  simp only [toNat_composite, ofComposite, BitVec.extractLsb'_toNat, Nat.shiftRight_eq_div_pow]
  omega

lemma ManagedObjId.composite_injective : Function.Injective ManagedObjId.composite :=
  Function.LeftInverse.injective ofComposite_composite

@[simp] lemma ManagedObjId.composite_inj {a b : ManagedObjId} :
    a.composite = b.composite ↔ a = b :=
  composite_injective.eq_iff

/-- `managedObjIdEqual`: two ids are equal when their words are. -/
def managedObjIdEqual (a b : ManagedObjId) : Bool := a.composite == b.composite

@[simp] lemma managedObjIdEqual_self (a : ManagedObjId) : managedObjIdEqual a a = true := by
  simp [managedObjIdEqual]

/-! ### Types -/

inductive BuiltinManagedType where
  | undefined | buffer | file | image | gifBuilder
  | ffmpegInputStream | ffmpegVideoFrame | ffmpegVideoStream | count
  deriving DecidableEq

/-- The enumerators count from zero; the underlying type is `uint8_t`. -/
def BuiltinManagedType.val : BuiltinManagedType → BitVec 8
  | .undefined => 0
  | .buffer => 1
  | .file => 2
  | .image => 3
  | .gifBuilder => 4
  | .ffmpegInputStream => 5
  | .ffmpegVideoFrame => 6
  | .ffmpegVideoStream => 7
  | .count => 8

/-- The classes `T` for which `managedType<T>` is specialised (an implementation class such as
`ConcreteBuffer` shares the type of its interface). -/
inductive ManagedClass where
  | buffer | file | image | gifBuilder | ffmpegInputStream | ffmpegVideoFrame | ffmpegVideoStream
  deriving DecidableEq

def managedType : ManagedClass → BitVec 8
  | .buffer => BuiltinManagedType.buffer.val
  | .file => BuiltinManagedType.file.val
  | .image => BuiltinManagedType.image.val
  | .gifBuilder => BuiltinManagedType.gifBuilder.val
  | .ffmpegInputStream => BuiltinManagedType.ffmpegInputStream.val
  | .ffmpegVideoFrame => BuiltinManagedType.ffmpegVideoFrame.val
  | .ffmpegVideoStream => BuiltinManagedType.ffmpegVideoStream.val

/-- The type nibble of an id: `managedType<T>()` assigned to the 4-bit field. -/
def typeNibble (T : ManagedClass) : BitVec 4 := (managedType T).setWidth 4

/-- The nibble loses nothing: read back as an `int` it is the type again. -/
@[simp] lemma setWidth_typeNibble (T : ManagedClass) :
    (typeNibble T).setWidth 8 = managedType T := by
  cases T <;> decide

lemma managedType_injective : Function.Injective managedType := by
  intro T U h
  revert h
  cases T <;> cases U <;> decide

lemma typeNibble_pos (T : ManagedClass) : 0 < (typeNibble T).toNat := by
  cases T <;> decide

lemma typeNibble_lt (T : ManagedClass) : (typeNibble T).toNat < 8 := by
  cases T <;> decide

/-- A word whose type nibble is one of a class is positive as an `int32_t`. -/
lemma ManagedObjId.toInt_composite_pos {id : ManagedObjId} {T : ManagedClass}
    (h : id.type = typeNibble T) : 0 < id.composite.toInt := by
  have hpos := typeNibble_pos T
  have hlt := typeNibble_lt T
  have hi := id.identifier.isLt
  have hg := id.generation.isLt
  rw [← h] at hpos hlt
  rw [BitVec.toInt_eq_toNat_cond, ManagedObjId.toNat_composite]
  split <;> omega

/-! ### Objects -/

/-- Addresses of objects. `operator new` hands out one that no object ever had: a pointer to a
destroyed object is never a pointer to a later one. -/
abbrev Addr := Nat

structure ManagedObj where
  mObjId : ManagedObjId
  /-- The class `T` the object was made as. -/
  cls : ManagedClass
  /-- The handles kept in its members, in the order the destructor releases them. -/
  owned : List Addr

/-- What goes wrong when an operation does not return. -/
inductive Fault where
  /-- `std::vector::at` past the end. -/
  | outOfRange
  /-- A null pointer is dereferenced. -/
  | nullDeref
  /-- A pointer to a destroyed object is dereferenced. -/
  | dangling
  /-- The recursion bound of the model is reached (see `free_ne_fuel`). -/
  | fuel
  deriving DecidableEq

end GifTools
