import GifTools.Core.Runs
import GifTools.Storage.Object

/-!
# The object storage

`ManagedObjStorage` keeps pages of 256 slots; a slot owns at most one object and counts the objects
it was given. The model carries the memory the storage lives in: `heap` maps the addresses of the
objects that exist to the objects, `fresh` is the next address `operator new` returns.

Freeing an object runs its destructor, which frees the objects it owns through the same storage.
`free` is recursive through the destructor, so it takes a bound on the depth; `liveBound` is always
enough.
-/

namespace GifTools

def PageLength : Nat := 256

/-- `std::array<Slot, PageLength>::at` takes these indices. -/
abbrev SlotIndex := Fin PageLength

structure Slot where
  managedObj : Option Addr
  generation : BitVec 32

structure ManagedObjStoragePage where
  mCachedFreeSlotCount : Nat
  mSlots : SlotIndex → Slot

structure ManagedObjStorage where
  mPages : List ManagedObjStoragePage
  heap : Addr → Option ManagedObj
  fresh : Addr

/-- `Slot{}`. -/
def Slot.empty : Slot := ⟨none, 0⟩

/-- `ManagedObjStoragePage{}`. -/
def ManagedObjStoragePage.new : ManagedObjStoragePage := ⟨PageLength, fun _ => .empty⟩

/-- The storage when the program starts: no page and no object. -/
def ManagedObjStorage.init : ManagedObjStorage := ⟨[], fun _ => none, 0⟩

/-! ### Positions -/

def managedIndex (pageIndex : Nat) (slotIndex : SlotIndex) : BitVec 32 :=
  BitVec.ofNat 32 (pageIndex * PageLength + slotIndex)

def pageIndex (identifier : BitVec 20) : Nat := identifier.toNat / PageLength

def slotIndex (identifier : BitVec 20) : SlotIndex :=
  ⟨identifier.toNat % PageLength, Nat.mod_lt _ (by decide)⟩

/-! ### Pages -/

/-- `ManagedObjStoragePage::freeSlotIndex`; `none` is `InvalidSlot`. -/
def ManagedObjStoragePage.freeSlotIndex (page : ManagedObjStoragePage) :
    ManagedObjStoragePage × Option SlotIndex :=
  if page.mCachedFreeSlotCount ≠ 0 then
    match (List.finRange PageLength).find? fun i => (page.mSlots i).managedObj.isNone with
    | some i => ({ page with mCachedFreeSlotCount := page.mCachedFreeSlotCount - 1 }, some i)
    | none => (page, none)
  else (page, none)

namespace ManagedObjStorage

variable (st : ManagedObjStorage)

/-- Reading an object through a pointer. -/
def deref (a : Addr) : Except Fault ManagedObj :=
  match st.heap a with
  | some obj => .ok obj
  | none => .error .dangling

/-- `mPages.at(p)`. -/
def page (p : Nat) : Except Fault ManagedObjStoragePage :=
  match st.mPages[p]? with
  | some page => .ok page
  | none => .error .outOfRange

/-- Replace the slot `i` of page `p`. -/
def setSlot (p : Nat) (i : SlotIndex) (s : Slot) : ManagedObjStorage :=
  { st with mPages := st.mPages.modify p fun page =>
      { page with mSlots := Function.update page.mSlots i s } }

/-- `++mCachedFreeSlotCount` on page `p`. -/
def incFree (p : Nat) : ManagedObjStorage :=
  { st with mPages := st.mPages.modify p fun page =>
      { page with mCachedFreeSlotCount := page.mCachedFreeSlotCount + 1 } }

/-- Write the object at address `a`. -/
def setObj (a : Addr) (obj : ManagedObj) : ManagedObjStorage :=
  { st with heap := Function.update st.heap a (some obj) }

/-- Give the memory of the object at `a` back. -/
def dealloc (a : Addr) : ManagedObjStorage :=
  { st with heap := Function.update st.heap a none }

/-! ### Lookup -/

/-- `ManagedObjStoragePage::get`. -/
def pageGet (page : ManagedObjStoragePage) (objId : ManagedObjId) : Except Fault (Option Addr) :=
  let slot := page.mSlots (slotIndex objId.identifier)
  -- the 8-bit field is promoted before it is compared with the slot's counter
  if slot.generation ≠ objId.generation.setWidth 32 then .ok none
  else
    match slot.managedObj with
    | none => .error .nullDeref
    | some a => do
      let obj ← st.deref a
      if obj.mObjId.composite ≠ objId.composite then return none
      return some a

/-- `ManagedObjStorage::get(uint32_t)`. -/
def get (identifier : BitVec 32) : Except Fault (Option Addr) := do
  let objId := ManagedObjId.ofComposite identifier
  let page ← st.page (pageIndex objId.identifier)
  st.pageGet page objId

/-- `managedCast<T>`: the pointer itself when the type nibble is `managedType<T>()`, else null. -/
def managedCast (T : ManagedClass) : Option Addr → Except Fault (Option Addr)
  | none => .ok none
  | some a => do
    let obj ← st.deref a
    if obj.mObjId.type.setWidth 8 ≠ managedType T then return none
    return some a

/-- `ManagedObjStorage::get<T>(uint32_t)`. -/
def getAs (T : ManagedClass) (identifier : BitVec 32) : Except Fault (Option Addr) := do
  let obj ← st.get identifier
  st.managedCast T obj

/-! ### Freeing -/

/-- `ManagedObjStoragePage::free` on page `p`, for an object whose id is `objId`. The page empties
the slot before the destructor runs and counts it as free after; `release` is what the destructor
does with each handle the object owns. -/
def pageFree (release : ManagedObjStorage → Addr → Except Fault ManagedObjStorage)
    (p : Nat) (page : ManagedObjStoragePage) (a : Addr) (obj : ManagedObj) :
    Except Fault ManagedObjStorage :=
  let i := slotIndex obj.mObjId.identifier
  let slot := page.mSlots i
  if slot.managedObj ≠ some a then .ok st
  else do
    let storedObj ← st.deref a
    if !managedObjIdEqual storedObj.mObjId obj.mObjId then return st
    let st' ← obj.owned.foldlM release (st.setSlot p i { slot with managedObj := none })
    return (st'.dealloc a).incFree p

/-- `ManagedObjStorage::free`, which is also the deleter of `UniqueManagedObj`, to a given depth of
nested destructors. -/
def freeAux : Nat → ManagedObjStorage → Addr → Except Fault ManagedObjStorage
  | 0, _, _ => .error .fuel
  | depth + 1, st, a => do
    let obj ← st.deref a
    let p := pageIndex obj.mObjId.identifier
    let page ← st.page p
    st.pageFree (freeAux depth) p page a obj

/-- Each nested call empties one more slot, so there are never more of them than slots. -/
def liveBound : Nat := st.mPages.length * PageLength + 1

def free (a : Addr) : Except Fault ManagedObjStorage := freeAux st.liveBound st a

/-- The binding `objectFree`. -/
def objectFree (objectId : BitVec 32) : Except Fault ManagedObjStorage := do
  match ← st.get objectId with
  | some a => st.free a
  | none => return st

/-! ### Making -/

/-- The loop of `reserve` over the pages that exist. -/
def reserveIn : List ManagedObjStoragePage → List ManagedObjStoragePage × Option (Nat × SlotIndex)
  | [] => ([], none)
  | page :: pages =>
    match page.freeSlotIndex with
    | (page', some i) => (page' :: pages, some (0, i))
    | (page', none) =>
      let (pages', r) := reserveIn pages
      (page' :: pages', r.map fun (p, i) => (p + 1, i))

/-- `ManagedObjStorage::reserve`. -/
def reserve : ManagedObjStorage × Option (Nat × SlotIndex) :=
  match reserveIn st.mPages with
  | (pages, some r) => ({ st with mPages := pages }, some r)
  | (pages, none) =>
    let (newPage, i) := ManagedObjStoragePage.new.freeSlotIndex
    ({ st with mPages := pages ++ [newPage] }, i.map fun i => (pages.length, i))

/-- `ManagedObjStorage::init`. -/
def initObj (obj : ManagedObj) (p : Nat) (i : SlotIndex) (type : BitVec 8) : ManagedObj :=
  { obj with mObjId := ⟨(managedIndex p i).setWidth 20, 1, type.setWidth 4⟩ }

/-- `ManagedObjStoragePage::store`: the id takes the low byte of the incremented counter. The slot's
`reset` would destroy an object already there. -/
def pageStore (p : Nat) (page : ManagedObjStoragePage) (a : Addr) (obj : ManagedObj)
    (i : SlotIndex) : Except Fault ManagedObjStorage := do
  let slot := page.mSlots i
  let generation := slot.generation + 1
  let st := st.setObj a { obj with mObjId.generation := generation.setWidth 8 }
  let st := st.setSlot p i ⟨some a, generation⟩
  match slot.managedObj with
  | none => return st
  | some old => do
    let oldObj ← st.deref old
    let st' ← oldObj.owned.foldlM free st
    return st'.dealloc old

/-- `ManagedObjStorage::store<T>`: construct the object, give it its id, put it in the slot. -/
def store (T : ManagedClass) (p : Nat) (i : SlotIndex) :
    Except Fault (ManagedObjStorage × Option Addr) := do
  let a := st.fresh
  let obj := initObj ⟨managedObjIdMake, T, []⟩ p i (managedType T)
  let st := { st with fresh := a + 1 }.setObj a obj
  let page ← st.page p
  let st ← st.pageStore p page a obj i
  return (st, some a)

/-- `ManagedObjStorage::make<T>`; `none` is the empty handle. -/
def make (T : ManagedClass) : Except Fault (ManagedObjStorage × Option Addr) :=
  match st.reserve with
  | (st, some (p, i)) => st.store T p i
  | (st, none) => .ok (st, none)

/-! ### Runs -/

/-- What a client of the storage does. -/
inductive Op where
  /-- `make<T>()`. -/
  | make (T : ManagedClass)
  /-- `ManagedObjStorage::free` of a pointer, directly or as the deleter of a handle. -/
  | free (a : Addr)
  /-- The binding `objectFree`. -/
  | objectFree (objectId : BitVec 32)
  /-- Handles are moved into or out of the members of an object. -/
  | own (owner : Addr) (handles : List Addr)

def step (st : ManagedObjStorage) : Op → Except Fault ManagedObjStorage
  | .make T => do
    let (st', _) ← st.make T
    return st'
  | .free a => st.free a
  | .objectFree objectId => st.objectFree objectId
  | .own owner handles => do
    let obj ← st.deref owner
    return st.setObj owner { obj with owned := handles }

/-- The states a run of the program reaches. -/
def Reachable (st : ManagedObjStorage) : Prop := ∃ ops, Runs.run step .init ops = .ok st

end ManagedObjStorage

end GifTools
