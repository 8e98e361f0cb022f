import GifTools.Storage.Lookup

/-!
# Closing a video stream

`FFmpegVideoStreamImpl::close` destroys the prepared frames and then constructs a new object in
place of the old one, its `ManagedObj` base included. The new base carries `managedObjIdMake()`,
whose type nibble is that of no class, while the slot still holds the object: after `close` no
typed lookup finds the stream, and freeing it looks for page 4095.
-/

namespace GifTools.ManagedObjStorage

open Runs

variable (st : ManagedObjStorage)

/-- `FFmpegVideoStreamImpl::clearPreparedFrames`: the member is emptied before the handles it held
are released. -/
def clearPreparedFrames (a : Addr) : Except Fault ManagedObjStorage := do
  let obj ← st.deref a
  obj.owned.foldlM free (st.setObj a { obj with owned := [] })

/-- `FFmpegVideoStreamImpl::close`, with `new (this) FFmpegVideoStreamImpl()` at its end. -/
def close (a : Addr) : Except Fault ManagedObjStorage := do
  let st ← st.clearPreparedFrames a
  let obj ← st.deref a
  return st.setObj a ⟨managedObjIdMake, obj.cls, []⟩

/-- What a client of the storage does, with closing. -/
inductive ClientOp where
  | storage (op : Op)
  /-- `ffmpegVideoStreamClose` of the object at `a`. -/
  | close (a : Addr)

def clientStep (st : ManagedObjStorage) : ClientOp → Except Fault ManagedObjStorage
  | .storage op => step st op
  | .close a => st.close a

/-! ### What `close` leaves -/

section

variable {st st' : ManagedObjStorage} {a : Addr}

lemma close_cases (h : st.close a = .ok st') :
    ∃ obj st₁ obj₁, st.heap a = some obj ∧
      obj.owned.foldlM free (st.setObj a { obj with owned := [] }) = .ok st₁ ∧
      st₁.heap a = some obj₁ ∧ st' = st₁.setObj a ⟨managedObjIdMake, obj₁.cls, []⟩ := by
  obtain ⟨st₁, hclear, h⟩ := bind_ok.mp h
  obtain ⟨obj₁, hobj₁, h⟩ := bind_ok.mp h
  obtain ⟨obj, hobj, hfold⟩ := bind_ok.mp hclear
  cases h
  exact ⟨obj, st₁, obj₁, deref_ok.mp hobj, hfold, deref_ok.mp hobj₁, rfl⟩

/-- The object is still there, without an id. -/
lemma heap_close (h : st.close a = .ok st') : ∃ T, st'.heap a = some ⟨managedObjIdMake, T, []⟩ := by
  obtain ⟨obj, st₁, obj₁, -, -, -, rfl⟩ := close_cases h
  exact ⟨obj₁.cls, setObj_heap_self _ _⟩

lemma type_managedObjIdMake (T : ManagedClass) :
    managedObjIdMake.type.setWidth 8 ≠ managedType T := by
  cases T <;> decide

/-- An object without an id is found by no typed lookup. -/
lemma getAs_ne_of_managedObjIdMake {T U : ManagedClass} {owned : List Addr}
    (ha : st.heap a = some ⟨managedObjIdMake, U, owned⟩) (id : BitVec 32) :
    st.getAs T id ≠ .ok (some a) := by
  intro hget
  obtain ⟨-, obj, hobj, htype⟩ := getAs_eq_some hget
  cases hobj.symm.trans ha
  exact type_managedObjIdMake T htype

lemma pageIndex_managedObjIdMake : pageIndex managedObjIdMake.identifier = 4095 := by decide

/-- Freeing it throws, unless there are 4096 pages. -/
lemma free_of_managedObjIdMake {U : ManagedClass} {owned : List Addr}
    (ha : st.heap a = some ⟨managedObjIdMake, U, owned⟩) (hpages : st.mPages.length < PageLimit) :
    st.free a = .error .outOfRange := by
  change (st.deref a >>= fun obj => _) = _
  rw [deref_ok.mpr ha]
  change (st.page (pageIndex managedObjIdMake.identifier) >>= fun page => _) = _
  rw [pageIndex_managedObjIdMake, page_eq_error (by rw [PageLimit] at hpages; omega)]
  rfl

/-- No id but `InvalidId` leads to an object without an id. -/
lemma get_of_managedObjIdMake {U : ManagedClass} {owned : List Addr} {id : BitVec 32}
    (ha : st.heap a = some ⟨managedObjIdMake, U, owned⟩) (hget : st.get id = .ok (some a)) :
    id = InvalidId := by
  obtain ⟨-, -, obj, hobj, rfl⟩ := get_eq_some hget
  cases hobj.symm.trans ha
  exact ManagedObjId.composite_ofComposite InvalidId

/-- After `close` the object stays until the end: its handle cannot release it, and no id a typed
lookup could have given leads to it. -/
theorem closed_not_freeable (hclose : st.close a = .ok st')
    (hpages : st'.mPages.length < PageLimit) :
    st'.free a = .error .outOfRange ∧ ∀ id ≠ InvalidId, st'.get id ≠ .ok (some a) := by
  obtain ⟨T, hclosed⟩ := heap_close hclose
  constructor
  · exact free_of_managedObjIdMake hclosed hpages
  · intro id hid hget
    exact hid (get_of_managedObjIdMake hclosed hget)

/-! ### What a closed stream should be -/

/-- Closing the stream at `a` keeps its id and its slot: it is still found and can still be freed
by either way, a second `close` changes nothing, and the objects it does not own are untouched. -/
structure KeptByClose (st : ManagedObjStorage) (a : Addr) (st' : ManagedObjStorage) : Prop where
  closed : st.close a = .ok st'
  objId : ∀ obj, st.heap a = some obj → ∃ obj', st'.heap a = some obj' ∧ obj'.mObjId = obj.mObjId
  slot : ∀ p i, st.Holds p i a → st'.slotAt p i = st.slotAt p i
  found : ∀ obj, st.heap a = some obj →
    st'.getAs .ffmpegVideoStream obj.mObjId.composite = .ok (some a)
  objectFree : ∀ obj, st.heap a = some obj →
    ∃ st'', st'.objectFree obj.mObjId.composite = .ok st'' ∧ Freed {a} st' st''
  free : ∃ st'', st'.free a = .ok st'' ∧ Freed {a} st' st''
  twice : st'.close a = .ok st'
  others : ∀ b, b ≠ a → ¬ st.Reaches a b → st'.heap b = st.heap b ∧
    ∀ p i, st.Holds p i b → st'.slotAt p i = st.slotAt p i
  frames : ∀ b, b ≠ a → st.Reaches a b → st'.heap b = none

/-- No run has a live stream that `close` keeps. -/
theorem not_keptByClose (ops : List ClientOp) (st : ManagedObjStorage) (a : Addr)
    (obj : ManagedObj) :
    run clientStep init ops = .ok st → st.heap a = some obj → obj.cls = .ffmpegVideoStream →
      ¬ ∃ st', KeptByClose st a st' := by
  intro _ hobj _
  rintro ⟨st', hkept⟩
  obtain ⟨T, hclosed⟩ := heap_close hkept.closed
  exact getAs_ne_of_managedObjIdMake hclosed _ (hkept.found obj hobj)

/-- A stream that was just made. -/
theorem not_keptByClose_make :
    ∃ st, run clientStep init [.storage (.make .ffmpegVideoStream)] = .ok st ∧
      ¬ ∃ st', KeptByClose st 0 st' :=
  ⟨_, rfl, not_keptByClose [.storage (.make .ffmpegVideoStream)] _ 0 _ rfl rfl rfl⟩

/-- The run of one `make` is enough. -/
theorem not_forall_keptByClose :
    ¬ ∀ (ops : List ClientOp) (st : ManagedObjStorage) (a : Addr) (obj : ManagedObj),
      run clientStep init ops = .ok st → st.heap a = some obj → obj.cls = .ffmpegVideoStream →
        ∃ st', KeptByClose st a st' := by
  intro h
  obtain ⟨st', hkept⟩ := h [.storage (.make .ffmpegVideoStream)] _ 0 _ rfl rfl rfl
  obtain ⟨T, hclosed⟩ := heap_close hkept.closed
  exact getAs_ne_of_managedObjIdMake hclosed _ (hkept.found _ rfl)

end

end GifTools.ManagedObjStorage
