import GifTools.Storage.Identity
import GifTools.Storage.Lookup
import GifTools.Storage.Ownership

/-!
# The accounts of the storage

What the pages, the slots and the ids of a reachable storage say about one another, and what
`make` and `free` do to them.
-/

namespace GifTools.ManagedObjStorage

open Runs

variable {st : ManagedObjStorage}

/-- The books of a storage are in order, now and after the next `make` or `free`. -/
structure Accounted (st : ManagedObjStorage) : Prop where
  /-- The cached counts are the numbers of empty slots. -/
  count : ∀ p, st.cachedCount p = st.emptyCount p
  /-- An id tells the slot its object is in and the class it was made as. -/
  id : ∀ p i a, st.Holds p i a → ∃ obj, st.heap a = some obj ∧
    obj.mObjId.identifier.toNat = 256 * p + i ∧ obj.mObjId.type.setWidth 8 = managedType obj.cls
  /-- No operation changes the class or the id of an object. -/
  keeps : ∀ op st' a obj obj', step st op = .ok st' → st.heap a = some obj →
    st'.heap a = some obj' → obj'.cls = obj.cls ∧ obj'.mObjId = obj.mObjId
  /-- The typed lookup returns objects made as that type. -/
  typed : ∀ T id a, st.getAs T id = .ok (some a) → ∃ obj, st.heap a = some obj ∧ obj.cls = T
  /-- `make` fills an empty slot, and adds a page only when there is none. -/
  make : ∀ T, ∃ st' p i, st.make T = .ok (st', some st.fresh) ∧ Made T p i st st' ∧
    (st'.mPages.length ≠ st.mPages.length →
      ∀ q < st.mPages.length, ∀ j, (st.slotAt q j).managedObj ≠ none)
  /-- `free` removes the object and those its destructor frees. -/
  free : ∀ a st', st.Live a → st.free a = .ok st' → Freed {b | st.Reaches a b} st st'
  /-- It does so whenever handles are the only ones of objects that exist. -/
  free_ok : ∀ a, SoleOwners ∅ st → Unowned ∅ st a → ∃ st', st.free a = .ok st'

lemma identifier_of_holds (h : st.WF) (hlimit : st.mPages.length ≤ PageLimit) {p : Nat}
    {i : SlotIndex} {a : Addr} (hold : st.Holds p i a) :
    ∃ obj, st.heap a = some obj ∧ obj.mObjId.identifier.toNat = 256 * p + i ∧
      obj.mObjId.type.setWidth 8 = managedType obj.cls := by
  obtain ⟨obj, hobj, hid⟩ := h.inv.stored hold
  refine ⟨obj, hobj, ?_, by rw [hid]; exact setWidth_typeNibble obj.cls⟩
  have hp : p < PageLimit := hold.lt.trans_le hlimit
  have hi : i.val < 256 := i.isLt
  rw [hid, toNat_placedId]
  rw [PageLimit] at hp
  omega

lemma step_keeps (h : st.WF) {op : Op} {st' : ManagedObjStorage} (hstep : step st op = .ok st')
    {a : Addr} {obj obj' : ManagedObj} (hobj : st.heap a = some obj)
    (hobj' : st'.heap a = some obj') : obj'.cls = obj.cls ∧ obj'.mObjId = obj.mObjId := by
  obtain ⟨T, p, i, -, -, hmade⟩ | ⟨S, hS, -⟩ | ⟨b, objb, handles, -, hb, rfl⟩ :=
    step_cases h hstep
  · rw [hmade.heap_others (h.inv.old hobj).ne, hobj] at hobj'
    cases hobj'
    exact ⟨rfl, rfl⟩
  · have := (hS.heap_some hobj').2
    rw [hobj] at this
    cases this
    exact ⟨rfl, rfl⟩
  · by_cases hab : a = b
    · subst hab
      rw [setObj_heap_self] at hobj'
      cases hobj'
      cases hobj.symm.trans hb
      exact ⟨rfl, rfl⟩
    · rw [setObj_heap_ne hab, hobj] at hobj'
      cases hobj'
      exact ⟨rfl, rfl⟩

lemma cls_of_getAs (h : st.WF) {T : ManagedClass} {id : BitVec 32} {a : Addr}
    (hget : st.getAs T id = .ok (some a)) : ∃ obj, st.heap a = some obj ∧ obj.cls = T := by
  obtain ⟨-, obj, hobj, hT⟩ := getAs_eq_some hget
  obtain ⟨p, i, hold⟩ := h.inv.inSlot hobj (Set.notMem_empty a)
  obtain ⟨obj', hobj', hid⟩ := h.inv.stored hold
  cases hobj.symm.trans hobj'
  rw [hid] at hT
  exact ⟨obj, hobj, managedType_injective ((setWidth_typeNibble obj.cls).symm.trans hT)⟩

/-- A page is added only behind pages that are full. -/
lemma Made.full_of_length {T : ManagedClass} {p : Nat} {i : SlotIndex} {st' : ManagedObjStorage}
    (h : Made T p i st st') (hlen : st'.mPages.length ≠ st.mPages.length) :
    ∀ q < st.mPages.length, ∀ j, (st.slotAt q j).managedObj ≠ none := by
  intro q hq
  have := h.length
  exact h.first q (by omega)

theorem Reachable.accounted (h : st.Reachable) (hlimit : st.mPages.length ≤ PageLimit) :
    st.Accounted where
  count := h.wf.counted
  id _ _ _ hold := identifier_of_holds h.wf hlimit hold
  keeps _ _ _ _ _ hstep hobj hobj' := step_keeps h.wf hstep hobj hobj'
  typed _ _ _ hget := cls_of_getAs h.wf hget
  make T := by
    obtain ⟨st', p, i, -, hmake, hmade⟩ := make_spec h.wf.counted T
    exact ⟨st', p, i, hmake, hmade, hmade.full_of_length⟩
  free a st' _ hfree := by
    obtain ⟨S, hS, -, heq⟩ := free_spec h.wf.inv hfree
    exact heq hlimit ▸ hS
  free_ok _ hsole ha := ManagedObjStorage.free_ok h.wf.inv hlimit hsole ha

/-- The second frame is freed with its image, like the first. -/
theorem accounted_reused :
    ∃ st st', run step init reusedOps = .ok st ∧ st.heap 1 = none ∧ st.heap 2 = none ∧
      st.Owns 3 4 ∧ st.Accounted ∧ st.free 3 = .ok st' ∧
      Freed {b | st.Reaches 3 b} st st' := by
  obtain ⟨st, hrun, hpages, hframe, himage, hobj, -, -, st', hfree⟩ := exists_reused
  have haccounted := Reachable.accounted ⟨_, hrun⟩ (hpages.le.trans (by decide))
  exact ⟨st, st', hrun, hframe, himage, ⟨_, hobj, List.mem_singleton_self 4⟩, haccounted, hfree,
    haccounted.free 3 st' ⟨_, hobj⟩ hfree⟩

end GifTools.ManagedObjStorage
