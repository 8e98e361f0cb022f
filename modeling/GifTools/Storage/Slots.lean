import GifTools.Storage.Basic
import Mathlib.Data.Fintype.Card
import Mathlib.Data.Fintype.Basic
import Mathlib.Algebra.BigOperators.Ring.Finset
import Mathlib.Algebra.Order.BigOperators.Group.Finset

/-!
# Reading the slots of a storage

Total observers of a storage (`pageAt`, `slotAt`, `cachedCount`; a page that does not exist reads as
a new one) and what each elementary write does to them.
-/

namespace GifTools.ManagedObjStorage

variable (st : ManagedObjStorage)

/-- Page `p`. -/
def pageAt (p : Nat) : ManagedObjStoragePage := st.mPages[p]?.getD .new

/-- Slot `i` of page `p`. -/
def slotAt (p : Nat) (i : SlotIndex) : Slot := (st.pageAt p).mSlots i

/-- `mCachedFreeSlotCount` of page `p`. -/
def cachedCount (p : Nat) : Nat := (st.pageAt p).mCachedFreeSlotCount

/-- Slot `i` of page `p` owns the object at `a`. -/
def Holds (p : Nat) (i : SlotIndex) (a : Addr) : Prop := (st.slotAt p i).managedObj = some a

/-- The number of empty slots of page `p`. -/
def emptyCount (p : Nat) : Nat :=
  (Finset.univ.filter fun i => (st.slotAt p i).managedObj = none).card

/-- The number of slots in use. -/
def occupied : Nat :=
  ∑ p ∈ Finset.range st.mPages.length,
    (Finset.univ.filter fun i => (st.slotAt p i).managedObj ≠ none).card

variable {st}

lemma pageAt_of_getElem? {p : Nat} {page : ManagedObjStoragePage} (h : st.mPages[p]? = some page) :
    st.pageAt p = page := by
  rw [pageAt, h, Option.getD_some]

lemma pageAt_of_le {p : Nat} (h : st.mPages.length ≤ p) : st.pageAt p = .new := by
  rw [pageAt, List.getElem?_eq_none h, Option.getD_none]

lemma pageAt_of_lt {p : Nat} (h : p < st.mPages.length) : st.mPages[p]? = some (st.pageAt p) := by
  rw [pageAt, List.getElem?_eq_getElem h, Option.getD_some]

lemma pageAt_modify {p : Nat} (hp : p < st.mPages.length)
    (f : ManagedObjStoragePage → ManagedObjStoragePage) (q : Nat) :
    { st with mPages := st.mPages.modify p f }.pageAt q =
      if q = p then f (st.pageAt q) else st.pageAt q := by
  by_cases hqp : q = p
  · subst hqp
    simp [pageAt, List.getElem?_eq_getElem hp]
  · simp [pageAt, hqp, Ne.symm hqp]

lemma pageAt_append (page : ManagedObjStoragePage) (q : Nat) :
    { st with mPages := st.mPages ++ [page] }.pageAt q =
      if q = st.mPages.length then page else st.pageAt q := by
  rcases lt_trichotomy q st.mPages.length with hq | rfl | hq
  · rw [if_neg hq.ne, pageAt, List.getElem?_append_left hq, pageAt]
  · simp [pageAt]
  · rw [if_neg hq.ne', pageAt_of_le hq.le, pageAt_of_le]
    rw [List.length_append]
    exact hq

lemma Holds.lt {p : Nat} {i : SlotIndex} {a : Addr} (h : st.Holds p i a) :
    p < st.mPages.length := by
  by_contra hp
  rw [Holds, slotAt, pageAt_of_le (by omega)] at h
  cases h

lemma Holds.congr {p : Nat} {i : SlotIndex} {a b : Addr} (ha : st.Holds p i a)
    (hb : st.Holds p i b) : a = b :=
  Option.some.inj (ha.symm.trans hb)

lemma page_ok {p : Nat} {page : ManagedObjStoragePage} :
    st.page p = .ok page ↔ st.mPages[p]? = some page := by
  rw [ManagedObjStorage.page]
  cases st.mPages[p]? <;> simp

lemma page_of_lt {p : Nat} (hp : p < st.mPages.length) : ∃ page, st.page p = .ok page :=
  ⟨st.mPages[p], page_ok.mpr (List.getElem?_eq_getElem hp)⟩

lemma page_eq_error {p : Nat} (hp : st.mPages.length ≤ p) : st.page p = .error .outOfRange := by
  rw [ManagedObjStorage.page, List.getElem?_eq_none hp]

lemma mSlots_eq_slotAt {p : Nat} {page : ManagedObjStoragePage} (h : st.page p = .ok page)
    (i : SlotIndex) : page.mSlots i = st.slotAt p i := by
  rw [slotAt, pageAt_of_getElem? (page_ok.mp h)]

lemma deref_ok {a : Addr} {obj : ManagedObj} :
    st.deref a = .ok obj ↔ st.heap a = some obj := by
  rw [deref]
  cases st.heap a <;> simp

/-! ### Elementary writes -/

@[simp] lemma setSlot_heap (p : Nat) (i : SlotIndex) (s : Slot) :
    (st.setSlot p i s).heap = st.heap := rfl

@[simp] lemma setSlot_length (p : Nat) (i : SlotIndex) (s : Slot) :
    (st.setSlot p i s).mPages.length = st.mPages.length := by
  simp [setSlot]

lemma pageAt_setSlot {p : Nat} (hp : p < st.mPages.length) (i : SlotIndex) (s : Slot) (q : Nat) :
    (st.setSlot p i s).pageAt q =
      if q = p then { st.pageAt q with mSlots := Function.update (st.pageAt q).mSlots i s }
      else st.pageAt q :=
  pageAt_modify hp _ q

lemma setSlot_of_le {p : Nat} (hp : st.mPages.length ≤ p) (i : SlotIndex) (s : Slot) :
    st.setSlot p i s = st := by
  rw [setSlot, List.modify_eq_self hp]

@[simp] lemma setSlot_cachedCount (p : Nat) (i : SlotIndex) (s : Slot) (q : Nat) :
    (st.setSlot p i s).cachedCount q = st.cachedCount q := by
  rcases lt_or_ge p st.mPages.length with hp | hp
  · rw [cachedCount, pageAt_setSlot hp, cachedCount]
    split <;> rfl
  · rw [setSlot_of_le hp]

lemma slotAt_setSlot {p : Nat} (hp : p < st.mPages.length) (i : SlotIndex) (s : Slot) :
    (st.setSlot p i s).slotAt p i = s := by
  simp [slotAt, pageAt_setSlot hp]

lemma slotAt_setSlot_ne {p q : Nat} {i j : SlotIndex} (h : (q, j) ≠ (p, i)) (s : Slot) :
    (st.setSlot p i s).slotAt q j = st.slotAt q j := by
  rcases lt_or_ge p st.mPages.length with hp | hp
  · rw [slotAt, pageAt_setSlot hp, slotAt]
    by_cases hqp : q = p
    · rw [if_pos hqp]
      exact Function.update_of_ne (fun hji => h (by rw [hqp, hji])) ..
    · rw [if_neg hqp]
  · rw [setSlot_of_le hp]

@[simp] lemma setObj_slotAt (a : Addr) (obj : ManagedObj) (p : Nat) (i : SlotIndex) :
    (st.setObj a obj).slotAt p i = st.slotAt p i := rfl

@[simp] lemma setObj_heap_self (a : Addr) (obj : ManagedObj) :
    (st.setObj a obj).heap a = some obj := by
  simp [setObj]

lemma setObj_setObj (a : Addr) (obj obj' : ManagedObj) :
    (st.setObj a obj).setObj a obj' = st.setObj a obj' := by
  simp [setObj]

lemma setObj_heap_ne {a b : Addr} (h : b ≠ a) (obj : ManagedObj) :
    (st.setObj a obj).heap b = st.heap b := by
  simp [setObj, h]

@[simp] lemma dealloc_length (a : Addr) : (st.dealloc a).mPages.length = st.mPages.length := rfl

@[simp] lemma dealloc_slotAt (a : Addr) (p : Nat) (i : SlotIndex) :
    (st.dealloc a).slotAt p i = st.slotAt p i := rfl

@[simp] lemma dealloc_cachedCount (a : Addr) (p : Nat) :
    (st.dealloc a).cachedCount p = st.cachedCount p := rfl

@[simp] lemma dealloc_heap_self (a : Addr) : (st.dealloc a).heap a = none := by
  simp [dealloc]

lemma dealloc_heap_ne {a b : Addr} (h : b ≠ a) : (st.dealloc a).heap b = st.heap b := by
  simp [dealloc, h]

@[simp] lemma incFree_heap (p : Nat) : (st.incFree p).heap = st.heap := rfl

@[simp] lemma incFree_length (p : Nat) :
    (st.incFree p).mPages.length = st.mPages.length := by
  simp [incFree]

lemma pageAt_incFree {p : Nat} (hp : p < st.mPages.length) (q : Nat) :
    (st.incFree p).pageAt q =
      if q = p then
        { st.pageAt q with mCachedFreeSlotCount := (st.pageAt q).mCachedFreeSlotCount + 1 }
      else st.pageAt q :=
  pageAt_modify hp _ q

@[simp] lemma incFree_slotAt (p q : Nat) (i : SlotIndex) :
    (st.incFree p).slotAt q i = st.slotAt q i := by
  rcases lt_or_ge p st.mPages.length with hp | hp
  · rw [slotAt, pageAt_incFree hp, slotAt]
    split <;> rfl
  · rw [incFree, List.modify_eq_self hp]

lemma incFree_cachedCount {p : Nat} (hp : p < st.mPages.length) (q : Nat) :
    (st.incFree p).cachedCount q = st.cachedCount q + if q = p then 1 else 0 := by
  rw [cachedCount, pageAt_incFree hp, cachedCount]
  split <;> rfl

/-! ### Counting slots -/

lemma emptyCount_congr {st' : ManagedObjStorage} {p : Nat}
    (h : ∀ i, st'.slotAt p i = st.slotAt p i) : st'.emptyCount p = st.emptyCount p := by
  simp only [emptyCount, h]

/-- A page with exactly one slot emptied has one more empty slot. -/
lemma emptyCount_of_emptied {st' : ManagedObjStorage} {p : Nat} {i : SlotIndex}
    (hi : (st.slotAt p i).managedObj ≠ none) (hi' : (st'.slotAt p i).managedObj = none)
    (h : ∀ j, j ≠ i → st'.slotAt p j = st.slotAt p j) :
    st'.emptyCount p = st.emptyCount p + 1 := by
  have hset : (Finset.univ.filter fun j => (st'.slotAt p j).managedObj = none) =
      insert i (Finset.univ.filter fun j => (st.slotAt p j).managedObj = none) := by
    ext j
    by_cases hj : j = i
    · simp [hj, hi']
    · simp [hj, h j hj]
  rw [emptyCount, hset, Finset.card_insert_of_notMem (by simpa using hi), emptyCount]

/-- Slots that can only be emptied leave no more of them in use. -/
lemma occupied_le {st' : ManagedObjStorage} (hlen : st'.mPages.length = st.mPages.length)
    (h : ∀ p i, (st.slotAt p i).managedObj = none → (st'.slotAt p i).managedObj = none) :
    st'.occupied ≤ st.occupied := by
  rw [occupied, occupied, hlen]
  refine Finset.sum_le_sum fun p _ => Finset.card_le_card fun i hi => ?_
  simp only [Finset.mem_filter, Finset.mem_univ, true_and] at hi ⊢
  exact fun hnone => hi (h p i hnone)

lemma occupied_lt_liveBound : st.occupied < st.liveBound := by
  have h : st.occupied ≤ ∑ _p ∈ Finset.range st.mPages.length, PageLength :=
    Finset.sum_le_sum fun p _ => (Finset.card_le_univ _).trans (by simp)
  simp only [Finset.sum_const, Finset.card_range, nsmul_eq_mul, Nat.cast_id] at h
  rw [liveBound]
  omega

/-- Emptying a slot in use leaves fewer of them in use. -/
lemma occupied_setSlot_lt {p : Nat} {i : SlotIndex} {a : Addr} (h : st.Holds p i a) (s : Slot)
    (hs : s.managedObj = none) : (st.setSlot p i s).occupied < st.occupied := by
  have hp := h.lt
  rw [occupied, occupied, setSlot_length]
  refine Finset.sum_lt_sum (fun q _ => Finset.card_le_card fun j hj => ?_)
    ⟨p, Finset.mem_range.mpr hp, Finset.card_lt_card ⟨fun j hj => ?_, fun hsub => ?_⟩⟩
  · simp only [Finset.mem_filter, Finset.mem_univ, true_and] at hj ⊢
    by_cases hqj : (q, j) = (p, i)
    · cases hqj
      simp [slotAt_setSlot hp, hs] at hj
    · rwa [slotAt_setSlot_ne hqj] at hj
  · simp only [Finset.mem_filter, Finset.mem_univ, true_and] at hj ⊢
    by_cases hji : j = i
    · rw [hji, h]
      simp
    · rwa [slotAt_setSlot_ne (by simp [hji])] at hj
  · have hi := hsub (x := i) (by simp [show (st.slotAt p i).managedObj = some a from h])
    simp [slotAt_setSlot hp, hs] at hi

end GifTools.ManagedObjStorage
