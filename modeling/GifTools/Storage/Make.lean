import GifTools.Storage.Free

/-!
# What making an object does

`reserve` looks for the first page with a free slot and trusts the pages' cached counts for it.
When the counts are right (`Counted`), it finds the first free slot there is and adds a page only
when there is none; `make` then puts the new object there and touches nothing else (`Made`).
-/

namespace GifTools.ManagedObjStorage

open Runs

/-- Each page's cached count is its number of empty slots. -/
def Counted (st : ManagedObjStorage) : Prop := ∀ p, st.cachedCount p = st.emptyCount p

def PageCounted (page : ManagedObjStoragePage) : Prop :=
  page.mCachedFreeSlotCount =
    (Finset.univ.filter fun i => (page.mSlots i).managedObj = none).card

lemma pageCounted_new : PageCounted .new := by
  simp [PageCounted, ManagedObjStoragePage.new, Slot.empty]

lemma Counted.page {st : ManagedObjStorage} (h : st.Counted) (p : Nat) :
    PageCounted (st.pageAt p) :=
  h p

/-- What `make<T>` does when it reserves slot `i` of page `p`. -/
structure Made (T : ManagedClass) (p : Nat) (i : SlotIndex) (st st' : ManagedObjStorage) :
    Prop where
  wasEmpty : (st.slotAt p i).managedObj = none
  first : ∀ q < p, ∀ j, (st.slotAt q j).managedObj ≠ none
  firstSlot : ∀ j < i, (st.slotAt p j).managedObj ≠ none
  le : p ≤ st.mPages.length
  length : st'.mPages.length = max st.mPages.length (p + 1)
  fresh : st'.fresh = st.fresh + 1
  slot : st'.slotAt p i = ⟨some st.fresh, (st.slotAt p i).generation + 1⟩
  others : ∀ {q j}, (q, j) ≠ (p, i) → st'.slotAt q j = st.slotAt q j
  heap : st'.heap st.fresh =
    some ⟨placedId p i ((st.slotAt p i).generation + 1) T, T, []⟩
  heap_others : ∀ {b}, b ≠ st.fresh → st'.heap b = st.heap b
  count : ∀ q, st'.cachedCount q = st.cachedCount q - if q = p then 1 else 0

/-! ### Reserving -/

lemma freeSlotIndex_cases {page : ManagedObjStoragePage} (h : PageCounted page) :
    (∃ i, page.freeSlotIndex =
        ({ page with mCachedFreeSlotCount := page.mCachedFreeSlotCount - 1 }, some i) ∧
        (page.mSlots i).managedObj = none ∧ ∀ j < i, (page.mSlots j).managedObj ≠ none) ∨
      page.freeSlotIndex = (page, none) ∧ ∀ i, (page.mSlots i).managedObj ≠ none := by
  by_cases hcount : page.mCachedFreeSlotCount = 0
  · right
    refine ⟨by simp [ManagedObjStoragePage.freeSlotIndex, hcount], fun i hi => ?_⟩
    rw [PageCounted, hcount] at h
    simpa [hi] using Finset.filter_eq_empty_iff.mp (Finset.card_eq_zero.mp h.symm)
      (Finset.mem_univ i)
  · left
    obtain ⟨i, hi⟩ : ∃ i, (page.mSlots i).managedObj = none := by
      obtain ⟨i, hi⟩ := Finset.card_pos.mp (Nat.pos_of_ne_zero (h ▸ hcount))
      exact ⟨i, (Finset.mem_filter.mp hi).2⟩
    cases hfind : (List.finRange PageLength).find? fun i => (page.mSlots i).managedObj.isNone with
    | none =>
      have := List.find?_eq_none.mp hfind i (List.mem_finRange i)
      simp [hi] at this
    | some k =>
      refine ⟨k, by simp [ManagedObjStoragePage.freeSlotIndex, hcount, hfind],
        by simpa using List.find?_some hfind, fun j hj => ?_⟩
      obtain ⟨-, n, hn, rfl, hbefore⟩ := List.find?_eq_some_iff_getElem.mp hfind
      have hjn : j.val < n := by simpa [Fin.lt_def] using hj
      simpa [Option.isSome_iff_ne_none] using hbefore j hjn

lemma reserveIn_cases {pages : List ManagedObjStoragePage} (h : ∀ page ∈ pages, PageCounted page) :
    (∃ p page i, pages[p]? = some page ∧ (page.mSlots i).managedObj = none ∧
        (∀ j < i, (page.mSlots j).managedObj ≠ none) ∧
        (∀ q < p, ∀ page', pages[q]? = some page' → ∀ j, (page'.mSlots j).managedObj ≠ none) ∧
        reserveIn pages =
          (pages.modify p fun page =>
            { page with mCachedFreeSlotCount := page.mCachedFreeSlotCount - 1 }, some (p, i))) ∨
      (∀ page ∈ pages, ∀ j, (page.mSlots j).managedObj ≠ none) ∧
        reserveIn pages = (pages, none) := by
  induction pages with
  | nil => exact .inr ⟨by simp, rfl⟩
  | cons page pages ih =>
    rcases freeSlotIndex_cases (h page List.mem_cons_self) with
      ⟨i, hfree, hi, hbefore⟩ | ⟨hfree, hfull⟩
    · exact .inl ⟨0, page, i, rfl, hi, hbefore, by simp, by simp [reserveIn, hfree]⟩
    · rcases ih fun page' hp => h page' (List.mem_cons_of_mem _ hp) with
        ⟨p, page', i, hp, hi, hbefore, hfirst, hres⟩ | ⟨hfulls, hres⟩
      · refine .inl ⟨p + 1, page', i, hp, hi, hbefore, fun q hq page'' hq' => ?_,
          by simp [reserveIn, hfree, hres]⟩
        cases q with
        | zero =>
          cases hq'
          exact hfull
        | succ q => exact hfirst q (by omega) page'' hq'
      · refine .inr ⟨fun page' hp => ?_, by simp [reserveIn, hfree, hres]⟩
        rcases List.mem_cons.mp hp with rfl | hp
        · exact hfull
        · exact hfulls page' hp

/-- What `reserve` does: the slots are as before, page `p` counts one slot less. -/
structure Reserved (p : Nat) (i : SlotIndex) (st st' : ManagedObjStorage) : Prop where
  wasEmpty : (st.slotAt p i).managedObj = none
  first : ∀ q < p, ∀ j, (st.slotAt q j).managedObj ≠ none
  firstSlot : ∀ j < i, (st.slotAt p j).managedObj ≠ none
  le : p ≤ st.mPages.length
  length : st'.mPages.length = max st.mPages.length (p + 1)
  slots : ∀ q j, st'.slotAt q j = st.slotAt q j
  count : ∀ q, st'.cachedCount q = st.cachedCount q - if q = p then 1 else 0
  heap : st'.heap = st.heap
  fresh : st'.fresh = st.fresh

/-- A page that exists has an empty slot. -/
lemma reserved_of_page {st : ManagedObjStorage} {p : Nat} {page : ManagedObjStoragePage}
    {i : SlotIndex} (hp : st.mPages[p]? = some page) (hi : (page.mSlots i).managedObj = none)
    (hbefore : ∀ j < i, (page.mSlots j).managedObj ≠ none)
    (hfirst : ∀ q < p, ∀ page, st.mPages[q]? = some page → ∀ j, (page.mSlots j).managedObj ≠ none) :
    Reserved p i st { st with mPages := st.mPages.modify p fun page =>
      { page with mCachedFreeSlotCount := page.mCachedFreeSlotCount - 1 } } := by
  have hlt : p < st.mPages.length := (List.getElem?_eq_some_iff.mp hp).1
  refine ⟨?_, fun q hq j => ?_, ?_, hlt.le, ?_, fun q j => ?_, fun q => ?_, rfl, rfl⟩
  · rw [slotAt, pageAt_of_getElem? hp]
    exact hi
  · exact hfirst q hq _ (pageAt_of_lt (hq.trans hlt)) j
  · rw [← pageAt_of_getElem? hp] at hbefore
    exact hbefore
  · rw [List.length_modify]
    omega
  · rw [slotAt, pageAt_modify hlt, slotAt]
    split <;> rfl
  · rw [cachedCount, pageAt_modify hlt, cachedCount]
    split <;> rfl

/-- All pages are full, and a new one is added. -/
lemma reserved_of_newPage {st : ManagedObjStorage} {i : SlotIndex}
    (hfull : ∀ page ∈ st.mPages, ∀ j, (page.mSlots j).managedObj ≠ none)
    (hi : (ManagedObjStoragePage.new.mSlots i).managedObj = none)
    (hbefore : ∀ j < i, (ManagedObjStoragePage.new.mSlots j).managedObj ≠ none) :
    Reserved st.mPages.length i st { st with mPages := st.mPages ++
      [{ ManagedObjStoragePage.new with
        mCachedFreeSlotCount := ManagedObjStoragePage.new.mCachedFreeSlotCount - 1 }] } := by
  have hnew : st.pageAt st.mPages.length = .new := pageAt_of_le le_rfl
  refine ⟨?_, fun q hq j => ?_, ?_, le_rfl, ?_, fun q j => ?_, fun q => ?_, rfl, rfl⟩
  · rw [slotAt, hnew]
    exact hi
  · exact hfull _ (List.mem_of_getElem? (pageAt_of_lt hq)) j
  · rw [← hnew] at hbefore
    exact hbefore
  · simp
  · rw [slotAt, pageAt_append, slotAt]
    split
    · rename_i hq
      rw [hq, hnew]
    · rfl
  · rw [cachedCount, pageAt_append, cachedCount]
    split
    · rename_i hq
      rw [hq, hnew]
    · rfl

lemma reserve_spec {st : ManagedObjStorage} (h : st.Counted) :
    ∃ st' p i, st.reserve = (st', some (p, i)) ∧ Reserved p i st st' := by
  have hpages : ∀ page ∈ st.mPages, PageCounted page := by
    intro page hpage
    obtain ⟨p, hp⟩ := List.mem_iff_getElem?.mp hpage
    exact pageAt_of_getElem? hp ▸ h.page p
  rcases reserveIn_cases hpages with
      ⟨p, page, i, hp, hi, hbefore, hfirst, hres⟩ | ⟨hfull, hres⟩
  · refine ⟨_, p, i, ?_, reserved_of_page hp hi hbefore hfirst⟩
    rw [reserve, hres]
  · obtain ⟨i, hfree, hi, hbefore⟩ | ⟨-, hno⟩ := freeSlotIndex_cases pageCounted_new
    · refine ⟨_, st.mPages.length, i, ?_, reserved_of_newPage hfull hi hbefore⟩
      rw [reserve, hres, hfree]
      rfl
    · exact absurd rfl (hno ⟨0, by decide⟩)

/-! ### Making -/

/-- The storage after `make`, when `reserve` leaves `st₁` and finds slot `i` of page `p`. -/
lemma make_eq {st st₁ : ManagedObjStorage} {p : Nat} {i : SlotIndex}
    (hres : st.reserve = (st₁, some (p, i))) (hR : Reserved p i st st₁) (T : ManagedClass) :
    st.make T = .ok
      (({ st₁ with fresh := st.fresh + 1 }.setObj st.fresh
        ⟨placedId p i ((st.slotAt p i).generation + 1) T, T, []⟩).setSlot p i
          ⟨some st.fresh, (st.slotAt p i).generation + 1⟩, some st.fresh) := by
  have hp : p < st₁.mPages.length := by
    rw [hR.length]
    omega
  set a := st.fresh with ha
  have hfresh : st₁.fresh = a := hR.fresh
  let obj := initObj ⟨managedObjIdMake, T, []⟩ p i (managedType T)
  let st₂ : ManagedObjStorage := { st₁ with fresh := a + 1 }.setObj a obj
  obtain ⟨page, hpage⟩ := page_of_lt (show p < st₂.mPages.length from hp)
  have hslot : page.mSlots i = st.slotAt p i := (mSlots_eq_slotAt hpage i).trans (hR.slots p i)
  set g := (st.slotAt p i).generation + 1 with hg
  have hstore : st₂.pageStore p page a obj i =
      .ok ((st₂.setObj a ⟨placedId p i g T, T, []⟩).setSlot p i ⟨some a, g⟩) := by
    simp only [pageStore, hslot, hR.wasEmpty]
    rfl
  rw [make, hres]
  simp only [store, hfresh]
  change (st₂.page p >>= fun page => _) = _
  rw [hpage]
  change (st₂.pageStore p page a obj i >>= fun st => _) = _
  rw [hstore]
  change Except.ok ((st₂.setObj a _).setSlot p i _, some a) = _
  rw [setObj_setObj]

theorem make_spec {st : ManagedObjStorage} (h : st.Counted) (T : ManagedClass) :
    ∃ st' p i, st.reserve.2 = some (p, i) ∧ st.make T = .ok (st', some st.fresh) ∧
      Made T p i st st' := by
  obtain ⟨st₁, p, i, hres, hR⟩ := reserve_spec h
  have hp : p < st₁.mPages.length := by
    rw [hR.length]
    omega
  refine ⟨_, p, i, by rw [hres], make_eq hres hR T, hR.wasEmpty, hR.first, hR.firstSlot, hR.le, ?_,
    rfl, ?_, fun {q j} hqj => ?_, ?_, fun {b} hb => ?_, fun q => ?_⟩
  · rw [setSlot_length]
    exact hR.length
  · exact slotAt_setSlot hp i _
  · rw [slotAt_setSlot_ne hqj]
    exact hR.slots q j
  · rw [setSlot_heap, setObj_heap_self]
  · rw [setSlot_heap, setObj_heap_ne hb, ← hR.heap]
  · rw [setSlot_cachedCount]
    exact hR.count q

namespace Made

variable {T : ManagedClass} {p : Nat} {i : SlotIndex} {st st' : ManagedObjStorage}

lemma holds_iff (h : Made T p i st st') {q : Nat} {j : SlotIndex} {b : Addr} :
    st'.Holds q j b ↔ st.Holds q j b ∨ (q, j) = (p, i) ∧ b = st.fresh := by
  by_cases hqj : (q, j) = (p, i)
  · cases hqj
    simp [Holds, h.slot, h.wasEmpty, eq_comm]
  · simp [Holds, h.others hqj, hqj]

/-- Made objects satisfy the invariant, and so do the others still. -/
lemma inv (h : Made T p i st st') (hinv : Inv ∅ st) : Inv ∅ st' where
  stored {q j b} hold := by
    rcases h.holds_iff.mp hold with hold | ⟨hqj, rfl⟩
    · obtain ⟨obj, hobj, hid⟩ := hinv.stored hold
      have hqj : (q, j) ≠ (p, i) := by
        rintro heq
        cases heq
        rw [Holds, h.wasEmpty] at hold
        cases hold
      exact ⟨obj, (h.heap_others (hinv.old hobj).ne).trans hobj, by rw [h.others hqj, hid]⟩
    · cases hqj
      exact ⟨_, h.heap, by rw [h.slot]⟩
  unique {q q' j j' b} hq hq' := by
    have hnot : ∀ {q j}, ¬ st.Holds q j st.fresh := by
      intro q j hold
      obtain ⟨obj, hobj, -⟩ := hinv.stored hold
      exact absurd (hinv.old hobj) (lt_irrefl _)
    rcases h.holds_iff.mp hq with hq | ⟨hqj, rfl⟩
    · rcases h.holds_iff.mp hq' with hq' | ⟨-, rfl⟩
      · exact hinv.unique hq hq'
      · exact absurd hq hnot
    · rcases h.holds_iff.mp hq' with hq' | ⟨hqj', -⟩
      · exact absurd hq' hnot
      · cases hqj
        cases hqj'
        exact ⟨rfl, rfl⟩
  inSlot {b obj} hobj _ := by
    by_cases hb : b = st.fresh
    · exact ⟨p, i, h.holds_iff.mpr (.inr ⟨rfl, hb⟩)⟩
    · rw [h.heap_others hb] at hobj
      obtain ⟨q, j, hold⟩ := hinv.inSlot hobj (Set.notMem_empty b)
      exact ⟨q, j, h.holds_iff.mpr (.inl hold)⟩
  dying hb := absurd hb (Set.notMem_empty _)
  old {b obj} hobj := by
    rw [h.fresh]
    by_cases hb : b = st.fresh
    · exact hb ▸ Nat.lt_succ_self _
    · rw [h.heap_others hb] at hobj
      exact (hinv.old hobj).trans (Nat.lt_succ_self _)

/-- A new object owns nothing. -/
lemma owns (h : Made T p i st st') {a b : Addr} (hown : st'.Owns a b) :
    a ≠ st.fresh ∧ st.Owns a b := by
  obtain ⟨obj, hobj, hb⟩ := hown
  by_cases ha : a = st.fresh
  · rw [ha, h.heap] at hobj
    cases hobj
    cases hb
  · rw [h.heap_others ha] at hobj
    exact ⟨ha, obj, hobj, hb⟩

lemma emptyCount (h : Made T p i st st') (q : Nat) :
    st.emptyCount q = st'.emptyCount q + if q = p then 1 else 0 := by
  by_cases hq : q = p
  · subst hq
    rw [if_pos rfl]
    refine emptyCount_of_emptied (i := i) (by simp [h.slot]) h.wasEmpty fun j hj => ?_
    rw [h.others (by simp [hj])]
  · rw [if_neg hq]
    exact emptyCount_congr fun j => (h.others (by simp [hq])).symm

lemma counted (h : Made T p i st st') (hcount : st.Counted) : st'.Counted := by
  intro q
  have h1 := h.count q
  have h2 := h.emptyCount q
  have h3 := hcount q
  omega

end Made

end GifTools.ManagedObjStorage
