import GifTools.Storage.Slots
import Mathlib.Logic.Relation
import Mathlib.Data.Set.Insert

/-!
# What freeing an object does

`Inv D` is the invariant of the storage while the objects in `D` are being destroyed: their slots
are empty already, their memory is not given back yet. Between two operations `D` is empty.

`Freed S st st'` says that `st'` is `st` with the objects in `S` gone: their slots are emptied,
nothing else is touched, and the pages' free counts follow. `freeAux_spec` shows that a call of
`free` frees such a set, made of objects the destructor can reach and, when ids are not truncated,
of all of them.
-/

namespace GifTools.ManagedObjStorage

open Runs

/-- The number of pages a 20-bit identifier can tell apart. -/
def PageLimit : Nat := 4096

/-- The id an object of class `T` gets in slot `i` of page `p` at the counter `generation`. -/
def placedId (p : Nat) (i : SlotIndex) (generation : BitVec 32) (T : ManagedClass) : ManagedObjId :=
  ⟨(managedIndex p i).setWidth 20, generation.setWidth 8, typeNibble T⟩

lemma toNat_placedId (p : Nat) (i : SlotIndex) (g : BitVec 32) (T : ManagedClass) :
    (placedId p i g T).identifier.toNat = (p * 256 + i) % 2 ^ 20 := by
  simp only [placedId, managedIndex, PageLength, BitVec.toNat_setWidth, BitVec.toNat_ofNat]
  omega

@[simp] lemma slotIndex_placedId (p : Nat) (i : SlotIndex) (g : BitVec 32) (T : ManagedClass) :
    slotIndex (placedId p i g T).identifier = i := by
  have hi : i.val < 256 := i.isLt
  ext
  simp only [slotIndex, toNat_placedId, PageLength]
  omega

lemma pageIndex_placedId (p : Nat) (i : SlotIndex) (g : BitVec 32) (T : ManagedClass) :
    pageIndex (placedId p i g T).identifier = p % PageLimit := by
  have hi : i.val < 256 := i.isLt
  simp only [pageIndex, toNat_placedId, PageLength, PageLimit]
  omega

structure Inv (D : Set Addr) (st : ManagedObjStorage) : Prop where
  stored : ∀ {p i a}, st.Holds p i a → ∃ obj, st.heap a = some obj ∧
    obj.mObjId = placedId p i (st.slotAt p i).generation obj.cls
  unique : ∀ {p q i j a}, st.Holds p i a → st.Holds q j a → p = q ∧ i = j
  inSlot : ∀ {a obj}, st.heap a = some obj → a ∉ D → ∃ p i, st.Holds p i a
  dying : ∀ {p i a}, a ∈ D → ¬ st.Holds p i a
  old : ∀ {a obj}, st.heap a = some obj → a < st.fresh

structure Freed (S : Set Addr) (st st' : ManagedObjStorage) : Prop where
  length : st'.mPages.length = st.mPages.length
  fresh : st'.fresh = st.fresh
  stored : ∀ b ∈ S, ∃ p i, st.Holds p i b
  emptied : ∀ {p i b}, st.Holds p i b → b ∈ S →
    st'.slotAt p i = ⟨none, (st.slotAt p i).generation⟩
  kept : ∀ {p i}, (∀ b, st.Holds p i b → b ∉ S) → st'.slotAt p i = st.slotAt p i
  gone : ∀ b ∈ S, st'.heap b = none
  heap : ∀ b ∉ S, st'.heap b = st.heap b
  count : ∀ p, st'.cachedCount p + st.emptyCount p = st.cachedCount p + st'.emptyCount p

/-- The destructor of the object at `a` releases a handle of the object at `b`. -/
def Owns (st : ManagedObjStorage) (a b : Addr) : Prop := ∃ obj, st.heap a = some obj ∧ b ∈ obj.owned

/-- The destructor of the object at `a` destroys, directly or not, the object at `b`. -/
def Reaches (st : ManagedObjStorage) : Addr → Addr → Prop := Relation.ReflTransGen st.Owns

/-! ### Freed storages -/

lemma Freed.refl (st : ManagedObjStorage) : Freed ∅ st st where
  length := rfl
  fresh := rfl
  stored := by simp
  emptied := by simp
  kept _ := rfl
  gone := by simp
  heap _ _ := rfl
  count _ := rfl

section

variable {S T D : Set Addr} {st st₁ st' : ManagedObjStorage}

/-- A slot is emptied or kept. -/
lemma Freed.slot_cases (h : Freed S st st') (p : Nat) (i : SlotIndex) :
    (∃ b ∈ S, st.Holds p i b ∧ st'.slotAt p i = ⟨none, (st.slotAt p i).generation⟩) ∨
      (∀ b, st.Holds p i b → b ∉ S) ∧ st'.slotAt p i = st.slotAt p i := by
  by_cases hS : ∃ b ∈ S, st.Holds p i b
  · obtain ⟨b, hb, hold⟩ := hS
    exact .inl ⟨b, hb, hold, h.emptied hold hb⟩
  · have hS' : ∀ b, st.Holds p i b → b ∉ S := fun b hold hb => hS ⟨b, hb, hold⟩
    exact .inr ⟨hS', h.kept hS'⟩

@[simp] lemma Freed.generation (h : Freed S st st') (p : Nat) (i : SlotIndex) :
    (st'.slotAt p i).generation = (st.slotAt p i).generation := by
  rcases h.slot_cases p i with ⟨b, -, -, heq⟩ | ⟨-, heq⟩ <;> rw [heq]

lemma Freed.holds_iff (h : Freed S st st') {p : Nat} {i : SlotIndex} {b : Addr} :
    st'.Holds p i b ↔ st.Holds p i b ∧ b ∉ S := by
  rcases h.slot_cases p i with ⟨c, hc, hold, heq⟩ | ⟨hS, heq⟩
  · constructor
    · intro hb
      rw [Holds, heq] at hb
      cases hb
    · rintro ⟨hb, hbS⟩
      exact absurd (hb.congr hold ▸ hc) hbS
  · rw [Holds, heq]
    exact ⟨fun hb => ⟨hb, hS b hb⟩, fun hb => hb.1⟩

/-- The heap only loses objects. -/
lemma Freed.heap_some (h : Freed S st st') {b : Addr} {obj : ManagedObj}
    (hb : st'.heap b = some obj) : b ∉ S ∧ st.heap b = some obj := by
  by_cases hS : b ∈ S
  · rw [h.gone b hS] at hb
    cases hb
  · exact ⟨hS, h.heap b hS ▸ hb⟩

lemma Freed.owns (h : Freed S st st') {a b : Addr} (hab : st'.Owns a b) : st.Owns a b := by
  obtain ⟨obj, hobj, hb⟩ := hab
  exact ⟨obj, (h.heap_some hobj).2, hb⟩

lemma Freed.reaches (h : Freed S st st') {a b : Addr} (hab : st'.Reaches a b) :
    st.Reaches a b :=
  Relation.ReflTransGen.mono (fun _ _ => h.owns) _ _ hab

lemma Freed.trans (h : Freed S st st₁) (h' : Freed T st₁ st') : Freed (S ∪ T) st st' where
  length := h'.length.trans h.length
  fresh := h'.fresh.trans h.fresh
  stored b hb := by
    rcases hb with hb | hb
    · exact h.stored b hb
    · obtain ⟨p, i, hold⟩ := h'.stored b hb
      exact ⟨p, i, (h.holds_iff.mp hold).1⟩
  emptied {p i b} hold hb := by
    by_cases hS : b ∈ S
    · have h1 := h.emptied hold hS
      rw [h'.kept, h1]
      intro c hc
      rw [Holds, h1] at hc
      cases hc
    · rw [h'.emptied (h.holds_iff.mpr ⟨hold, hS⟩) (hb.resolve_left hS), h.generation]
  kept {p i} hST := by
    have hS : ∀ b, st.Holds p i b → b ∉ S := fun b hb hbS => hST b hb (.inl hbS)
    rw [h'.kept, h.kept hS]
    intro b hb hbT
    exact hST b (h.holds_iff.mp hb).1 (.inr hbT)
  gone b hb := by
    by_cases hT : b ∈ T
    · exact h'.gone b hT
    · rw [h'.heap b hT, h.gone b (hb.resolve_right hT)]
  heap b hb := by
    rw [h'.heap b fun hT => hb (.inr hT), h.heap b fun hS => hb (.inl hS)]
  count p := by
    have h1 := h.count p
    have h2 := h'.count p
    omega

/-- The invariant speaks of fewer objects after some are freed. -/
lemma Inv.freed (hinv : Inv D st) (h : Freed S st st') : Inv D st' where
  stored {p i a} hold := by
    obtain ⟨hold, haS⟩ := h.holds_iff.mp hold
    obtain ⟨obj, hobj, hid⟩ := hinv.stored hold
    exact ⟨obj, (h.heap a haS).trans hobj, by rw [h.generation, hid]⟩
  unique hp hq := hinv.unique (h.holds_iff.mp hp).1 (h.holds_iff.mp hq).1
  inSlot {a obj} hobj haD := by
    obtain ⟨haS, hobj⟩ := h.heap_some hobj
    obtain ⟨p, i, hold⟩ := hinv.inSlot hobj haD
    exact ⟨p, i, h.holds_iff.mpr ⟨hold, haS⟩⟩
  dying haD hold := hinv.dying haD (h.holds_iff.mp hold).1
  old hobj := by
    rw [h.fresh]
    exact hinv.old (h.heap_some hobj).2

lemma Freed.occupied_le (h : Freed S st st') : st'.occupied ≤ st.occupied := by
  apply ManagedObjStorage.occupied_le h.length
  intro p i hnone
  rcases h.slot_cases p i with ⟨b, -, -, heq⟩ | ⟨-, heq⟩ <;> simp [heq, hnone]

/-! ### A slot emptied before its object is destroyed -/

/-- The storage while the destructor of the object in slot `i` of page `p` runs. -/
def vacate (st : ManagedObjStorage) (p : Nat) (i : SlotIndex) : ManagedObjStorage :=
  st.setSlot p i ⟨none, (st.slotAt p i).generation⟩

variable {p : Nat} {i : SlotIndex} {a : Addr}

lemma vacate_holds (hold : st.Holds p i a) (hinv : Inv D st) {q : Nat} {j : SlotIndex} {b : Addr} :
    (st.vacate p i).Holds q j b ↔ st.Holds q j b ∧ b ≠ a := by
  by_cases hqj : (q, j) = (p, i)
  · cases hqj
    rw [vacate, Holds, slotAt_setSlot hold.lt]
    exact ⟨fun h => (by cases h), fun h => absurd (h.1.congr hold) h.2⟩
  · rw [vacate, Holds, slotAt_setSlot_ne hqj]
    refine ⟨fun hb => ⟨hb, ?_⟩, fun h => h.1⟩
    rintro rfl
    obtain ⟨rfl, rfl⟩ := hinv.unique hold hb
    exact hqj rfl

lemma vacate_generation (q : Nat) (j : SlotIndex) :
    ((st.vacate p i).slotAt q j).generation = (st.slotAt q j).generation := by
  by_cases hqj : (q, j) = (p, i)
  · cases hqj
    by_cases hp : p < st.mPages.length
    · rw [vacate, slotAt_setSlot hp]
    · rw [vacate, setSlot_of_le (by omega)]
  · rw [vacate, slotAt_setSlot_ne hqj]

lemma Inv.vacate (hinv : Inv D st) (hold : st.Holds p i a) :
    Inv (insert a D) (st.vacate p i) where
  stored h := by
    obtain ⟨obj, hobj, hid⟩ := hinv.stored ((vacate_holds hold hinv).mp h).1
    exact ⟨obj, hobj, by rw [vacate_generation, hid]⟩
  unique h h' := hinv.unique ((vacate_holds hold hinv).mp h).1 ((vacate_holds hold hinv).mp h').1
  inSlot hobj hD := by
    rw [Set.mem_insert_iff, not_or] at hD
    obtain ⟨q, j, hq⟩ := hinv.inSlot hobj hD.2
    exact ⟨q, j, (vacate_holds hold hinv).mpr ⟨hq, hD.1⟩⟩
  dying hD h := by
    obtain ⟨hq, hne⟩ := (vacate_holds hold hinv).mp h
    exact hinv.dying (hD.resolve_left hne) hq
  old hobj := hinv.old hobj

/-- The removal empties one slot. -/
lemma vacate_emptyCount (hold : st.Holds p i a) (q : Nat) :
    (st.vacate p i).emptyCount q = st.emptyCount q + if q = p then 1 else 0 := by
  by_cases hqp : q = p
  · subst hqp
    rw [if_pos rfl]
    refine emptyCount_of_emptied (i := i) ?_ (by rw [vacate, slotAt_setSlot hold.lt]) fun j hj => ?_
    · rw [hold]
      simp
    · rw [vacate, slotAt_setSlot_ne (by simp [hj])]
  · rw [if_neg hqp]
    apply emptyCount_congr
    intro j
    exact slotAt_setSlot_ne (by simp [hqp]) _

/-- Once the destructor has freed the objects in `S`, giving the memory back and counting the slot
as free completes the removal of the object itself. -/
lemma Freed.complete (hinv : Inv D st) (hold : st.Holds p i a)
    (h : Freed S (st.vacate p i) st') : Freed (insert a S) st ((st'.dealloc a).incFree p) := by
  have hlen : st'.mPages.length = st.mPages.length := by
    rw [h.length, ManagedObjStorage.vacate, setSlot_length]
  have haS : a ∉ S := by
    intro haS
    obtain ⟨q, j, hq⟩ := h.stored a haS
    exact ((vacate_holds hold hinv).mp hq).2 rfl
  have hslot_i : st'.slotAt p i = ⟨none, (st.slotAt p i).generation⟩ := by
    rw [h.kept, ManagedObjStorage.vacate, slotAt_setSlot hold.lt]
    intro b hb
    rw [Holds, ManagedObjStorage.vacate, slotAt_setSlot hold.lt] at hb
    cases hb
  refine
    { length := by simpa using hlen
      fresh := h.fresh
      stored := ?_, emptied := ?_, kept := ?_, gone := ?_, heap := ?_, count := ?_ }
  · rintro b (rfl | hb)
    · exact ⟨p, i, hold⟩
    · obtain ⟨q, j, hq⟩ := h.stored b hb
      exact ⟨q, j, ((vacate_holds hold hinv).mp hq).1⟩
  · rintro q j b hb hbS
    rw [incFree_slotAt, dealloc_slotAt]
    by_cases hba : b = a
    · subst hba
      obtain ⟨rfl, rfl⟩ := hinv.unique hold hb
      exact hslot_i
    · rw [h.emptied ((vacate_holds hold hinv).mpr ⟨hb, hba⟩) (hbS.resolve_left hba),
        vacate_generation]
  · intro q j hq
    have hqj : (q, j) ≠ (p, i) := by
      rintro heq
      cases heq
      exact hq a hold (.inl rfl)
    rw [incFree_slotAt, dealloc_slotAt, h.kept, ManagedObjStorage.vacate, slotAt_setSlot_ne hqj]
    intro b hb hbS
    exact hq b ((vacate_holds hold hinv).mp hb).1 (.inr hbS)
  · rintro b (rfl | hb)
    · simp
    · rw [incFree_heap, dealloc_heap_ne (ne_of_mem_of_not_mem hb haS), h.gone b hb]
  · intro b hb
    rw [Set.mem_insert_iff, not_or] at hb
    rw [incFree_heap, dealloc_heap_ne hb.1, h.heap b hb.2, ManagedObjStorage.vacate, setSlot_heap]
  · intro q
    have hcount := h.count q
    have hempty : ((st'.dealloc a).incFree p).emptyCount q = st'.emptyCount q :=
      emptyCount_congr fun j => by rw [incFree_slotAt, dealloc_slotAt]
    have hvacate := vacate_emptyCount hold q
    rw [incFree_cachedCount (by simpa [hlen] using hold.lt), dealloc_cachedCount, hempty]
    rw [hvacate, ManagedObjStorage.vacate, setSlot_cachedCount] at hcount
    by_cases hqp : q = p
    · simp only [hqp, if_true] at hcount ⊢
      omega
    · simp only [hqp, if_false] at hcount ⊢
      omega

/-! ### The specification of `free` -/

section

variable {release : ManagedObjStorage → Addr → Except Fault ManagedObjStorage}
  {page : ManagedObjStoragePage} {obj : ManagedObj}

lemma pageFree_of_not_holds (hpage : st.page p = .ok page)
    (hold : ¬ st.Holds p (slotIndex obj.mObjId.identifier) a) :
    st.pageFree release p page a obj = .ok st := by
  rw [Holds] at hold
  simp only [pageFree, mSlots_eq_slotAt hpage]
  exact if_pos hold

lemma pageFree_of_holds (hpage : st.page p = .ok page) (hobj : st.deref a = .ok obj)
    (hold : st.Holds p (slotIndex obj.mObjId.identifier) a) :
    st.pageFree release p page a obj =
      (obj.owned.foldlM release (st.vacate p (slotIndex obj.mObjId.identifier)) >>= fun st' =>
        .ok ((st'.dealloc a).incFree p)) := by
  rw [Holds] at hold
  simp only [pageFree, mSlots_eq_slotAt hpage, hobj, bind, Except.bind, managedObjIdEqual_self]
  exact if_neg (not_not.mpr hold)

end

/-- What one call of `free` does: nothing when the page's slot is not the object's, else the slot
is vacated, the destructor runs, and the object is gone. -/
lemma freeAux_cases {depth : Nat} (h : freeAux (depth + 1) st a = .ok st') :
    ∃ obj, st.heap a = some obj ∧
      (¬ st.Holds (pageIndex obj.mObjId.identifier) (slotIndex obj.mObjId.identifier) a ∧ st' = st ∨
        st.Holds (pageIndex obj.mObjId.identifier) (slotIndex obj.mObjId.identifier) a ∧
          ∃ st₁, obj.owned.foldlM (freeAux depth) (st.vacate (pageIndex obj.mObjId.identifier)
              (slotIndex obj.mObjId.identifier)) = .ok st₁ ∧
            st' = (st₁.dealloc a).incFree (pageIndex obj.mObjId.identifier)) := by
  obtain ⟨obj, hobj, h⟩ := bind_ok.mp h
  obtain ⟨page, hpage, h⟩ := bind_ok.mp h
  refine ⟨obj, deref_ok.mp hobj, ?_⟩
  by_cases hold : st.Holds (pageIndex obj.mObjId.identifier) (slotIndex obj.mObjId.identifier) a
  · rw [pageFree_of_holds hpage hobj hold] at h
    obtain ⟨st₁, hst₁, h⟩ := bind_ok.mp h
    cases h
    exact .inr ⟨hold, st₁, hst₁, rfl⟩
  · rw [pageFree_of_not_holds hpage hold] at h
    cases h
    exact .inl ⟨hold, rfl⟩

/-- What releasing the handles `cs` frees, while the objects in `D` are being destroyed. With ids
that are not truncated nothing reachable is left over. -/
structure Releases (D : Set Addr) (st : ManagedObjStorage) (cs : List Addr) (S : Set Addr) :
    Prop where
  reach : ∀ b ∈ S, ∃ c ∈ cs, st.Reaches c b
  closed : st.mPages.length ≤ PageLimit → ∀ b ∈ S, ∀ c, st.Owns b c → c ∈ S ∪ D
  roots : st.mPages.length ≤ PageLimit → ∀ c ∈ cs, c ∈ S ∪ D

/-- Handles released one after the other. -/
lemma foldlM_release_spec {release : ManagedObjStorage → Addr → Except Fault ManagedObjStorage}
    (hrelease : ∀ st st' a, Inv D st → release st a = .ok st' →
      ∃ S, Freed S st st' ∧ Releases D st [a] S)
    {cs : List Addr} (hinv : Inv D st) (h : cs.foldlM release st = .ok st') :
    ∃ S, Freed S st st' ∧ Releases D st cs S := by
  induction cs generalizing st with
  | nil =>
    cases h
    exact ⟨∅, .refl _, by simp, by simp, by simp⟩
  | cons c cs ih =>
    rw [List.foldlM_cons] at h
    obtain ⟨st₁, hc, hcs⟩ := bind_ok.mp h
    obtain ⟨S, hS, hrS⟩ := hrelease st st₁ c hinv hc
    obtain ⟨T, hT, hrT⟩ := ih (hinv.freed hS) hcs
    have hlen := hS.length
    refine ⟨S ∪ T, hS.trans hT, ?_, ?_, ?_⟩
    · rintro b (hb | hb)
      · obtain ⟨c', hc', hreach⟩ := hrS.reach b hb
        exact ⟨c', List.mem_cons.mpr (.inl (List.mem_singleton.mp hc')), hreach⟩
      · obtain ⟨c', hc', hreach⟩ := hrT.reach b hb
        exact ⟨c', List.mem_cons_of_mem _ hc', hS.reaches hreach⟩
    · rintro hlimit b (hb | hb) c' hown
      · rcases hrS.closed hlimit b hb c' hown with h | h
        · exact .inl (.inl h)
        · exact .inr h
      · have hbS : b ∉ S := by
          intro hbS
          obtain ⟨p, i, hold⟩ := hT.stored b hb
          exact (hS.holds_iff.mp hold).2 hbS
        obtain ⟨obj, hobj, hmem⟩ := hown
        rcases hrT.closed (hlen ▸ hlimit) b hb c' ⟨obj, (hS.heap b hbS).trans hobj, hmem⟩ with h | h
        · exact .inl (.inr h)
        · exact .inr h
    · intro hlimit c' hc'
      rcases List.mem_cons.mp hc' with rfl | hc'
      · rcases hrS.roots hlimit c' (List.mem_singleton_self c') with h | h
        · exact .inl (.inl h)
        · exact .inr h
      · rcases hrT.roots (hlen ▸ hlimit) c' hc' with h | h
        · exact .inl (.inr h)
        · exact .inr h

lemma freeAux_spec {depth : Nat} (hinv : Inv D st) (h : freeAux depth st a = .ok st') :
    ∃ S, Freed S st st' ∧ Releases D st [a] S := by
  induction depth generalizing st st' a D with
  | zero => cases h
  | succ depth ih =>
    obtain ⟨obj, hobj, ⟨hfree, rfl⟩ | ⟨hold, st₁, hfold, rfl⟩⟩ := freeAux_cases h
    · -- the slot is not the object's: with untruncated ids it is being destroyed already
      refine ⟨∅, .refl _, by simp, by simp, fun hlimit c hc => ?_⟩
      rw [List.mem_singleton.mp hc]
      by_contra hD
      rw [Set.empty_union] at hD
      obtain ⟨p, i, hold⟩ := hinv.inSlot hobj hD
      obtain ⟨obj', hobj', hid⟩ := hinv.stored hold
      cases hobj.symm.trans hobj'
      have hp : p % PageLimit = p := Nat.mod_eq_of_lt (hold.lt.trans_le hlimit)
      rw [hid, pageIndex_placedId, slotIndex_placedId, hp] at hfree
      exact hfree hold
    · obtain ⟨S, hS, hrS⟩ :=
        foldlM_release_spec (fun st st' a hinv h => ih hinv h) (hinv.vacate hold) hfold
      have hlen : (st.vacate (pageIndex obj.mObjId.identifier)
          (slotIndex obj.mObjId.identifier)).mPages.length = st.mPages.length := setSlot_length ..
      refine ⟨insert a S, hS.complete hinv hold, ?_, ?_, fun _ c hc => ?_⟩
      · rintro b (rfl | hb)
        · exact ⟨b, List.mem_singleton_self b, .refl⟩
        · obtain ⟨c, hc, hreach⟩ := hrS.reach b hb
          exact ⟨a, List.mem_singleton_self a, .head ⟨obj, hobj, hc⟩ hreach⟩
      · rintro hlimit b (rfl | hb) c hown
        · obtain ⟨obj', hobj', hc⟩ := hown
          cases hobj.symm.trans hobj'
          rcases hrS.roots (hlen ▸ hlimit) c hc with h | rfl | h
          · exact .inl (.inr h)
          · exact .inl (.inl rfl)
          · exact .inr h
        · rcases hrS.closed (hlen ▸ hlimit) b hb c hown with h | rfl | h
          · exact .inl (.inr h)
          · exact .inl (.inl rfl)
          · exact .inr h
      · exact .inl (.inl (List.mem_singleton.mp hc))

lemma Releases.subset_reaches (h : Releases D st [a] S) : S ⊆ {b | st.Reaches a b} := by
  intro b hb
  obtain ⟨c, hc, hreach⟩ := h.reach b hb
  exact List.mem_singleton.mp hc ▸ hreach

lemma Releases.mem_iff {cs : List Addr} {b : Addr} (h : Releases ∅ st cs S)
    (hlimit : st.mPages.length ≤ PageLimit) : b ∈ S ↔ ∃ c ∈ cs, st.Reaches c b := by
  constructor
  · exact h.reach b
  · rintro ⟨c, hc, hreach⟩
    induction hreach with
    | refl => simpa using h.roots hlimit c hc
    | tail _ hown ih => simpa using h.closed hlimit _ ih _ hown

lemma Releases.eq_reaches (h : Releases ∅ st [a] S) (hlimit : st.mPages.length ≤ PageLimit) :
    S = {b | st.Reaches a b} := by
  ext b
  rw [h.mem_iff hlimit]
  simp

/-- Between two operations, `free` frees exactly what the destructor can reach. -/
lemma free_spec (hinv : Inv ∅ st) (h : st.free a = .ok st') :
    ∃ S, Freed S st st' ∧ S ⊆ {b | st.Reaches a b} ∧
      (st.mPages.length ≤ PageLimit → S = {b | st.Reaches a b}) := by
  obtain ⟨S, hS, hrS⟩ := freeAux_spec hinv h
  exact ⟨S, hS, hrS.subset_reaches, hrS.eq_reaches⟩

/-- A call of `free` that finds the object in the slot of its id does free it. -/
lemma free_own {obj : ManagedObj} (hinv : Inv ∅ st) (hobj : st.heap a = some obj)
    (hold : st.Holds (pageIndex obj.mObjId.identifier) (slotIndex obj.mObjId.identifier) a)
    (h : st.free a = .ok st') : ∃ S, Freed S st st' ∧ a ∈ S := by
  obtain ⟨obj', hobj', ⟨hnot, -⟩ | ⟨-, st₁, hfold, rfl⟩⟩ := freeAux_cases h
  · cases hobj.symm.trans hobj'
    exact absurd hold hnot
  · cases hobj.symm.trans hobj'
    obtain ⟨S, hS, -⟩ :=
      foldlM_release_spec (fun st st' a hinv h => freeAux_spec hinv h) (hinv.vacate hold) hfold
    exact ⟨insert a S, hS.complete hinv hold, Set.mem_insert a S⟩

/-- Freeing an object that owns nothing and is in the slot of its id. -/
lemma free_eq_of_leaf {obj : ManagedObj} (hobj : st.heap a = some obj) (howned : obj.owned = [])
    (hpage : pageIndex obj.mObjId.identifier = p) (hslot : slotIndex obj.mObjId.identifier = i)
    (hold : st.Holds p i a) : st.free a = .ok (((st.vacate p i).dealloc a).incFree p) := by
  change (st.deref a >>= fun obj => _) = _
  rw [deref_ok.mpr hobj]
  change (st.page (pageIndex obj.mObjId.identifier) >>= fun page => _) = _
  rw [hpage, page_ok.mpr (pageAt_of_lt hold.lt)]
  change st.pageFree _ p _ a obj = _
  rw [pageFree_of_holds (page_ok.mpr (pageAt_of_lt hold.lt)) (deref_ok.mpr hobj) (hslot ▸ hold),
    howned, hslot]
  rfl

lemma freed_leaf (hinv : Inv ∅ st) (hold : st.Holds p i a) :
    Freed {a} st (((st.vacate p i).dealloc a).incFree p) := by
  have h := (Freed.refl (st.vacate p i)).complete hinv hold
  rwa [insert_empty_eq] at h

lemma free_leaf {obj : ManagedObj} (hinv : Inv ∅ st) (hlimit : st.mPages.length ≤ PageLimit)
    (hold : st.Holds p i a) (hobj : st.heap a = some obj) (howned : obj.owned = []) :
    st.free a = .ok (((st.vacate p i).dealloc a).incFree p) ∧
      Freed {a} st (((st.vacate p i).dealloc a).incFree p) := by
  obtain ⟨obj', hobj', hid⟩ := hinv.stored hold
  cases hobj.symm.trans hobj'
  have hp : p % PageLimit = p := Nat.mod_eq_of_lt (hold.lt.trans_le hlimit)
  have hpage : pageIndex obj.mObjId.identifier = p := by rw [hid, pageIndex_placedId, hp]
  have hslot : slotIndex obj.mObjId.identifier = i := by rw [hid, slotIndex_placedId]
  exact ⟨free_eq_of_leaf hobj howned hpage hslot hold, freed_leaf hinv hold⟩

/-! ### The depth bound is never reached -/

lemma foldlM_ne_fuel {release : ManagedObjStorage → Addr → Except Fault ManagedObjStorage}
    {n : Nat} (hok : ∀ st st' a, Inv D st → release st a = .ok st' →
      ∃ S, Freed S st st' ∧ Releases D st [a] S)
    (hne : ∀ st a, Inv D st → st.occupied < n → release st a ≠ .error .fuel)
    {cs : List Addr} (hinv : Inv D st) (hocc : st.occupied < n) :
    cs.foldlM release st ≠ .error .fuel := by
  induction cs generalizing st with
  | nil => exact nofun
  | cons c cs ih =>
    intro h
    rw [List.foldlM_cons] at h
    rcases bind_error.mp h with hc | ⟨st₁, hc, hcs⟩
    · exact hne st c hinv hocc hc
    · obtain ⟨S, hS, -⟩ := hok st st₁ c hinv hc
      exact ih (hinv.freed hS) (hS.occupied_le.trans_lt hocc) hcs

lemma freeAux_ne_fuel {depth : Nat} (hinv : Inv D st) (hocc : st.occupied < depth) :
    freeAux depth st a ≠ .error .fuel := by
  induction depth generalizing st a D with
  | zero => omega
  | succ depth ih =>
    intro h
    rcases bind_error.mp h with hobj | ⟨obj, hobj, h⟩
    · rw [deref] at hobj
      split at hobj <;> cases hobj
    rcases bind_error.mp h with hpage | ⟨page, hpage, h⟩
    · rw [ManagedObjStorage.page] at hpage
      split at hpage <;> cases hpage
    by_cases hold : st.Holds (pageIndex obj.mObjId.identifier) (slotIndex obj.mObjId.identifier) a
    · rw [pageFree_of_holds hpage hobj hold] at h
      rcases bind_error.mp h with hfold | ⟨st₁, hst₁, h⟩
      · refine foldlM_ne_fuel (fun st st' a hinv h => freeAux_spec hinv h)
          (fun st a hinv hocc => ih hinv hocc) (hinv.vacate hold) ?_ hfold
        exact Nat.lt_of_lt_of_le (occupied_setSlot_lt hold _ rfl) (by omega)
      · cases h
    · rw [pageFree_of_not_holds hpage hold] at h
      cases h

lemma free_ne_fuel (hinv : Inv ∅ st) : st.free a ≠ .error .fuel :=
  freeAux_ne_fuel hinv occupied_lt_liveBound

end

end GifTools.ManagedObjStorage
