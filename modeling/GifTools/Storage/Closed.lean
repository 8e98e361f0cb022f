import GifTools.Storage.Accounting
import GifTools.Storage.Close

/-!
# Storages with closed streams

A closed stream keeps its slot and loses its id, so a storage with closed streams is not
well-formed any more. `st.closedAs C` is the storage `st` with the objects in `C` closed. What the
operations do to the other objects does not depend on `C` being closed: each of them commutes with
closing.
-/

namespace GifTools.ManagedObjStorage

open Runs

open Classical in
/-- The objects in `C` lose their ids. -/
noncomputable def closedAs (C : Set Addr) (st : ManagedObjStorage) : ManagedObjStorage :=
  { st with heap := fun a =>
      if a ∈ C then (st.heap a).map fun obj => { obj with mObjId := managedObjIdMake }
      else st.heap a }

/-- No object appears or changes, some may be gone. -/
structure Shrinks (st st' : ManagedObjStorage) : Prop where
  heap : ∀ b obj, st'.heap b = some obj → st.heap b = some obj
  length : st'.mPages.length = st.mPages.length
  fresh : st'.fresh = st.fresh

section

variable {C S : Set Addr} {st st' : ManagedObjStorage} {a b : Addr} {p : Nat} {i : SlotIndex}

/-! ### What closing leaves -/

@[simp] lemma closedAs_mPages : (st.closedAs C).mPages = st.mPages := rfl

@[simp] lemma closedAs_fresh : (st.closedAs C).fresh = st.fresh := rfl

@[simp] lemma closedAs_slotAt : (st.closedAs C).slotAt p i = st.slotAt p i := rfl

@[simp] lemma closedAs_holds : (st.closedAs C).Holds p i a ↔ st.Holds p i a := Iff.rfl

@[simp] lemma closedAs_liveBound : (st.closedAs C).liveBound = st.liveBound := rfl

lemma closedAs_heap_of_mem (ha : a ∈ C) : (st.closedAs C).heap a =
    (st.heap a).map fun obj => { obj with mObjId := managedObjIdMake } := if_pos ha

lemma closedAs_heap_of_notMem (ha : a ∉ C) : (st.closedAs C).heap a = st.heap a := if_neg ha

lemma closedAs_heap_eq_some {obj : ManagedObj} (h : (st.closedAs C).heap a = some obj) :
    ∃ obj', st.heap a = some obj' ∧ obj.cls = obj'.cls ∧ obj.owned = obj'.owned ∧
      (a ∈ C → obj.mObjId = managedObjIdMake) ∧ (a ∉ C → obj = obj') := by
  by_cases ha : a ∈ C
  · rw [closedAs_heap_of_mem ha] at h
    obtain ⟨obj', hobj', rfl⟩ := Option.map_eq_some_iff.mp h
    exact ⟨obj', hobj', rfl, rfl, fun _ => rfl, absurd ha⟩
  · rw [closedAs_heap_of_notMem ha] at h
    exact ⟨obj, h, rfl, rfl, fun h => absurd h ha, fun _ => rfl⟩

lemma closedAs_heap_of_some {obj : ManagedObj} (h : st.heap a = some obj) :
    ∃ obj', (st.closedAs C).heap a = some obj' ∧ obj'.cls = obj.cls ∧ obj'.owned = obj.owned := by
  by_cases ha : a ∈ C
  · refine ⟨{ obj with mObjId := managedObjIdMake }, ?_, rfl, rfl⟩
    rw [closedAs_heap_of_mem ha, h]
    rfl
  · exact ⟨obj, by rw [closedAs_heap_of_notMem ha, h], rfl, rfl⟩

@[simp] lemma closedAs_live : (st.closedAs C).Live a ↔ st.Live a := by
  constructor
  · rintro ⟨obj, hobj⟩
    obtain ⟨obj', hobj', -⟩ := closedAs_heap_eq_some hobj
    exact ⟨obj', hobj'⟩
  · rintro ⟨obj, hobj⟩
    obtain ⟨obj', hobj', -⟩ := closedAs_heap_of_some (C := C) hobj
    exact ⟨obj', hobj'⟩

@[simp] lemma closedAs_owns : (st.closedAs C).Owns a b ↔ st.Owns a b := by
  constructor
  · rintro ⟨obj, hobj, hb⟩
    obtain ⟨obj', hobj', -, howned, -⟩ := closedAs_heap_eq_some hobj
    exact ⟨obj', hobj', howned ▸ hb⟩
  · rintro ⟨obj, hobj, hb⟩
    obtain ⟨obj', hobj', -, howned⟩ := closedAs_heap_of_some (C := C) hobj
    exact ⟨obj', hobj', howned ▸ hb⟩

@[simp] lemma closedAs_empty : st.closedAs ∅ = st := by
  simp [closedAs]

/-! ### The parts of an operation -/

lemma closedAs_deref (ha : a ∉ C) : (st.closedAs C).deref a = st.deref a := by
  rw [deref, closedAs_heap_of_notMem ha, deref]

lemma closedAs_dealloc : (st.closedAs C).dealloc a = (st.dealloc a).closedAs C := by
  simp only [closedAs, dealloc, mk.injEq, true_and, and_true]
  funext b
  by_cases hb : b = a
  · subst hb
    simp
  · simp [hb]

lemma closedAs_setObj (ha : a ∉ C) (obj : ManagedObj) :
    (st.closedAs C).setObj a obj = (st.setObj a obj).closedAs C := by
  simp only [closedAs, setObj, mk.injEq, true_and, and_true]
  funext b
  by_cases hb : b = a
  · subst hb
    simp [ha]
  · simp [hb]

lemma closedAs_close {obj : ManagedObj} (hobj : st.heap a = some obj) (howned : obj.owned = []) :
    (st.closedAs C).setObj a ⟨managedObjIdMake, obj.cls, []⟩ = st.closedAs (insert a C) := by
  simp only [closedAs, setObj, mk.injEq, true_and, and_true]
  funext b
  by_cases hb : b = a
  · subst hb
    simp [hobj, howned]
  · by_cases hC : b ∈ C
    · simp [hb, hC]
    · simp [hb, hC]

/-! ### Freeing -/

lemma Shrinks.refl (st : ManagedObjStorage) : Shrinks st st := ⟨fun _ _ h => h, rfl, rfl⟩

lemma Shrinks.trans {st'' : ManagedObjStorage} (h : Shrinks st st') (h' : Shrinks st' st'') :
    Shrinks st st'' where
  heap b obj hobj := h.heap b obj (h'.heap b obj hobj)
  length := h'.length.trans h.length
  fresh := h'.fresh.trans h.fresh

lemma Shrinks.owns (h : Shrinks st st') (hab : st'.Owns a b) : st.Owns a b := by
  obtain ⟨obj, hobj, hb⟩ := hab
  exact ⟨obj, h.heap a obj hobj, hb⟩

lemma Shrinks.reaches (h : Shrinks st st') (hab : st'.Reaches a b) : st.Reaches a b :=
  hab.lift id fun _ _ => h.owns

lemma Shrinks.foldlM {release : ManagedObjStorage → Addr → Except Fault ManagedObjStorage}
    (hrelease : ∀ (st : ManagedObjStorage) a st', release st a = .ok st' → Shrinks st st')
    {cs : List Addr} (h : cs.foldlM release st = .ok st') : Shrinks st st' := by
  rw [← run_eq_foldlM] at h
  exact run_induction .refl (fun _ _ _ => .trans) hrelease h

lemma freeAux_shrinks {depth : Nat} (h : freeAux depth st a = .ok st') : Shrinks st st' := by
  induction depth generalizing st a st' with
  | zero => cases h
  | succ depth ih =>
    obtain ⟨obj, hobj, ⟨-, rfl⟩ | ⟨-, st₁, hfold, rfl⟩⟩ := freeAux_cases h
    · exact .refl _
    · have hshrinks := Shrinks.foldlM (fun _ _ _ => ih) hfold
      refine ⟨fun b objb hb => ?_, ?_, hshrinks.fresh⟩
      swap
      · rw [incFree_length, dealloc_length, hshrinks.length, vacate, setSlot_length]
      rw [incFree_heap] at hb
      by_cases hba : b = a
      · rw [hba, dealloc_heap_self] at hb
        cases hb
      · rw [dealloc_heap_ne hba] at hb
        exact hshrinks.heap b objb hb

lemma free_shrinks (h : st.free a = .ok st') : Shrinks st st' := freeAux_shrinks h

lemma foldlM_closedAs {release : ManagedObjStorage → Addr → Except Fault ManagedObjStorage}
    (hrelease : ∀ st a, (∀ b, st.Reaches a b → b ∉ C) →
      release (st.closedAs C) a = (release st a).map (closedAs C))
    (hshrinks : ∀ st a st', release st a = .ok st' → Shrinks st st')
    {cs : List Addr} (hcs : ∀ c ∈ cs, ∀ b, st.Reaches c b → b ∉ C) :
    cs.foldlM release (st.closedAs C) = (cs.foldlM release st).map (closedAs C) := by
  induction cs generalizing st with
  | nil => rfl
  | cons c cs ih =>
    rw [List.foldlM_cons, List.foldlM_cons, hrelease st c (hcs c (by simp))]
    cases hc : release st c with
    | error e => rfl
    | ok st₁ =>
      apply ih
      intro c' hc' b hb
      exact hcs c' (by simp [hc']) b ((hshrinks st c st₁ hc).reaches hb)

lemma freeAux_closedAs {depth : Nat} (ha : ∀ b, st.Reaches a b → b ∉ C) :
    freeAux depth (st.closedAs C) a = (freeAux depth st a).map (closedAs C) := by
  induction depth generalizing st a with
  | zero => rfl
  | succ depth ih =>
    change ((st.closedAs C).deref a >>= fun obj => _) =
      (st.deref a >>= fun obj => _).map (closedAs C)
    rw [closedAs_deref (ha a .refl)]
    cases hobj : st.deref a with
    | error e => rfl
    | ok obj =>
      set p := pageIndex obj.mObjId.identifier with hp
      change (st.page p >>= fun page => _) = (st.page p >>= fun page => _).map (closedAs C)
      cases hpage : st.page p with
      | error e => rfl
      | ok page =>
        change (st.closedAs C).pageFree (freeAux depth) p page a obj =
          (st.pageFree (freeAux depth) p page a obj).map (closedAs C)
        by_cases hold : st.Holds p (slotIndex obj.mObjId.identifier) a
        · have howned : ∀ c ∈ obj.owned, ∀ b,
              (st.vacate p (slotIndex obj.mObjId.identifier)).Reaches c b → b ∉ C := by
            intro c hc b hb
            exact ha b (.head ⟨obj, deref_ok.mp hobj, hc⟩ hb)
          rw [pageFree_of_holds hpage hobj hold, @pageFree_of_holds (st.closedAs C) _ _ _ _ _ hpage
            ((closedAs_deref (ha a .refl)).trans hobj) hold]
          change (obj.owned.foldlM (freeAux depth)
            ((st.vacate p (slotIndex obj.mObjId.identifier)).closedAs C) >>= fun st' => _) = _
          rw [foldlM_closedAs (fun _ _ => ih) (fun _ _ _ => freeAux_shrinks) howned]
          cases hfold : obj.owned.foldlM (freeAux depth)
              (st.vacate p (slotIndex obj.mObjId.identifier)) with
          | error e => rfl
          | ok st₁ =>
            change Except.ok (((st₁.closedAs C).dealloc a).incFree p) = _
            rw [closedAs_dealloc]
            rfl
        · rw [pageFree_of_not_holds hpage hold,
            @pageFree_of_not_holds (st.closedAs C) _ _ _ _ _ hpage hold]
          rfl

/-- Freeing objects that were not closed commutes with closing others. -/
lemma free_closedAs (ha : ∀ b, st.Reaches a b → b ∉ C) :
    (st.closedAs C).free a = (st.free a).map (closedAs C) := by
  rw [free, closedAs_liveBound, freeAux_closedAs ha, free]

lemma Freed.closedAs (h : Freed S st st') : Freed S (st.closedAs C) (st'.closedAs (C \ S)) where
  length := h.length
  fresh := h.fresh
  stored := h.stored
  emptied := h.emptied
  kept := h.kept
  gone b hb := by
    rw [closedAs_heap_of_notMem fun hbC => hbC.2 hb]
    exact h.gone b hb
  heap b hb := by
    by_cases hbC : b ∈ C
    · have hbS : b ∈ C \ S := ⟨hbC, hb⟩
      rw [closedAs_heap_of_mem hbS, closedAs_heap_of_mem hbC, h.heap b hb]
    · rw [closedAs_heap_of_notMem fun hbS => hbC hbS.1, closedAs_heap_of_notMem hbC, h.heap b hb]
  count := h.count

/-! ### Making -/

lemma reserve_closedAs :
    (st.closedAs C).reserve = (st.reserve.1.closedAs C, st.reserve.2) := by
  simp only [reserve, closedAs_mPages]
  split <;> rfl

lemma Reserved.closedAs (h : Reserved p i st st') :
    Reserved p i (st.closedAs C) (st'.closedAs C) where
  wasEmpty := h.wasEmpty
  first := h.first
  firstSlot := h.firstSlot
  le := h.le
  length := h.length
  slots := h.slots
  count := h.count
  heap := by simp only [ManagedObjStorage.closedAs, h.heap]
  fresh := h.fresh

/-- Making an object commutes with closing others. -/
lemma make_closedAs (hcounted : st.Counted) (hfresh : st.fresh ∉ C) (T : ManagedClass) :
    ∃ st' p i, st.make T = .ok (st', some st.fresh) ∧
      (st.closedAs C).make T = .ok (st'.closedAs C, some st.fresh) ∧ Made T p i st st' := by
  obtain ⟨st₁, p, i, hres, hR⟩ := reserve_spec hcounted
  obtain ⟨st', q, j, hres', hmake, hmade⟩ := make_spec hcounted T
  rw [hres] at hres'
  cases hres'
  refine ⟨st', p, i, hmake, ?_, hmade⟩
  rw [make_eq hres hR T] at hmake
  cases hmake
  have hresC : (st.closedAs C).reserve = (st₁.closedAs C, some (p, i)) := by
    rw [reserve_closedAs, hres]
  rw [make_eq hresC hR.closedAs T]
  change Except.ok (((ManagedObjStorage.closedAs C { st₁ with fresh := st.fresh + 1 }).setObj
    st.fresh _).setSlot p i _, some st.fresh) = _
  rw [closedAs_setObj hfresh]
  rfl

lemma Made.closedAs {T : ManagedClass} (h : Made T p i st st') (hfresh : st.fresh ∉ C) :
    Made T p i (st.closedAs C) (st'.closedAs C) where
  wasEmpty := h.wasEmpty
  first := h.first
  firstSlot := h.firstSlot
  le := h.le
  length := h.length
  fresh := h.fresh
  slot := h.slot
  others := h.others
  heap := (closedAs_heap_of_notMem hfresh).trans h.heap
  heap_others {b} hb := by
    by_cases hbC : b ∈ C
    · rw [closedAs_heap_of_mem hbC, closedAs_heap_of_mem hbC, h.heap_others hb]
    · rw [closedAs_heap_of_notMem hbC, closedAs_heap_of_notMem hbC, h.heap_others hb]
  count := h.count

end

end GifTools.ManagedObjStorage
