import GifTools.Storage.Make

/-!
# Runs of the storage

`step_cases` says what one operation can do; everything that holds along runs is derived from it:
the invariant `WF`, that pages and addresses only grow, and that the counter of a slot counts, up
to the width of the counter, the objects stored there (`storesTo`).
-/

namespace GifTools.ManagedObjStorage

open Runs

/-- The invariant of the storage between two operations. -/
structure WF (st : ManagedObjStorage) : Prop where
  inv : Inv ∅ st
  counted : st.Counted

/-- The object at `a` exists. -/
def Live (st : ManagedObjStorage) (a : Addr) : Prop := ∃ obj, st.heap a = some obj

/-- The slot the operation stores a new object in. -/
def storeLoc (st : ManagedObjStorage) : Op → Option (Nat × SlotIndex)
  | .make _ => st.reserve.2
  | _ => none

/-- How many of the operations of a run store an object in the given slot. -/
def storesTo (loc : Nat × SlotIndex) : ManagedObjStorage → List Op → Nat
  | _, [] => 0
  | st, op :: ops =>
    (if st.storeLoc op = some loc then 1 else 0) +
      match step st op with
      | .ok st' => storesTo loc st' ops
      | .error _ => 0

/-! ### The initial state -/

@[simp] lemma init_slotAt (p : Nat) (i : SlotIndex) : init.slotAt p i = .empty := rfl

lemma wf_init : WF .init where
  inv :=
    { stored := fun h => by cases h
      unique := fun h => by cases h
      inSlot := fun h => by cases h
      dying := fun _ h => by cases h
      old := fun h => by cases h }
  counted p := by
    simp only [emptyCount, init_slotAt, Slot.empty]
    simp [cachedCount, pageAt, init, ManagedObjStoragePage.new]

/-! ### One step -/

section

variable {st st' : ManagedObjStorage}

lemma wf_freed {S : Set Addr} (h : st.WF) (hS : Freed S st st') : st'.WF where
  inv := h.inv.freed hS
  counted p := by
    have h1 := hS.count p
    have h2 := h.counted p
    omega

/-- Moving handles into or out of an object touches neither slots nor ids. -/
lemma inv_setObj_owned {a : Addr} {obj : ManagedObj} (h : Inv ∅ st) (hobj : st.heap a = some obj)
    (handles : List Addr) : Inv ∅ (st.setObj a { obj with owned := handles }) where
  stored {p i b} hold := by
    obtain ⟨obj', hobj', hid⟩ := h.stored (a := b) hold
    by_cases hb : b = a
    · subst hb
      cases hobj.symm.trans hobj'
      exact ⟨_, setObj_heap_self .., hid⟩
    · exact ⟨obj', (setObj_heap_ne hb _).trans hobj', hid⟩
  unique hp hq := h.unique (show st.Holds _ _ _ from hp) (show st.Holds _ _ _ from hq)
  inSlot {b obj'} hobj' hb := by
    by_cases hba : b = a
    · exact hba.symm ▸ h.inSlot hobj (Set.notMem_empty a)
    · exact h.inSlot ((setObj_heap_ne hba _) ▸ hobj') hb
  dying hb := absurd hb (Set.notMem_empty _)
  old {b obj'} hobj' := by
    by_cases hba : b = a
    · exact hba.symm ▸ h.old hobj
    · exact h.old ((setObj_heap_ne hba _) ▸ hobj')

/-- What an operation of a client can do. -/
lemma step_cases {op : Op} (h : st.WF) (hstep : step st op = .ok st') :
    (∃ T p i, op = .make T ∧ st.reserve.2 = some (p, i) ∧ Made T p i st st') ∨
      (∃ S, Freed S st st' ∧ st.storeLoc op = none) ∨
      ∃ a obj handles, op = .own a handles ∧ st.heap a = some obj ∧
        st' = st.setObj a { obj with owned := handles } := by
  cases op with
  | make T =>
    obtain ⟨st₁, p, i, hres, hmake, hmade⟩ := make_spec h.counted T
    simp only [step, hmake] at hstep
    cases hstep
    exact .inl ⟨T, p, i, rfl, hres, hmade⟩
  | free a =>
    obtain ⟨S, hS, -⟩ := free_spec h.inv hstep
    exact .inr (.inl ⟨S, hS, rfl⟩)
  | objectFree objectId =>
    obtain ⟨r, hr, hstep⟩ := bind_ok.mp hstep
    cases r with
    | none =>
      cases hstep
      exact .inr (.inl ⟨∅, .refl st, rfl⟩)
    | some a =>
      obtain ⟨S, hS, -⟩ := free_spec h.inv hstep
      exact .inr (.inl ⟨S, hS, rfl⟩)
  | own owner handles =>
    obtain ⟨obj, hobj, hstep⟩ := bind_ok.mp hstep
    cases hstep
    exact .inr (.inr ⟨owner, obj, handles, rfl, deref_ok.mp hobj, rfl⟩)

lemma wf_step {op : Op} (h : st.WF) (hstep : step st op = .ok st') : st'.WF := by
  obtain ⟨T, p, i, -, -, hmade⟩ | ⟨S, hS, -⟩ | ⟨a, obj, handles, -, hobj, rfl⟩ :=
    step_cases h hstep
  · exact ⟨hmade.inv h.inv, hmade.counted h.counted⟩
  · exact wf_freed h hS
  · exact ⟨inv_setObj_owned h.inv hobj handles, h.counted⟩

/-- Pages are only added and addresses only grow. -/
lemma step_mono {op : Op} (h : st.WF) (hstep : step st op = .ok st') :
    st.mPages.length ≤ st'.mPages.length ∧ st.fresh ≤ st'.fresh := by
  obtain ⟨T, p, i, -, -, hmade⟩ | ⟨S, hS, -⟩ | ⟨a, obj, handles, -, -, rfl⟩ := step_cases h hstep
  · exact ⟨hmade.length ▸ le_max_left .., hmade.fresh ▸ Nat.le_succ _⟩
  · exact ⟨hS.length.ge, hS.fresh.ge⟩
  · exact ⟨le_rfl, le_rfl⟩

/-- A step moves the counter of the slot it stores to, and no other. -/
lemma step_generation {op : Op} (h : st.WF) (hstep : step st op = .ok st') (p : Nat)
    (i : SlotIndex) :
    (st'.slotAt p i).generation = (st.slotAt p i).generation +
      if st.storeLoc op = some (p, i) then 1 else 0 := by
  obtain ⟨T, q, j, rfl, hres, hmade⟩ | ⟨S, hS, hloc⟩ | ⟨a, obj, handles, rfl, -, rfl⟩ :=
    step_cases h hstep
  · rw [storeLoc, hres]
    by_cases hqj : (p, i) = (q, j)
    · cases hqj
      rw [hmade.slot, if_pos rfl]
    · rw [hmade.others hqj, if_neg fun heq => hqj (Option.some.inj heq).symm]
      simp
  · simp [hS.generation, hloc]
  · simp [storeLoc]

/-- A slot an operation does not store to keeps its object or loses it. -/
lemma step_content {op : Op} (h : st.WF) (hstep : step st op = .ok st') {p : Nat} {i : SlotIndex}
    (hloc : st.storeLoc op ≠ some (p, i)) {a : Addr} (hold : st'.Holds p i a) : st.Holds p i a := by
  obtain ⟨T, q, j, rfl, hres, hmade⟩ | ⟨S, hS, -⟩ | ⟨b, obj, handles, rfl, -, rfl⟩ :=
    step_cases h hstep
  · rw [storeLoc, hres] at hloc
    rcases hmade.holds_iff.mp hold with hold | ⟨hqj, -⟩
    · exact hold
    · exact absurd (congrArg some hqj.symm) hloc
  · exact (hS.holds_iff.mp hold).1
  · exact hold

end

/-! ### Whole runs -/

section

variable {st st' : ManagedObjStorage} {ops : List Op}

lemma wf_run (h : st.WF) (hrun : run step st ops = .ok st') : st'.WF :=
  run_invariant (fun _ _ _ => wf_step) h hrun

lemma Reachable.wf (h : st.Reachable) : st.WF := by
  obtain ⟨ops, hrun⟩ := h
  exact wf_run wf_init hrun

lemma run_mono (h : st.WF) (hrun : run step st ops = .ok st') :
    st.mPages.length ≤ st'.mPages.length ∧ st.fresh ≤ st'.fresh := by
  induction ops generalizing st with
  | nil =>
    cases hrun
    exact ⟨le_rfl, le_rfl⟩
  | cons op ops ih =>
    obtain ⟨u, hu, hrun⟩ := run_cons_ok.mp hrun
    have h1 := step_mono h hu
    have h2 := ih (wf_step h hu) hrun
    exact ⟨h1.1.trans h2.1, h1.2.trans h2.2⟩

/-- Each operation adds at most one page. -/
lemma run_length_le (h : st.WF) (hrun : run step st ops = .ok st') :
    st'.mPages.length ≤ st.mPages.length + ops.length := by
  induction ops generalizing st with
  | nil =>
    cases hrun
    exact le_rfl
  | cons op ops ih =>
    obtain ⟨u, hu, hrun⟩ := run_cons_ok.mp hrun
    have hone : u.mPages.length ≤ st.mPages.length + 1 := by
      obtain ⟨T, p, i, -, -, hmade⟩ | ⟨S, hS, -⟩ | ⟨a, obj, handles, -, -, rfl⟩ :=
        step_cases h hu
      · have := hmade.length
        have := hmade.le
        omega
      · have := hS.length
        omega
      · exact Nat.le_succ _
    have := ih (wf_step h hu) hrun
    rw [List.length_cons]
    omega

lemma throughout_pages_le {ops : List Op} (h : ops.length ≤ PageLimit) :
    Throughout step (fun st => st.mPages.length ≤ PageLimit) init ops := by
  intro pre t hpre ht
  have := run_length_le wf_init ht
  have := hpre.length_le
  simp only [init, List.length_nil] at *
  omega

lemma storesTo_cons {loc : Nat × SlotIndex} {op : Op} (hstep : step st op = .ok st') :
    storesTo loc st (op :: ops) =
      (if st.storeLoc op = some loc then 1 else 0) + storesTo loc st' ops := by
  rw [storesTo, hstep]

lemma storesTo_append {loc : Nat × SlotIndex} {ops' : List Op}
    (hrun : run step st ops = .ok st') :
    storesTo loc st (ops ++ ops') = storesTo loc st ops + storesTo loc st' ops' := by
  induction ops generalizing st with
  | nil =>
    cases hrun
    simp [storesTo]
  | cons op ops ih =>
    obtain ⟨u, hu, hrun⟩ := run_cons_ok.mp hrun
    rw [List.cons_append, storesTo_cons hu, storesTo_cons hu, ih hrun, Nat.add_assoc]

lemma storesTo_le_length (loc : Nat × SlotIndex) (st : ManagedObjStorage) (ops : List Op) :
    storesTo loc st ops ≤ ops.length := by
  induction ops generalizing st with
  | nil => exact le_rfl
  | cons op ops ih =>
    have hone : (if st.storeLoc op = some loc then 1 else 0) ≤ 1 := by split <;> decide
    rw [storesTo, List.length_cons]
    cases step st op with
    | ok st' =>
      have := ih st'
      simp only
      omega
    | error _ =>
      simp only
      omega

/-- The counter of a slot counts the objects stored there, modulo its width. -/
lemma run_generation (h : st.WF) (hrun : run step st ops = .ok st') (p : Nat) (i : SlotIndex) :
    (st'.slotAt p i).generation =
      (st.slotAt p i).generation + BitVec.ofNat 32 (storesTo (p, i) st ops) := by
  induction ops generalizing st with
  | nil =>
    cases hrun
    simp [storesTo]
  | cons op ops ih =>
    obtain ⟨u, hu, hrun⟩ := run_cons_ok.mp hrun
    rw [ih (wf_step h hu) hrun, step_generation h hu, storesTo_cons hu, BitVec.ofNat_add,
      BitVec.add_assoc]
    congr 2
    split <;> rfl

/-- A slot no operation of a run stores to keeps its object or loses it. -/
lemma run_content (h : st.WF) (hrun : run step st ops = .ok st') {p : Nat} {i : SlotIndex}
    (hstores : storesTo (p, i) st ops = 0) {a : Addr} (hold : st'.Holds p i a) :
    st.Holds p i a := by
  induction ops generalizing st with
  | nil =>
    cases hrun
    exact hold
  | cons op ops ih =>
    obtain ⟨u, hu, hrun⟩ := run_cons_ok.mp hrun
    rw [storesTo_cons hu] at hstores
    have hloc : st.storeLoc op ≠ some (p, i) := fun heq => by simp [heq] at hstores
    exact step_content h hu hloc (ih (wf_step h hu) hrun (by omega))

end

end GifTools.ManagedObjStorage
