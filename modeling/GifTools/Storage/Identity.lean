import GifTools.Storage.Reach

/-!
# The ids `make` gives out

The 20 bits of `identifier` tell 4096 pages of 256 slots apart, while pages are added without
limit. The ids are distinct, designate the slots their objects are in and are positive as `int`s
exactly as long as `make` finds room in the first 4096 pages.
-/

namespace GifTools.ManagedObjStorage

open Runs

variable {st : ManagedObjStorage}

/-- What the id of the object at `a` must be like: no other object has it, it leads back to the slot
the object is in, and `GifTools.isValidObj` takes it for the id of an object. -/
structure ProperId (st : ManagedObjStorage) (a : Addr) (obj : ManagedObj) : Prop where
  distinct : ∀ b obj', st.heap b = some obj' → b ≠ a →
    obj'.mObjId.composite ≠ obj.mObjId.composite
  inSlot : st.Holds (obj.mObjId.identifier.toNat / 256)
    ⟨obj.mObjId.identifier.toNat % 256, Nat.mod_lt _ (by decide)⟩ a
  valid : 0 < obj.mObjId.composite.toInt

/-- A `make` returns the empty handle or an object with a proper id. -/
def MakesProper (st : ManagedObjStorage) (op : Op) : Prop :=
  ∀ T, op = .make T → ∃ st' r, st.make T = .ok (st', r) ∧
    ∀ a, r = some a → ∃ obj, st'.heap a = some obj ∧ st'.ProperId a obj

/-- One of the first 4096 pages does not exist yet or has an empty slot. -/
def Room (st : ManagedObjStorage) : Prop :=
  ∃ p < PageLimit, ∃ i, (st.slotAt p i).managedObj = none

def MakesInRoom (st : ManagedObjStorage) (op : Op) : Prop := ∀ T, op = .make T → st.Room

section

variable {T : ManagedClass} {p : Nat} {i : SlotIndex} {st' : ManagedObjStorage}

/-- `make` takes the first free slot, which lies in the first 4096 pages if any does. -/
lemma Made.lt_of_room (h : Made T p i st st') (hroom : st.Room) : p < PageLimit := by
  obtain ⟨q, hq, j, hempty⟩ := hroom
  by_contra hp
  exact h.first q (by omega) j hempty

lemma Made.room (h : Made T p i st st') (hp : p < PageLimit) : st.Room := ⟨p, hp, i, h.wasEmpty⟩

lemma Made.length_le (h : Made T p i st st') (hp : p < PageLimit)
    (hlimit : st.mPages.length ≤ PageLimit) : st'.mPages.length ≤ PageLimit := by
  have := h.length
  omega

/-- While there are no more than 4096 pages, the slot of an object is computed from its id. -/
lemma holds_of_id (hwf : st.WF) (hlimit : st.mPages.length ≤ PageLimit) {a : Addr}
    {obj : ManagedObj} (hobj : st.heap a = some obj) :
    st.Holds (pageIndex obj.mObjId.identifier) (slotIndex obj.mObjId.identifier) a := by
  obtain ⟨q, j, hold⟩ := hwf.inv.inSlot hobj (Set.notMem_empty a)
  obtain ⟨obj', hobj', hid⟩ := hwf.inv.stored hold
  cases hobj.symm.trans hobj'
  rwa [hid, pageIndex_placedId, slotIndex_placedId, Nat.mod_eq_of_lt (hold.lt.trans_le hlimit)]

lemma Made.properId (h : Made T p i st st') (hwf : st'.WF)
    (hlimit : st'.mPages.length ≤ PageLimit) :
    ∃ obj, st'.heap st.fresh = some obj ∧ st'.ProperId st.fresh obj := by
  refine ⟨_, h.heap, fun b obj hobj hb heq => ?_, holds_of_id hwf hlimit h.heap,
    ManagedObjId.toInt_composite_pos (T := T) rfl⟩
  -- equal ids designate one slot, which holds one object
  have hold := holds_of_id hwf hlimit hobj
  rw [ManagedObjId.composite_inj.mp heq] at hold
  exact hb (hold.congr (holds_of_id hwf hlimit h.heap))

/-- An object beyond the first 4096 pages has the id of a slot in front of them. -/
lemma Made.room_of_properId (h : Made T p i st st') (hwf : st'.WF) {obj : ManagedObj}
    (hobj : st'.heap st.fresh = some obj) (hid : st'.ProperId st.fresh obj) : st.Room := by
  cases hobj.symm.trans h.heap
  have hp : p % PageLimit = p := by
    rw [← pageIndex_placedId p i ((st.slotAt p i).generation + 1) T]
    exact (hwf.inv.unique hid.inSlot (h.holds_iff.mpr (.inr ⟨rfl, rfl⟩))).1
  exact h.room (hp ▸ Nat.mod_lt p (by decide))

end

lemma makesInRoom_of_makesProper {op : Op} (hwf : st.WF) (hop : st.MakesProper op) :
    st.MakesInRoom op := by
  rintro T rfl
  obtain ⟨st', p, i, -, hmake, hmade⟩ := make_spec hwf.counted T
  obtain ⟨st'', r, hmake', hproper⟩ := hop T rfl
  cases hmake.symm.trans hmake'
  obtain ⟨obj, hobj, hid⟩ := hproper _ rfl
  exact hmade.room_of_properId ⟨hmade.inv hwf.inv, hmade.counted hwf.counted⟩ hobj hid

lemma makesProper_of_makesInRoom {op : Op} (hwf : st.WF) (hlimit : st.mPages.length ≤ PageLimit)
    (hop : st.MakesInRoom op) : st.MakesProper op := by
  rintro T rfl
  obtain ⟨st', p, i, -, hmake, hmade⟩ := make_spec hwf.counted T
  refine ⟨st', _, hmake, fun a ha => ?_⟩
  cases ha
  exact hmade.properId ⟨hmade.inv hwf.inv, hmade.counted hwf.counted⟩
    (hmade.length_le (hmade.lt_of_room (hop T rfl)) hlimit)

/-- The pages stay within the limit when every `make` finds room. -/
lemma step_within_limit {op : Op} {st' : ManagedObjStorage}
    (h : st.WF ∧ st.mPages.length ≤ PageLimit) (hop : st.MakesInRoom op)
    (hstep : step st op = .ok st') : st'.WF ∧ st'.mPages.length ≤ PageLimit := by
  refine ⟨wf_step h.1 hstep, ?_⟩
  obtain ⟨T, p, i, rfl, -, hmade⟩ | ⟨S, hS, -⟩ | ⟨a, obj, handles, -, -, rfl⟩ :=
    step_cases h.1 hstep
  · exact hmade.length_le (hmade.lt_of_room (hop T rfl)) h.2
  · exact hS.length.trans_le h.2
  · exact h.2

/-- Every `make` of a run gives its object a proper id if and only if each finds room in the first
4096 pages. -/
theorem along_makesProper_iff (ops : List Op) :
    Along step MakesProper init ops ↔ Along step MakesInRoom init ops := by
  constructor
  · intro hproper pre op t hpre ht
    exact makesInRoom_of_makesProper (wf_run wf_init ht) (hproper pre op t hpre ht)
  · intro hroom pre op t hpre ht
    have hlimit : Throughout step (fun st => st.WF ∧ st.mPages.length ≤ PageLimit) init ops :=
      Throughout.of_invariant (fun _ _ _ => step_within_limit) (fun _ => id)
        ⟨wf_init, Nat.zero_le _⟩ hroom
    obtain ⟨hwf, hle⟩ := hlimit pre t ((List.prefix_append pre [op]).trans hpre) ht
    exact makesProper_of_makesInRoom hwf hle (hroom pre op t hpre ht)

/-! ### A storage that is filled -/

/-- The first `n` slots are in use and the others empty. -/
def Filled (n : Nat) (st : ManagedObjStorage) : Prop :=
  ∀ p (i : SlotIndex), (st.slotAt p i).managedObj = none ↔ n ≤ p * 256 + i

lemma Filled.make {n : Nat} (h : Filled n st) (hwf : st.WF) (T : ManagedClass) :
    ∃ st', step st (.make T) = .ok st' ∧ Filled (n + 1) st' := by
  obtain ⟨st', p, i, -, hmake, hmade⟩ := make_spec hwf.counted T
  have hi : i.val < 256 := i.isLt
  have hn : p * 256 + i = n := by
    have hle : n ≤ p * 256 + i := (h p i).mp hmade.wasEmpty
    obtain ⟨j, hj⟩ : ∃ j : SlotIndex, j.val = n % 256 := ⟨⟨n % 256, Nat.mod_lt _ (by decide)⟩, rfl⟩
    have hdiv : n ≤ n / 256 * 256 + j.val := hj ▸ (Nat.div_add_mod' n 256).ge
    have hempty : (st.slotAt (n / 256) j).managedObj = none := (h _ j).mpr hdiv
    have hp : p ≤ n / 256 := Nat.le_of_not_lt fun hlt => hmade.first _ hlt j hempty
    obtain rfl : p = n / 256 := by omega
    have hij : i ≤ j := not_lt.mp fun hlt => hmade.firstSlot j hlt hempty
    have : i.val ≤ j.val := hij
    omega
  refine ⟨st', by rw [step, hmake]; rfl, fun q j => ?_⟩
  have hj : j.val < 256 := j.isLt
  by_cases hqj : (q, j) = (p, i)
  · cases hqj
    rw [hmade.slot]
    simp only [reduceCtorEq, false_iff]
    omega
  · rw [hmade.others hqj, h]
    have hne : q * 256 + j.val ≠ n := by
      intro heq
      obtain rfl : q = p := by omega
      exact hqj (by rw [Fin.ext (a := j) (b := i) (by omega)])
    omega

lemma run_replicate_make (T : ManagedClass) (n : Nat) :
    ∃ st, run step init (List.replicate n (.make T)) = .ok st ∧ st.WF ∧ Filled n st := by
  induction n with
  | zero => exact ⟨init, rfl, wf_init, fun _ _ => by simp [Slot.empty]⟩
  | succ n ih =>
    obtain ⟨st, hrun, hwf, hfilled⟩ := ih
    obtain ⟨st', hstep, hfilled'⟩ := hfilled.make hwf T
    rw [List.replicate_succ']
    exact ⟨st', run_append_ok.mpr ⟨st, hrun, run_singleton_ok.mpr hstep⟩, wf_step hwf hstep,
      hfilled'⟩

/-- With a million objects alive, the next one takes the id of a slot it is not in. -/
theorem not_along_makesProper : ¬ ∀ ops, Along step MakesProper init ops := by
  intro h
  obtain ⟨st, hrun, hwf, hfilled⟩ := run_replicate_make .buffer (2 ^ 20)
  have hop : st.MakesProper (.make .buffer) := h _ _ _ _ List.prefix_rfl hrun
  obtain ⟨p, hp, i, hempty⟩ := makesInRoom_of_makesProper hwf hop .buffer rfl
  have hle := (hfilled p i).mp hempty
  have hi : i.val < 256 := i.isLt
  rw [PageLimit] at hp
  omega

end GifTools.ManagedObjStorage
