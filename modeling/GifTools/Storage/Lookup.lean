import GifTools.Storage.Reach

/-!
# Looking objects up by their ids

An id keeps the low 8 bits of the 32-bit counter of its slot, and `get` compares it with the whole
counter. Hence an object is found by its own id exactly while the counter fits the field; a stale
id is refused after every reuse of its slot, but not before: `get` reads through the empty slot of
an object that was just freed, and past the pages for an id no page was made for.
-/

namespace GifTools.ManagedObjStorage

open Runs

variable {st : ManagedObjStorage}

/-! ### The cases of `get` -/

/-- The slot an id designates. -/
def idSlot (st : ManagedObjStorage) (id : BitVec 32) : Slot :=
  st.slotAt (pageIndex (ManagedObjId.ofComposite id).identifier)
    (slotIndex (ManagedObjId.ofComposite id).identifier)

/-- The page of an id exists. -/
def IdPageExists (st : ManagedObjStorage) (id : BitVec 32) : Prop :=
  pageIndex (ManagedObjId.ofComposite id).identifier < st.mPages.length

/-- The counter of an id's slot is the id's generation. -/
def IdCurrent (st : ManagedObjStorage) (id : BitVec 32) : Prop :=
  (st.idSlot id).generation = (ManagedObjId.ofComposite id).generation.setWidth 32

section

variable {id : BitVec 32}

lemma get_of_no_page (h : ¬ st.IdPageExists id) : st.get id = .error .outOfRange := by
  change (st.page _ >>= fun page => _) = _
  rw [page_eq_error (Nat.not_lt.mp h)]
  rfl

lemma get_eq_pageGet (h : st.IdPageExists id) :
    st.get id = st.pageGet (st.pageAt (pageIndex (ManagedObjId.ofComposite id).identifier))
      (ManagedObjId.ofComposite id) := by
  change (st.page _ >>= fun page => _) = _
  rw [page_ok.mpr (pageAt_of_lt h)]
  rfl

lemma get_of_not_current (h : st.IdPageExists id) (hg : ¬ st.IdCurrent id) :
    st.get id = .ok none := by
  rw [get_eq_pageGet h, pageGet]
  exact if_pos hg

lemma get_of_empty (h : st.IdPageExists id) (hg : st.IdCurrent id)
    (hslot : (st.idSlot id).managedObj = none) : st.get id = .error .nullDeref := by
  rw [idSlot, slotAt] at hslot
  simp only [get_eq_pageGet h, pageGet, hslot]
  exact if_neg (not_not.mpr hg)

lemma get_of_gone (h : st.IdPageExists id) (hg : st.IdCurrent id) {a : Addr}
    (hslot : (st.idSlot id).managedObj = some a) (hobj : st.heap a = none) :
    st.get id = .error .dangling := by
  rw [idSlot, slotAt] at hslot
  simp only [get_eq_pageGet h, pageGet, hslot, deref, hobj, bind, Except.bind]
  exact if_neg (not_not.mpr hg)

lemma get_of_some (h : st.IdPageExists id) (hg : st.IdCurrent id) {a : Addr} {obj : ManagedObj}
    (hslot : (st.idSlot id).managedObj = some a) (hobj : st.heap a = some obj) :
    st.get id = .ok (if obj.mObjId.composite = id then some a else none) := by
  rw [idSlot, slotAt] at hslot
  simp only [get_eq_pageGet h, pageGet, hslot, deref_ok.mpr hobj,
    ManagedObjId.composite_ofComposite, bind, Except.bind, pure, Except.pure]
  refine (if_neg (not_not.mpr hg)).trans ?_
  by_cases hid : obj.mObjId.composite = id
  · rw [if_neg (not_not.mpr hid), if_pos hid]
  · rw [if_pos hid, if_neg hid]

/-- What is known of an id that `get` resolves to an object. -/
lemma get_eq_some {a : Addr} (hget : st.get id = .ok (some a)) :
    st.IdCurrent id ∧ st.Holds (pageIndex (ManagedObjId.ofComposite id).identifier)
      (slotIndex (ManagedObjId.ofComposite id).identifier) a ∧
      ∃ obj, st.heap a = some obj ∧ obj.mObjId.composite = id := by
  have hpage : st.IdPageExists id := by
    by_contra hpage
    rw [get_of_no_page hpage] at hget
    cases hget
  have hcurrent : st.IdCurrent id := by
    by_contra hcurrent
    rw [get_of_not_current hpage hcurrent] at hget
    cases hget
  cases hslot : (st.idSlot id).managedObj with
  | none =>
    rw [get_of_empty hpage hcurrent hslot] at hget
    cases hget
  | some b =>
    cases hobj : st.heap b with
    | none =>
      rw [get_of_gone hpage hcurrent hslot hobj] at hget
      cases hget
    | some obj =>
      rw [get_of_some hpage hcurrent hslot hobj] at hget
      by_cases hid : obj.mObjId.composite = id
      · rw [if_pos hid] at hget
        cases hget
        exact ⟨hcurrent, hslot, obj, hobj, hid⟩
      · rw [if_neg hid] at hget
        cases hget

/-- The typed lookup finds what `get` finds, when the type nibble agrees. -/
lemma getAs_eq_some {T : ManagedClass} {a : Addr} (hget : st.getAs T id = .ok (some a)) :
    st.get id = .ok (some a) ∧
      ∃ obj, st.heap a = some obj ∧ obj.mObjId.type.setWidth 8 = managedType T := by
  obtain ⟨r, hr, hcast⟩ := bind_ok.mp hget
  cases r with
  | none => cases hcast
  | some b =>
    obtain ⟨obj, hobj, hcast⟩ := bind_ok.mp hcast
    by_cases hT : obj.mObjId.type.setWidth 8 = managedType T
    · rw [if_neg (not_not.mpr hT)] at hcast
      cases hcast
      exact ⟨hr, obj, deref_ok.mp hobj, hT⟩
    · rw [if_pos hT] at hcast
      cases hcast

end

/-! ### An object's own id -/

/-- Every object that exists is found by its own id. -/
def FindsAll (st : ManagedObjStorage) : Prop :=
  ∀ a obj, st.heap a = some obj → st.get obj.mObjId.composite = .ok (some a)

/-- A `make` brings the counter of the slot it reserves to a value that fits the 8-bit field. -/
def CounterFits (st : ManagedObjStorage) (op : Op) : Prop :=
  ∀ T p i, op = .make T → st.reserve.2 = some (p, i) →
    ((st.slotAt p i).generation + 1).toNat < 256

lemma setWidth_eq_self {g : BitVec 32} : (g.setWidth 8).setWidth 32 = g ↔ g.toNat < 256 := by
  constructor
  · intro h
    have := congrArg BitVec.toNat h
    simp only [BitVec.toNat_setWidth] at this
    omega
  · intro h
    apply BitVec.eq_of_toNat_eq
    simp only [BitVec.toNat_setWidth]
    omega

lemma get_own_id (h : st.WF) {p : Nat} {i : SlotIndex} {a : Addr} {obj : ManagedObj}
    (hlimit : st.mPages.length ≤ PageLimit) (hold : st.Holds p i a) (hobj : st.heap a = some obj) :
    st.get obj.mObjId.composite = .ok (some a) ↔ (st.slotAt p i).generation.toNat < 256 := by
  obtain ⟨obj', hobj', hid⟩ := h.inv.stored hold
  cases hobj.symm.trans hobj'
  have hp : p % PageLimit = p := Nat.mod_eq_of_lt (hold.lt.trans_le hlimit)
  have hpage : pageIndex obj.mObjId.identifier = p := by rw [hid, pageIndex_placedId, hp]
  have hslot : slotIndex obj.mObjId.identifier = i := by rw [hid, slotIndex_placedId]
  have hidSlot : st.idSlot obj.mObjId.composite = st.slotAt p i := by
    rw [idSlot, ManagedObjId.ofComposite_composite, hpage, hslot]
  have hcurrent : st.IdCurrent obj.mObjId.composite ↔
      (st.slotAt p i).generation.toNat < 256 := by
    rw [← setWidth_eq_self, IdCurrent, hidSlot, ManagedObjId.ofComposite_composite]
    constructor
    · intro hg
      rw [hid] at hg
      exact hg.symm
    · intro hg
      rw [hid]
      exact hg.symm
  rw [← hcurrent]
  have hexists : st.IdPageExists obj.mObjId.composite := by
    rw [IdPageExists, ManagedObjId.ofComposite_composite, hpage]
    exact hold.lt
  constructor
  · exact fun hget => (get_eq_some hget).1
  · intro hg
    rw [get_of_some hexists hg (hidSlot ▸ hold) hobj, if_pos rfl]

/-- Every slot in use has a counter that fits the 8-bit field. -/
def CountersFit (st : ManagedObjStorage) : Prop :=
  ∀ p i a, st.Holds p i a → (st.slotAt p i).generation.toNat < 256

lemma findsAll_iff (h : st.WF) (hlimit : st.mPages.length ≤ PageLimit) :
    st.FindsAll ↔ st.CountersFit := by
  constructor
  · intro hfind p i a hold
    obtain ⟨obj, hobj, -⟩ := h.inv.stored hold
    exact (get_own_id h hlimit hold hobj).mp (hfind a obj hobj)
  · intro hfit a obj hobj
    obtain ⟨p, i, hold⟩ := h.inv.inSlot hobj (Set.notMem_empty a)
    exact (get_own_id h hlimit hold hobj).mpr (hfit p i a hold)

lemma countersFit_step {st' : ManagedObjStorage} {op : Op} (h : st.WF)
    (hstep : step st op = .ok st') (hfit : st.CountersFit) :
    st'.CountersFit ↔ st.CounterFits op := by
  obtain ⟨T, p, i, rfl, hres, hmade⟩ | ⟨S, hS, hloc⟩ | ⟨b, obj, handles, rfl, -, rfl⟩ :=
    step_cases h hstep
  · constructor
    · rintro hfit' T' p' i' - hres'
      cases hres.symm.trans hres'
      have := hfit' p i st.fresh (hmade.holds_iff.mpr (.inr ⟨rfl, rfl⟩))
      rwa [hmade.slot] at this
    · intro hop q j a hold
      rcases hmade.holds_iff.mp hold with hold | ⟨hqj, -⟩
      · have hqj : (q, j) ≠ (p, i) := by
          rintro heq
          cases heq
          rw [Holds, hmade.wasEmpty] at hold
          cases hold
        rw [hmade.others hqj]
        exact hfit q j a hold
      · cases hqj
        rw [hmade.slot]
        exact hop T p i rfl hres
  · refine iff_of_true (fun p i a hold => ?_) ?_
    · rw [hS.generation]
      exact hfit p i a (hS.holds_iff.mp hold).1
    · rintro T p i rfl hres
      rw [storeLoc, hres] at hloc
      cases hloc
  · exact iff_of_true hfit fun T p i h => by cases h

/-- Objects are found by their own ids in every state of a run if and only if each of its `make`s
brings a counter below 256. -/
theorem throughout_findsAll_iff (ops : List Op)
    (hpages : Throughout step (fun st => st.mPages.length ≤ PageLimit) init ops) :
    Throughout step FindsAll init ops ↔ Along step CounterFits init ops := by
  have hinit : CountersFit init := fun p i a hold => by cases hold
  constructor
  · intro hfind pre op t hpre ht T p i hop hres
    have htWF := wf_run wf_init ht
    have hpre' : pre <+: ops := (List.prefix_append ..).trans hpre
    obtain ⟨t', p', i', hres', hmake, -⟩ := make_spec htWF.counted T
    have hstep : step t op = .ok t' := by
      rw [hop, step, hmake]
      rfl
    have ht' : run step init (pre ++ [op]) = .ok t' :=
      run_append_ok.mpr ⟨t, ht, run_singleton_ok.mpr hstep⟩
    have hfit := (findsAll_iff htWF (hpages pre t hpre' ht)).mp (hfind pre t hpre' ht)
    have hfit' := (findsAll_iff (wf_step htWF hstep) (hpages _ t' hpre ht')).mp
      (hfind _ t' hpre ht')
    exact (countersFit_step htWF hstep hfit).mp hfit' T p i hop hres
  · intro halong
    have hfit : Throughout step (fun st => st.WF ∧ st.CountersFit) init ops :=
      Throughout.of_invariant (I := fun st => st.WF ∧ st.CountersFit)
        (fun s op t hs hop hstep =>
          ⟨wf_step hs.1 hstep, (countersFit_step hs.1 hstep hs.2).mpr hop⟩)
        (fun _ hs => hs) ⟨wf_init, hinit⟩ halong
    intro pre t hpre ht
    obtain ⟨htWF, htfit⟩ := hfit pre t hpre ht
    exact (findsAll_iff htWF (hpages pre t hpre ht)).mpr htfit

theorem throughout_findsAll_make :
    Throughout step FindsAll init [.make .buffer] ↔ Along step CounterFits init [.make .buffer] :=
  throughout_findsAll_iff [.make .buffer] (throughout_pages_le (by decide))

/-! ### One slot used over and over -/

/-- Make an object and free it, `n` times; the first of them gets the address `k`. -/
def churn (T : ManagedClass) (k : Addr) : Nat → List Op
  | 0 => []
  | n + 1 => churn T k n ++ [.make T, .free (k + n)]

@[simp] lemma length_churn (T : ManagedClass) (k n : Nat) : (churn T k n).length = 2 * n := by
  induction n with
  | zero => rfl
  | succ n ih =>
    rw [churn, List.length_append, ih, List.length_cons, List.length_singleton]
    omega

/-- The storage after `n` rounds: one page at most, all empty, whose first slot was used
each time. -/
structure Idle (n : Nat) (st : ManagedObjStorage) : Prop where
  wf : st.WF
  length : st.mPages.length ≤ 1
  fresh : st.fresh = n
  empty : ∀ p i, (st.slotAt p i).managedObj = none
  generation : (st.slotAt 0 ⟨0, by decide⟩).generation = BitVec.ofNat 32 n
  gone : ∀ a < n, st.heap a = none

/-- Page and slot are the first ones, as everything is empty. -/
lemma Idle.made {n : Nat} (h : Idle n st) (T : ManagedClass) :
    ∃ st₁, step st (.make T) = .ok st₁ ∧ Made T 0 ⟨0, by decide⟩ st st₁ := by
  obtain ⟨st₁, p, i, -, hmake, hmade⟩ := make_spec h.wf.counted T
  obtain rfl : p = 0 := Nat.eq_zero_of_not_pos fun hp =>
    hmade.first 0 hp ⟨0, by decide⟩ (h.empty 0 _)
  obtain rfl : i = ⟨0, by decide⟩ := by
    by_contra hi
    refine hmade.firstSlot ⟨0, by decide⟩ ?_ (h.empty 0 _)
    exact Fin.lt_def.mpr (Nat.pos_of_ne_zero fun h0 => hi (Fin.ext h0))
  refine ⟨st₁, ?_, hmade⟩
  rw [step, hmake]
  rfl

/-- When the one object is freed, everything is empty again. -/
lemma Idle.freed {n : Nat} {st₁ st₂ : ManagedObjStorage} {T : ManagedClass} (h : Idle n st)
    (hmade : Made T 0 ⟨0, by decide⟩ st st₁) (hwf₁ : st₁.WF) (hlen : st₁.mPages.length = 1)
    (hgen₁ : (st₁.slotAt 0 ⟨0, by decide⟩).generation = BitVec.ofNat 32 (n + 1))
    (hgone : ∀ a < n, st₁.heap a = none) (hfreed : Freed {n} st₁ st₂) : Idle (n + 1) st₂ where
  wf := wf_freed hwf₁ hfreed
  length := hfreed.length.trans_le hlen.le
  fresh := by rw [hfreed.fresh, hmade.fresh, h.fresh]
  empty q j := by
    by_contra hne
    obtain ⟨b, hb⟩ := Option.ne_none_iff_exists'.mp hne
    obtain ⟨hb, hbn⟩ := hfreed.holds_iff.mp hb
    rcases hmade.holds_iff.mp hb with hb | ⟨-, rfl⟩
    · rw [Holds, h.empty] at hb
      cases hb
    · exact hbn h.fresh
  generation := by rw [hfreed.generation, hgen₁]
  gone a ha := by
    rcases Nat.lt_succ_iff_lt_or_eq.mp ha with ha | rfl
    · rw [hfreed.heap a (by simpa using ha.ne), hgone a ha]
    · exact hfreed.gone a rfl

lemma Idle.round {n : Nat} (h : Idle n st) (T : ManagedClass) :
    ∃ st₁ st₂, step st (.make T) = .ok st₁ ∧ st₁.mPages.length = 1 ∧
      st₁.Holds 0 ⟨0, by decide⟩ n ∧
      st₁.heap n = some ⟨placedId 0 ⟨0, by decide⟩ (BitVec.ofNat 32 (n + 1)) T, T, []⟩ ∧
      (st₁.slotAt 0 ⟨0, by decide⟩).generation = BitVec.ofNat 32 (n + 1) ∧
      (∀ a < n, st₁.heap a = none) ∧ step st₁ (.free n) = .ok st₂ ∧ Idle (n + 1) st₂ := by
  obtain ⟨st₁, hstep, hmade⟩ := h.made T
  have hgen : (st.slotAt 0 ⟨0, by decide⟩).generation + 1 = BitVec.ofNat 32 (n + 1) := by
    rw [h.generation, BitVec.ofNat_add]
    rfl
  have hheap := hmade.heap
  rw [hgen, h.fresh] at hheap
  have hlen : st₁.mPages.length = 1 := by
    have := hmade.length
    have := h.length
    omega
  have hold : st₁.Holds 0 ⟨0, by decide⟩ n := hmade.holds_iff.mpr (.inr ⟨rfl, h.fresh.symm⟩)
  have hgen₁ : (st₁.slotAt 0 ⟨0, by decide⟩).generation = BitVec.ofNat 32 (n + 1) := by
    rw [hmade.slot, hgen]
  have hgone : ∀ a < n, st₁.heap a = none := by
    intro a ha
    rw [hmade.heap_others (h.fresh ▸ ha.ne), h.gone a ha]
  have hwf₁ := wf_step h.wf hstep
  obtain ⟨hfree, hfreed⟩ :=
    free_leaf hwf₁.inv (hlen.le.trans (by decide)) hold hheap rfl
  exact ⟨st₁, _, hstep, hlen, hold, hheap, hgen₁, hgone, hfree,
    h.freed hmade hwf₁ hlen hgen₁ hgone hfreed⟩

lemma idle_init : Idle 0 init :=
  ⟨wf_init, Nat.zero_le _, rfl, fun _ _ => rfl, rfl, by simp⟩

lemma Idle.run_churn {k : Nat} (h : Idle k st) (T : ManagedClass) (n : Nat) :
    ∃ st', run step st (churn T k n) = .ok st' ∧ Idle (k + n) st' := by
  induction n with
  | zero => exact ⟨st, rfl, h⟩
  | succ n ih =>
    obtain ⟨st', hrun, hidle⟩ := ih
    obtain ⟨st₁, st₂, hmake, -, -, -, -, -, hfree, hidle₂⟩ := hidle.round T
    exact ⟨st₂, run_append_ok.mpr ⟨st', hrun, run_cons_ok.mpr ⟨st₁, hmake,
      run_singleton_ok.mpr hfree⟩⟩, hidle₂⟩

/-- The object made after 255 rounds brings the counter to 256 and is not found by its id. -/
theorem not_throughout_findsAll :
    ¬ ∀ ops, Throughout step (fun st => st.mPages.length ≤ PageLimit) init ops →
      Throughout step FindsAll init ops := by
  intro h
  obtain ⟨st, hrun, hidle⟩ := idle_init.run_churn .buffer 255
  obtain ⟨st₁, -, hmake, hlen, hold, -, hgen, -⟩ := hidle.round .buffer
  have hrun₁ : run step init (churn .buffer 0 255 ++ [.make .buffer]) = .ok st₁ :=
    run_append_ok.mpr ⟨st, hrun, run_singleton_ok.mpr hmake⟩
  have hfind := (h _ (throughout_pages_le (by simp; decide))).last hrun₁
  have hfit := (findsAll_iff (wf_step hidle.wf hmake) (hlen.le.trans (by decide))).mp hfind
  have := hfit 0 ⟨0, by decide⟩ 255 hold
  rw [hgen] at this
  exact absurd this (by decide)

/-! ### Ids that designate nothing -/

/-- `get` returns, and returns null when no object that exists carries the id. -/
def LookupSafe (st : ManagedObjStorage) (id : BitVec 32) : Prop :=
  ∃ r, st.get id = .ok r ∧
    ((∀ a obj, st.heap a = some obj → obj.mObjId.composite ≠ id) → r = none)

/-- `objectFree` twice in a row returns, and the second call changes nothing. -/
def DoubleFreeSafe (st : ManagedObjStorage) (id : BitVec 32) : Prop :=
  ∃ st', st.objectFree id = .ok st' ∧ st'.objectFree id = .ok st'

/-- The slot of the id holds an object with another id. -/
def IdTaken (st : ManagedObjStorage) (id : BitVec 32) : Prop :=
  ∃ a obj, (st.idSlot id).managedObj = some a ∧ st.heap a = some obj ∧ obj.mObjId.composite ≠ id

lemma lookupSafe_iff (h : st.WF) (id : BitVec 32) :
    st.LookupSafe id ↔
      st.IdPageExists id ∧ (st.IdCurrent id → (st.idSlot id).managedObj ≠ none) := by
  constructor
  · rintro ⟨r, hget, -⟩
    have hpage : st.IdPageExists id := by
      by_contra hpage
      rw [get_of_no_page hpage] at hget
      cases hget
    refine ⟨hpage, fun hg hslot => ?_⟩
    rw [get_of_empty hpage hg hslot] at hget
    cases hget
  · rintro ⟨hpage, hslot⟩
    by_cases hg : st.IdCurrent id
    · obtain ⟨a, ha⟩ := Option.ne_none_iff_exists'.mp (hslot hg)
      obtain ⟨obj, hobj, -⟩ := h.inv.stored ha
      exact ⟨_, get_of_some hpage hg ha hobj, fun hno => if_neg (hno a obj hobj)⟩
    · exact ⟨none, get_of_not_current hpage hg, fun _ => rfl⟩

lemma objectFree_of_get_none {id : BitVec 32} (h : st.get id = .ok none) :
    st.objectFree id = .ok st := by
  change (st.get id >>= fun r => _) = _
  rw [h]
  rfl

/-- An id freed once reads through the empty slot the second time. -/
lemma not_doubleFreeSafe_of_get_some (h : st.WF) {id : BitVec 32} {a : Addr}
    (hget : st.get id = .ok (some a)) : ¬ st.DoubleFreeSafe id := by
  rintro ⟨st', hfree, hagain⟩
  obtain ⟨hg, hold, obj, hobj, hid⟩ := get_eq_some hget
  change (st.get id >>= fun r => _) = _ at hfree
  rw [hget] at hfree
  subst hid
  simp only [ManagedObjId.ofComposite_composite] at hold
  obtain ⟨S, hS, haS⟩ := free_own h.inv hobj hold hfree
  have hslot : st'.idSlot obj.mObjId.composite =
      ⟨none, (st.idSlot obj.mObjId.composite).generation⟩ := by
    simp only [idSlot, ManagedObjId.ofComposite_composite]
    exact hS.emptied hold haS
  have hpage : st'.IdPageExists obj.mObjId.composite := by
    rw [IdPageExists, ManagedObjId.ofComposite_composite, hS.length]
    exact hold.lt
  have hcurrent : st'.IdCurrent obj.mObjId.composite := by
    rw [IdCurrent, hslot]
    exact hg
  change (st'.get _ >>= fun r => _) = _ at hagain
  rw [get_of_empty hpage hcurrent (by rw [hslot])] at hagain
  cases hagain

/-- In a reachable state an id is handled safely, looked up or freed twice, exactly when its page
exists and its slot has another counter or holds an object with another id. The lookup alone also
succeeds for the ids of the objects it finds. -/
theorem lookup_and_double_free_iff (h : st.Reachable) (id : BitVec 32) :
    (st.LookupSafe id ∧ st.DoubleFreeSafe id ↔
        st.IdPageExists id ∧ (¬ st.IdCurrent id ∨ st.IdTaken id)) ∧
      (st.LookupSafe id ↔
        st.IdPageExists id ∧ (st.IdCurrent id → (st.idSlot id).managedObj ≠ none)) := by
  have hwf := h.wf
  refine ⟨⟨?_, ?_⟩, lookupSafe_iff hwf id⟩
  · rintro ⟨hlookup, hfree⟩
    obtain ⟨hpage, hslot⟩ := (lookupSafe_iff hwf id).mp hlookup
    refine ⟨hpage, or_iff_not_imp_left.mpr fun hg => ?_⟩
    have hg := not_not.mp hg
    obtain ⟨a, ha⟩ := Option.ne_none_iff_exists'.mp (hslot hg)
    obtain ⟨obj, hobj, -⟩ := hwf.inv.stored ha
    refine ⟨a, obj, ha, hobj, fun hid => ?_⟩
    have hget := get_of_some hpage hg ha hobj
    rw [if_pos hid] at hget
    exact not_doubleFreeSafe_of_get_some hwf hget hfree
  · rintro ⟨hpage, hother⟩
    have hget : st.get id = .ok none := by
      by_cases hg : st.IdCurrent id
      · obtain ⟨a, obj, ha, hobj, hid⟩ := hother.resolve_left (not_not.mpr hg)
        rw [get_of_some hpage hg ha hobj, if_neg hid]
      · exact get_of_not_current hpage hg
    have hfree := objectFree_of_get_none hget
    exact ⟨⟨none, hget, fun _ => rfl⟩, st, hfree, hfree⟩

/-- A frame is freed with its image, then a buffer, and another frame with its image takes the
first two of the three slots. -/
def reusedOps : List Op :=
  [.make .buffer, .make .ffmpegVideoFrame, .make .image, .own 1 [2], .free 1, .free 0,
    .make .ffmpegVideoFrame, .make .image, .own 3 [4]]

set_option maxRecDepth 20000 in
lemma exists_reused :
    ∃ st, run step init reusedOps = .ok st ∧ st.mPages.length = 1 ∧
      st.heap 1 = none ∧ st.heap 2 = none ∧
      st.heap 3 = some ⟨⟨0, 2, 6⟩, .ffmpegVideoFrame, [4]⟩ ∧
      st.idSlot 0x60200000#32 = ⟨some 3, 2⟩ ∧ st.idSlot 0x30100002#32 = ⟨none, 1⟩ ∧
      ∃ st', st.free 3 = .ok st' :=
  ⟨_, rfl, rfl, rfl, rfl, rfl, rfl, rfl, _, rfl⟩

/-- The id of a buffer in the slot that is taken, the id of the frame in it, and the id of the image
whose slot is empty. -/
theorem lookup_and_double_free_reused :
    ∃ st, run step init reusedOps = .ok st ∧
      (st.LookupSafe 0x10200000#32 ∧ st.DoubleFreeSafe 0x10200000#32) ∧
      (st.LookupSafe 0x60200000#32 ∧ ¬ st.DoubleFreeSafe 0x60200000#32) ∧
      ¬ st.LookupSafe 0x30100002#32 := by
  obtain ⟨st, hrun, hpages, -, -, hheap, htaken, hempty, -⟩ := exists_reused
  have hreachable : st.Reachable := ⟨_, hrun⟩
  have hiff := lookup_and_double_free_iff hreachable
  have hpage (id : BitVec 32) (hid : pageIndex (ManagedObjId.ofComposite id).identifier = 0) :
      st.IdPageExists id := by
    rw [IdPageExists, hid, hpages]
    exact Nat.one_pos
  have hlookup : st.LookupSafe 0x60200000#32 :=
    (hiff _).2.mpr ⟨hpage _ (by decide), fun _ => by rw [htaken]; exact Option.some_ne_none 3⟩
  refine ⟨st, hrun, (hiff _).1.mpr ⟨hpage _ (by decide), .inr ?_⟩, ⟨hlookup, fun hfree => ?_⟩,
    fun hlookup' => ?_⟩
  · exact ⟨3, _, congrArg Slot.managedObj htaken, hheap, by decide⟩
  · rcases ((hiff _).1.mp ⟨hlookup, hfree⟩).2 with hcurrent | ⟨a, obj, ha, hobj, hid⟩
    · rw [IdCurrent, htaken] at hcurrent
      exact hcurrent (by decide)
    · rw [htaken, Option.some.injEq] at ha
      cases (ha ▸ hobj).symm.trans hheap
      exact hid (by decide)
  · refine ((hiff _).2.mp hlookup').2 ?_ (congrArg Slot.managedObj hempty)
    rw [IdCurrent, hempty]
    decide

/-- The invalid id indexes past the pages of the empty storage. -/
theorem not_lookup_safe :
    ¬ ∀ st, Reachable st → ∀ id, st.LookupSafe id ∧ st.DoubleFreeSafe id := by
  intro h
  obtain ⟨⟨r, hr, -⟩, -⟩ := h init ⟨[], rfl⟩ InvalidId
  cases hr

/-! ### Stale ids -/

lemma get_stale_lt {ops ops' ops'' : List Op} {st' st'' : ManagedObjStorage} {a b : Addr}
    {obj : ManagedObj} (hrun : run step init ops = .ok st) (hobj : st.heap a = some obj)
    (hrun' : run step st ops' = .ok st') (hrun'' : run step st' ops'' = .ok st'')
    (hlimit : st''.mPages.length ≤ PageLimit)
    (hstores : ∀ loc, storesTo loc init (ops ++ ops' ++ ops'') < 2 ^ 32)
    (hget : st''.get obj.mObjId.composite = .ok (some b)) : b < st'.fresh := by
  have hwf := wf_run wf_init hrun
  have hrun₂ : run step st (ops' ++ ops'') = .ok st'' := run_append_ok.mpr ⟨st', hrun', hrun''⟩
  obtain ⟨p, i, hold⟩ := hwf.inv.inSlot hobj (Set.notMem_empty a)
  obtain ⟨obj', hobj', hid⟩ := hwf.inv.stored hold
  cases hobj.symm.trans hobj'
  have hp : p % PageLimit = p :=
    Nat.mod_eq_of_lt ((hold.lt.trans_le (run_mono hwf hrun₂).1).trans_le hlimit)
  obtain ⟨hcurrent, hold'', -⟩ := get_eq_some hget
  rw [ManagedObjId.ofComposite_composite, hid, pageIndex_placedId, slotIndex_placedId, hp]
    at hold''
  rw [IdCurrent, idSlot, ManagedObjId.ofComposite_composite, hid, pageIndex_placedId,
    slotIndex_placedId, hp] at hcurrent
  -- the counter did not move since the object was stored, so nothing was stored
  have hnone : storesTo (p, i) st (ops' ++ ops'') = 0 := by
    have hbound := hstores (p, i)
    rw [List.append_assoc, storesTo_append hrun] at hbound
    have hg := run_generation wf_init hrun p i
    have hg'' := run_generation hwf hrun₂ p i
    rw [hcurrent, hg] at hg''
    have := congrArg BitVec.toNat hg''
    have hzero : (0 : BitVec 32).toNat = 0 := rfl
    simp only [placedId, init_slotAt, Slot.empty, BitVec.toNat_setWidth, BitVec.toNat_add,
      BitVec.toNat_ofNat] at this
    omega
  have hba : b = a := (run_content hwf hrun₂ hnone hold'').congr hold
  exact hba ▸ (hwf.inv.old hobj).trans_le (run_mono hwf hrun').2

/-- The 257th object of a slot has the id of the first. -/
lemma ids_repeat :
    ∃ ops ops' st st' a b obj obj', run step init ops = .ok st ∧ st.heap a = some obj ∧
      run step st ops' = .ok st' ∧ st'.heap a = none ∧ st'.heap b = some obj' ∧
      st'.mPages.length ≤ PageLimit ∧ obj.mObjId.composite = obj'.mObjId.composite := by
  obtain ⟨st₁, st₂, hmake, -, -, hobj, -, -, hfree, hidle₂⟩ := idle_init.round .buffer
  obtain ⟨st₃, hrun, hidle₃⟩ := hidle₂.run_churn .buffer 255
  obtain ⟨st₄, -, hmake', hlen, -, hobj', -, hgone, -⟩ := hidle₃.round .buffer
  refine ⟨[.make .buffer], .free 0 :: churn .buffer 1 255 ++ [.make .buffer], st₁, st₄, 0, 256, _,
    _, run_singleton_ok.mpr hmake, hobj, ?_, hgone 0 (by decide), hobj', hlen.le.trans (by decide),
    ?_⟩
  · exact run_append_ok.mpr ⟨st₃, run_cons_ok.mpr ⟨st₂, hfree, hrun⟩, run_singleton_ok.mpr hmake'⟩
  · rw [ManagedObjId.composite_inj]
    rfl

/-- The id of an object that was freed never resolves to an object made since, nor does the typed
lookup, although ids do repeat. -/
theorem stale_id_never_resolves :
    (∀ ops ops' ops'' st st' st'' a obj,
      run step init ops = .ok st → st.heap a = some obj →
      run step st ops' = .ok st' → st'.heap a = none →
      run step st' ops'' = .ok st'' → st''.mPages.length ≤ PageLimit →
      (∀ loc, storesTo loc init (ops ++ ops' ++ ops'') < 2 ^ 32) →
      (∀ b, st''.get obj.mObjId.composite = .ok (some b) → b < st'.fresh) ∧
        ∀ T b, st''.getAs T obj.mObjId.composite = .ok (some b) → b < st'.fresh) ∧
    ∃ ops ops' st st' a b obj obj',
      run step init ops = .ok st ∧ st.heap a = some obj ∧
      run step st ops' = .ok st' ∧ st'.heap a = none ∧ st'.heap b = some obj' ∧
      st'.mPages.length ≤ PageLimit ∧ obj.mObjId.composite = obj'.mObjId.composite := by
  refine ⟨fun ops ops' ops'' st st' st'' a obj hrun hobj hrun' _ hrun'' hlimit hstores => ?_,
    ids_repeat⟩
  have hget : ∀ b, st''.get obj.mObjId.composite = .ok (some b) → b < st'.fresh := fun b =>
    get_stale_lt hrun hobj hrun' hrun'' hlimit hstores
  exact ⟨hget, fun T b hgetAs => hget b (getAs_eq_some hgetAs).1⟩

/-- The slot is used until a buffer gets the id of the one that was freed. -/
theorem stale_id_never_resolves_repeated :
    ∃ st st' st'' obj obj', run step init [.make .buffer] = .ok st ∧ st.heap 0 = some obj ∧
      run step st [.free 0] = .ok st' ∧ st'.heap 0 = none ∧
      run step st' (churn .image 1 255 ++ [.make .buffer]) = .ok st'' ∧
      st''.heap 256 = some obj' ∧ obj'.mObjId = obj.mObjId ∧
      (∀ b, st''.get obj.mObjId.composite = .ok (some b) → b < st'.fresh) ∧
        ∀ T b, st''.getAs T obj.mObjId.composite = .ok (some b) → b < st'.fresh := by
  obtain ⟨st, st', hmake, -, -, hobj, -, -, hfree, hidle⟩ := idle_init.round .buffer
  obtain ⟨st₃, hrun₃, hidle₃⟩ := hidle.run_churn .image 255
  obtain ⟨st'', -, hmake', hlen, -, hobj', -⟩ := hidle₃.round .buffer
  have hrun : run step init [.make .buffer] = .ok st := run_singleton_ok.mpr hmake
  have hrun' : run step st [.free 0] = .ok st' := run_singleton_ok.mpr hfree
  have hrun'' : run step st' (churn .image 1 255 ++ [.make .buffer]) = .ok st'' :=
    run_append_ok.mpr ⟨st₃, hrun₃, run_singleton_ok.mpr hmake'⟩
  have hgone : st'.heap 0 = none := hidle.gone 0 (by decide)
  have hstores (loc) : storesTo loc init ([.make .buffer] ++ [.free 0] ++
      (churn .image 1 255 ++ [.make .buffer])) < 2 ^ 32 := by
    refine (storesTo_le_length loc _ _).trans_lt ?_
    rw [List.length_append, List.length_append, List.length_append, length_churn]
    exact show 1 + 1 + (2 * 255 + 1) < 2 ^ 32 by decide
  exact ⟨st, st', st'', _, _, hrun, hobj, hrun', hgone, hrun'', hobj', rfl,
    stale_id_never_resolves.1 _ _ _ _ _ _ _ _ hrun hobj hrun' hgone hrun''
      (hlen.le.trans (by decide)) hstores⟩

end GifTools.ManagedObjStorage
