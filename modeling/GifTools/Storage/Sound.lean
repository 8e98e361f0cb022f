import GifTools.Storage.Closed

/-!
# Sound storages

A storage is sound if some of its streams were closed and, apart from that, it is well-formed and
its handles are the only ones of objects that exist. Making an object, moving handles into an
object, closing a stream and freeing an object that nobody owns keep a storage sound.

While there are more than 4096 pages nothing is asked of the handles: ids are truncated then.
-/

namespace GifTools.ManagedObjStorage

open Runs

/-- The storage as it was before the streams in `C` were closed. No stream is ever owned. -/
structure Reopened (C : Set Addr) (st : ManagedObjStorage) : Prop where
  wf : st.WF
  closed : ∀ a ∈ C, ∃ obj, st.heap a = some obj ∧ obj.cls = .ffmpegVideoStream ∧ obj.owned = []
  typed : ∀ {a b}, st.Owns a b → b < st.fresh ∧
    ∀ obj, st.heap b = some obj → obj.cls ≠ .ffmpegVideoStream
  sole : st.mPages.length ≤ PageLimit → SoleOwners ∅ st

def Sound (st : ManagedObjStorage) : Prop := ∃ C st₀, Reopened C st₀ ∧ st = st₀.closedAs C

/-- An object of class `T` that was not closed. -/
def IsOpen (T : ManagedClass) (a : Addr) (st : ManagedObjStorage) : Prop :=
  ∃ obj, st.heap a = some obj ∧ obj.cls = T ∧ obj.mObjId ≠ managedObjIdMake

/-- Nobody owns the object, and it was not closed. -/
structure Unheld (a : Addr) (st : ManagedObjStorage) : Prop where
  notOwned : st.mPages.length ≤ PageLimit → ∀ c, ¬ st.Owns c a
  notClosed : ∀ obj, st.heap a = some obj → obj.mObjId ≠ managedObjIdMake

/-- If the object still exists, it is of class `T` and was not closed. -/
structure OpenIfLive (T : ManagedClass) (a : Addr) (st : ManagedObjStorage) : Prop where
  lt_fresh : a < st.fresh
  isOpen : ∀ obj, st.heap a = some obj → obj.cls = T ∧ obj.mObjId ≠ managedObjIdMake

/-- An object that exists only for the code that holds its handle. -/
structure Loose (T : ManagedClass) (a : Addr) (st : ManagedObjStorage) : Prop where
  isOpen : IsOpen T a st
  notOwned : ∀ c, ¬ st.Owns c a

section

variable {C S : Set Addr} {st st' : ManagedObjStorage} {a b : Addr} {p : Nat} {i : SlotIndex}
  {T U : ManagedClass} {id : BitVec 32}

lemma Unheld.shrinks (h : Unheld a st) (hs : Shrinks st st') : Unheld a st' where
  notOwned hlimit c hown := h.notOwned (hs.length ▸ hlimit) c (hs.owns hown)
  notClosed obj hobj := h.notClosed obj (hs.heap a obj hobj)

lemma Loose.unheld (h : Loose T a st) : Unheld a st where
  notOwned _ := h.notOwned
  notClosed obj hobj := by
    obtain ⟨obj', hobj', -, hid⟩ := h.isOpen
    cases hobj.symm.trans hobj'
    exact hid

lemma placedId_ne_managedObjIdMake (g : BitVec 32) : placedId p i g T ≠ managedObjIdMake := by
  intro h
  apply type_managedObjIdMake T
  rw [← h, placedId, setWidth_typeNibble]

lemma sound_init : Sound init := by
  refine ⟨∅, init, ⟨wf_init, by simp, ?_, fun _ => ⟨?_, ?_, ?_⟩⟩, closedAs_empty.symm⟩
  · rintro a b ⟨obj, hobj, -⟩
    cases hobj
  · rintro a b - ⟨obj, hobj, -⟩
    cases hobj
  · rintro a obj - hobj
    cases hobj
  · rintro a b c - - ⟨obj, hobj, -⟩
    cases hobj

/-! ### Open objects -/

lemma notMem_of_notClosed (h : ∀ obj, (st.closedAs C).heap a = some obj →
    obj.mObjId ≠ managedObjIdMake) (hlive : (st.closedAs C).Live a) : a ∉ C := by
  intro ha
  obtain ⟨obj, hobj⟩ := hlive
  obtain ⟨-, -, -, -, hclosed, -⟩ := closedAs_heap_eq_some hobj
  exact h obj hobj (hclosed ha)

lemma IsOpen.live (h : IsOpen T a st) : st.Live a := by
  obtain ⟨obj, hobj, -⟩ := h
  exact ⟨obj, hobj⟩

lemma IsOpen.notMem (h : IsOpen T a (st.closedAs C)) : a ∉ C := by
  obtain ⟨obj, hobj, -, hid⟩ := h
  apply notMem_of_notClosed _ ⟨obj, hobj⟩
  intro obj' hobj'
  cases hobj.symm.trans hobj'
  exact hid

/-- What a typed lookup finds is an open object of its class. -/
lemma Sound.isOpen_of_getAs (h : st.Sound) (hget : st.getAs T id = .ok (some a)) :
    IsOpen T a st := by
  obtain ⟨C, st₀, hC, rfl⟩ := h
  obtain ⟨-, obj, hobj, htype⟩ := getAs_eq_some hget
  have hid : obj.mObjId ≠ managedObjIdMake := by
    intro hid
    rw [hid] at htype
    exact type_managedObjIdMake T htype
  obtain ⟨obj₀, hobj₀, -, -, hmem, hnot⟩ := closedAs_heap_eq_some hobj
  have ha : a ∉ C := fun ha => hid (hmem ha)
  rw [hnot ha] at htype hobj hid
  obtain ⟨p, i, hold⟩ := hC.wf.inv.inSlot hobj₀ (Set.notMem_empty a)
  obtain ⟨obj', hobj', hplaced⟩ := hC.wf.inv.stored hold
  cases hobj₀.symm.trans hobj'
  rw [hplaced] at htype
  exact ⟨obj₀, hobj, managedType_injective ((setWidth_typeNibble obj₀.cls).symm.trans htype), hid⟩

/-! ### What freeing keeps -/

lemma Reopened.notMem_of_owns (h : Reopened C st) (hown : st.Owns a b) : b ∉ C := by
  intro hb
  obtain ⟨obj, hobj, hcls, -⟩ := h.closed b hb
  exact (h.typed hown).2 obj hobj hcls

lemma Reopened.notMem_of_reaches (h : Reopened C st) (ha : a ∉ C) (hab : st.Reaches a b) :
    b ∉ C := by
  rcases hab.cases_tail with rfl | ⟨c, -, hown⟩
  · exact ha
  · exact h.notMem_of_owns hown

lemma closedAs_diff (h : ∀ b ∈ S, st.heap b = none) : st.closedAs (C \ S) = st.closedAs C := by
  simp only [closedAs, mk.injEq, true_and, and_true]
  funext b
  by_cases hb : b ∈ S
  · simp [h b hb]
  · by_cases hC : b ∈ C
    · simp [hb, hC]
    · simp [hC]

/-- The object freed was nobody's, so no handle is left of what is gone. -/
lemma Reopened.freed (h : Reopened C st) (hS : Freed S st st') (hrel : Releases ∅ st [a] S)
    (hun : st.mPages.length ≤ PageLimit → ∀ c, ¬ st.Owns c a) (hlive : st.Live a) :
    (st'.closedAs C).Sound := by
  refine ⟨C \ S, st', ⟨wf_freed h.wf hS, ?_, ?_, ?_⟩, (closedAs_diff hS.gone).symm⟩
  · rintro b ⟨hb, hbS⟩
    rw [hS.heap b hbS]
    exact h.closed b hb
  · intro x y hown
    obtain ⟨hlt, hcls⟩ := h.typed (hS.owns hown)
    exact ⟨hS.fresh ▸ hlt, fun obj hobj => hcls obj (hS.heap_some hobj).2⟩
  · intro hlimit
    rw [hS.length] at hlimit
    exact (h.sole hlimit).freed hlimit ⟨hlive, Set.notMem_empty a, fun c _ => hun hlimit c⟩ hS hrel

lemma Reopened.free_open (h : Reopened C st) (ha : a ∉ C)
    (hfree : (st.closedAs C).free a = .ok st') :
    ∃ st₀ S, st' = st₀.closedAs C ∧ st.free a = .ok st₀ ∧ Freed S st st₀ ∧ Releases ∅ st [a] S := by
  rw [free_closedAs fun b hb => h.notMem_of_reaches ha hb] at hfree
  cases hst₀ : st.free a with
  | error e =>
    rw [hst₀] at hfree
    cases hfree
  | ok st₀ =>
    rw [hst₀] at hfree
    cases hfree
    obtain ⟨S, hS, hrel⟩ := freeAux_spec h.wf.inv hst₀
    exact ⟨st₀, S, rfl, rfl, hS, hrel⟩

/-- A closed stream that `get` finds is where its lost id points. -/
lemma Reopened.free_closed (h : Reopened C st) (ha : a ∈ C)
    (hget : (st.closedAs C).get id = .ok (some a)) :
    ∃ st₀, (st.closedAs C).free a = .ok (st₀.closedAs C) ∧ Freed {a} st st₀ ∧
      Releases ∅ st [a] {a} := by
  obtain ⟨obj, hobj, -, howned⟩ := h.closed a ha
  obtain ⟨-, hold, obj', hobj', hid⟩ := get_eq_some hget
  obtain ⟨obj₀, hobj₀, -, howned', hclosed, -⟩ := closedAs_heap_eq_some hobj'
  cases hobj.symm.trans hobj₀
  have hofId : ManagedObjId.ofComposite id = managedObjIdMake := by
    rw [← hid, hclosed ha, ManagedObjId.ofComposite_composite]
  rw [hofId] at hold
  have hfree := free_eq_of_leaf hobj' (howned'.trans howned) (by rw [hclosed ha])
    (by rw [hclosed ha]) hold
  refine ⟨((st.vacate _ _).dealloc a).incFree _, ?_, freed_leaf h.wf.inv hold, ⟨?_, ?_, ?_⟩⟩
  · rw [hfree]
    change Except.ok ((((st.vacate _ _).closedAs C).dealloc a).incFree _) = _
    rw [closedAs_dealloc]
    rfl
  · rintro b rfl
    exact ⟨b, List.mem_singleton_self b, .refl⟩
  · rintro - b rfl c ⟨obj', hobj', hc⟩
    cases hobj.symm.trans hobj'
    rw [howned] at hc
    cases hc
  · rintro - c hc
    exact .inl (List.mem_singleton.mp hc)

lemma live_of_free (h : st.free a = .ok st') : st.Live a := by
  obtain ⟨obj, hobj, -⟩ := bind_ok.mp h
  exact ⟨obj, deref_ok.mp hobj⟩

lemma Sound.free (h : st.Sound) (ha : Unheld a st) (hfree : st.free a = .ok st') : st'.Sound := by
  obtain ⟨C, st₀, hC, rfl⟩ := h
  have hlive := live_of_free hfree
  obtain ⟨st₁, S, rfl, -, hS, hrel⟩ :=
    hC.free_open (notMem_of_notClosed ha.notClosed hlive) hfree
  apply hC.freed hS hrel _ (closedAs_live.mp hlive)
  intro hlimit c hown
  exact ha.notOwned hlimit c (closedAs_owns.mpr hown)

/-- Handles that nobody owns any more are released one after the other. -/
lemma Sound.foldlM_free {cs : List Addr} (h : st.Sound) (hcs : ∀ c ∈ cs, Unheld c st)
    (hfold : cs.foldlM ManagedObjStorage.free st = .ok st') : st'.Sound := by
  induction cs generalizing st with
  | nil =>
    cases hfold
    exact h
  | cons c cs ih =>
    rw [List.foldlM_cons] at hfold
    obtain ⟨st₁, hc, hrest⟩ := bind_ok.mp hfold
    apply ih (h.free (hcs c (by simp)) hc) _ hrest
    intro c' hc'
    exact (hcs c' (by simp [hc'])).shrinks (free_shrinks hc)

/-- Freeing what an id leads to, when nobody owns it. -/
lemma Sound.free_of_get (h : st.Sound) (hget : st.get id = .ok (some a))
    (hun : ∀ c, ¬ st.Owns c a) (hfree : st.free a = .ok st') : st'.Sound := by
  obtain ⟨C, st₀, hC, rfl⟩ := h
  have hun₀ : ∀ c, ¬ st₀.Owns c a := fun c hown => hun c (closedAs_owns.mpr hown)
  have hlive : st₀.Live a := closedAs_live.mp (live_of_free hfree)
  by_cases ha : a ∈ C
  · obtain ⟨st₁, hst₁, hS, hrel⟩ := hC.free_closed ha hget
    rw [hst₁] at hfree
    cases hfree
    exact hC.freed hS hrel (fun _ => hun₀) hlive
  · obtain ⟨st₁, S, rfl, -, hS, hrel⟩ := hC.free_open ha hfree
    exact hC.freed hS hrel (fun _ => hun₀) hlive

lemma Reopened.made (h : Reopened C st) (hmade : Made T p i st st') : Reopened C st' where
  wf := ⟨hmade.inv h.wf.inv, hmade.counted h.wf.counted⟩
  closed a ha := by
    obtain ⟨obj, hobj, hobj'⟩ := h.closed a ha
    exact ⟨obj, (hmade.heap_others (h.wf.inv.old hobj).ne).trans hobj, hobj'⟩
  typed {a b} hown := by
    have hown := (hmade.owns hown).2
    obtain ⟨hlt, hcls⟩ := h.typed hown
    refine ⟨hmade.fresh ▸ hlt.trans (Nat.lt_succ_self _), fun obj hobj => hcls obj ?_⟩
    rwa [hmade.heap_others hlt.ne] at hobj
  sole hlimit := by
    have hsole := h.sole (by rw [hmade.length] at hlimit; omega)
    refine ⟨fun {a b} _ hown => ?_, fun {a obj} ha hobj => ?_, fun ha hc hown hown' => ?_⟩
    · obtain ⟨⟨obj, hobj⟩, hb⟩ := hsole.live (Set.notMem_empty a) (hmade.owns hown).2
      exact ⟨⟨obj, (hmade.heap_others (h.wf.inv.old hobj).ne).trans hobj⟩, hb⟩
    · by_cases hfresh : a = st.fresh
      · rw [hfresh, hmade.heap] at hobj
        cases hobj
        exact List.nodup_nil
      · rw [hmade.heap_others hfresh] at hobj
        exact hsole.nodup ha hobj
    · exact hsole.sole ha hc (hmade.owns hown).2 (hmade.owns hown').2

lemma Sound.lt_fresh (h : st.Sound) (hlive : st.Live a) : a < st.fresh := by
  obtain ⟨C, st₀, hC, rfl⟩ := h
  obtain ⟨obj, hobj⟩ := closedAs_live.mp hlive
  exact hC.wf.inv.old hobj

lemma Sound.notOwned_fresh (h : st.Sound) (c : Addr) : ¬ st.Owns c st.fresh := by
  obtain ⟨C, st₀, hC, rfl⟩ := h
  intro hown
  exact absurd (hC.typed (closedAs_owns.mp hown)).1 (lt_irrefl _)

/-- The new object is nobody's, and what was nobody's still is. -/
lemma Sound.make (h : st.Sound) (T : ManagedClass) :
    ∃ st' p i, st.make T = .ok (st', some st.fresh) ∧ Made T p i st st' ∧ st'.Sound := by
  obtain ⟨C, st₀, hC, rfl⟩ := h
  have hfresh : st₀.fresh ∉ C := by
    intro hmem
    obtain ⟨obj, hobj, -⟩ := hC.closed _ hmem
    exact absurd (hC.wf.inv.old hobj) (lt_irrefl _)
  obtain ⟨st', p, i, -, hmake, hmade⟩ := make_closedAs hC.wf.counted hfresh T
  exact ⟨st'.closedAs C, p, i, hmake, hmade.closedAs hfresh, C, st', hC.made hmade, rfl⟩

lemma Loose.made (h : st.Sound) (hmade : Made T p i st st') : Loose T st.fresh st' where
  isOpen := ⟨_, hmade.heap, rfl, placedId_ne_managedObjIdMake _⟩
  notOwned c hown := h.notOwned_fresh c (hmade.owns hown).2

lemma IsOpen.made_others (ha : IsOpen U a st) (h : st.Sound) (hmade : Made T p i st st') :
    IsOpen U a st' := by
  obtain ⟨obj, hobj, hopen⟩ := ha
  exact ⟨obj, (hmade.heap_others (h.lt_fresh ⟨obj, hobj⟩).ne).trans hobj, hopen⟩

lemma Loose.made_others (ha : Loose U a st) (h : st.Sound) (hmade : Made T p i st st') :
    Loose U a st' where
  isOpen := ha.isOpen.made_others h hmade
  notOwned c hown := ha.notOwned c (hmade.owns hown).2

/-! ### Moving handles -/

lemma owns_setObj {obj : ManagedObj} {x y : Addr} (hown : (st.setObj a obj).Owns x y) :
    x = a ∧ y ∈ obj.owned ∨ x ≠ a ∧ st.Owns x y := by
  obtain ⟨obj', hobj', hy⟩ := hown
  by_cases hx : x = a
  · rw [hx, setObj_heap_self] at hobj'
    cases hobj'
    exact .inl ⟨hx, hy⟩
  · rw [setObj_heap_ne hx] at hobj'
    exact .inr ⟨hx, obj', hobj', hy⟩

lemma live_setObj {obj : ManagedObj} (h : st.Live b) : (st.setObj a obj).Live b := by
  obtain ⟨objb, hobjb⟩ := h
  by_cases hb : b = a
  · subst hb
    exact ⟨obj, setObj_heap_self b obj⟩
  · exact ⟨objb, (setObj_heap_ne hb obj).trans hobjb⟩

lemma owns_setOwned {obj : ManagedObj} {handles : List Addr} {P : Addr → Prop} {x y : Addr}
    (hobj : st.heap a = some obj) (hnew : ∀ b ∈ handles, b ∈ obj.owned ∨ P b)
    (hown : (st.setObj a { obj with owned := handles }).Owns x y) :
    st.Owns x y ∨ x = a ∧ P y := by
  rcases owns_setObj hown with ⟨rfl, hy⟩ | ⟨-, hown⟩
  · rcases hnew y hy with hy | hy
    · exact .inl ⟨obj, hobj, hy⟩
    · exact .inr ⟨rfl, hy⟩
  · exact .inl hown

/-- Handles of objects that were nobody's have one owner afterwards. -/
lemma SoleOwners.setOwned {obj : ManagedObj} {handles : List Addr} (h : SoleOwners ∅ st)
    (hobj : st.heap a = some obj) (hnodup : obj.owned.Nodup → handles.Nodup)
    (hnew : ∀ b ∈ handles, b ∈ obj.owned ∨ st.Live b ∧ ∀ c, ¬ st.Owns c b) :
    SoleOwners ∅ (st.setObj a { obj with owned := handles }) where
  live {x y} hx hown := by
    refine ⟨live_setObj ?_, Set.notMem_empty y⟩
    rcases owns_setOwned hobj hnew hown with hown | ⟨-, hy, -⟩
    · exact (h.live hx hown).1
    · exact hy
  nodup {x objx} hx hobjx := by
    by_cases hxa : x = a
    · subst hxa
      rw [setObj_heap_self] at hobjx
      cases hobjx
      exact hnodup (h.nodup hx hobj)
    · rw [setObj_heap_ne hxa] at hobjx
      exact h.nodup hx hobjx
  sole {x y z} hx hz hown hown' := by
    rcases owns_setOwned hobj hnew hown with hown | ⟨rfl, -, hy⟩
    · rcases owns_setOwned hobj hnew hown' with hown' | ⟨-, -, hy⟩
      · exact h.sole hx hz hown hown'
      · exact absurd hown (hy x)
    · rcases owns_setOwned hobj hnew hown' with hown' | ⟨rfl, -⟩
      · exact absurd hown' (hy z)
      · rfl

lemma Reopened.typed_of_loose (h : Reopened C st) (hT : T ≠ .ffmpegVideoStream)
    (hb : Loose T b (st.closedAs C)) :
    b < st.fresh ∧ ∀ obj, st.heap b = some obj → obj.cls ≠ .ffmpegVideoStream := by
  obtain ⟨obj, hobj, hcls, -⟩ := hb.isOpen
  rw [closedAs_heap_of_notMem hb.isOpen.notMem] at hobj
  refine ⟨h.wf.inv.old hobj, fun obj' hobj' => ?_⟩
  cases hobj.symm.trans hobj'
  rwa [hcls]

/-- An open object may own what it owned before and what was nobody's. -/
lemma Reopened.setOwned {obj : ManagedObj} {handles : List Addr} (h : Reopened C st) (ha : a ∉ C)
    (hobj : st.heap a = some obj) (hnodup : obj.owned.Nodup → handles.Nodup)
    (hnew : ∀ b ∈ handles, b ∈ obj.owned ∨
      ∃ T, T ≠ .ffmpegVideoStream ∧ Loose T b (st.closedAs C)) :
    Reopened C (st.setObj a { obj with owned := handles }) where
  wf := ⟨inv_setObj_owned h.wf.inv hobj handles, h.wf.counted⟩
  closed b hb := by
    obtain ⟨objb, hobjb, hobjb'⟩ := h.closed b hb
    exact ⟨objb, (setObj_heap_ne (ne_of_mem_of_not_mem hb ha) _).trans hobjb, hobjb'⟩
  typed {x y} hown := by
    have hold : y < st.fresh ∧ ∀ objy, st.heap y = some objy → objy.cls ≠ .ffmpegVideoStream := by
      rcases owns_setOwned hobj hnew hown with hown | ⟨-, U, hU, hy⟩
      · exact h.typed hown
      · exact h.typed_of_loose hU hy
    refine ⟨hold.1, fun objy hobjy => ?_⟩
    by_cases hya : y = a
    · subst hya
      rw [setObj_heap_self] at hobjy
      cases hobjy
      exact hold.2 obj hobj
    · rw [setObj_heap_ne hya] at hobjy
      exact hold.2 objy hobjy
  sole hlimit := by
    apply (h.sole hlimit).setOwned hobj hnodup
    intro b hb
    rcases hnew b hb with hb | ⟨U, -, hb⟩
    · exact .inl hb
    · exact .inr ⟨closedAs_live.mp hb.isOpen.live,
        fun c hown => hb.notOwned c (closedAs_owns.mpr hown)⟩

lemma Sound.setOwned {obj : ManagedObj} {handles : List Addr} (h : st.Sound)
    (hobj : st.heap a = some obj) (hopen : obj.mObjId ≠ managedObjIdMake)
    (hnodup : obj.owned.Nodup → handles.Nodup)
    (hnew : ∀ b ∈ handles, b ∈ obj.owned ∨ ∃ T, T ≠ .ffmpegVideoStream ∧ Loose T b st) :
    (st.setObj a { obj with owned := handles }).Sound := by
  obtain ⟨C, st₀, hC, rfl⟩ := h
  have ha : a ∉ C := IsOpen.notMem ⟨obj, hobj, rfl, hopen⟩
  have hobj₀ := hobj
  rw [closedAs_heap_of_notMem ha] at hobj₀
  exact ⟨C, _, hC.setOwned ha hobj₀ hnodup hnew, closedAs_setObj ha _⟩

/-- A handle of a new object may be added at the end. -/
lemma Loose.nodup_append {obj : ManagedObj} (hb : Loose T b st) (hobj : st.heap a = some obj)
    (hnodup : obj.owned.Nodup) : (obj.owned ++ [b]).Nodup := by
  rw [List.nodup_append]
  refine ⟨hnodup, List.nodup_singleton b, ?_⟩
  rintro x hx y hy rfl
  rw [List.mem_singleton.mp hy] at hx
  exact hb.notOwned a ⟨obj, hobj, hx⟩

/-! ### Closing -/

/-- What an object owned is nobody's once its list is emptied. -/
lemma Sound.unheld_of_emptied {obj : ManagedObj} (h : st.Sound) (hobj : st.heap a = some obj)
    (hb : b ∈ obj.owned) : Unheld b (st.setObj a { obj with owned := [] }) := by
  obtain ⟨C, st₀, hC, rfl⟩ := h
  have hown : st₀.Owns a b := closedAs_owns.mp ⟨obj, hobj, hb⟩
  constructor
  · intro hlimit c hown'
    rcases owns_setObj hown' with ⟨-, hb'⟩ | ⟨hca, hown'⟩
    · cases hb'
    · exact hca ((hC.sole hlimit).sole (Set.notMem_empty c) (Set.notMem_empty a)
        (closedAs_owns.mp hown') hown)
  · intro objb hobjb hid
    have hba : ∀ objb', st₀.heap b = some objb' → objb'.mObjId ≠ managedObjIdMake := by
      intro objb' hobjb'
      obtain ⟨p, i, hold⟩ := hC.wf.inv.inSlot hobjb' (Set.notMem_empty b)
      obtain ⟨obj', hobj', hplaced⟩ := hC.wf.inv.stored hold
      cases hobjb'.symm.trans hobj'
      exact hplaced ▸ placedId_ne_managedObjIdMake _
    have hbC := hC.notMem_of_owns hown
    by_cases heq : b = a
    · subst heq
      rw [setObj_heap_self] at hobjb
      cases hobjb
      rw [closedAs_heap_of_notMem hbC] at hobj
      exact hba obj hobj hid
    · rw [setObj_heap_ne heq, closedAs_heap_of_notMem hbC] at hobjb
      exact hba objb hobjb hid

/-- The prepared frames are nobody's once the list is emptied. -/
lemma Sound.clearPreparedFrames (h : st.Sound) (hopen : OpenIfLive T a st)
    (hclear : st.clearPreparedFrames a = .ok st') :
    st'.Sound ∧ ∃ obj, st.heap a = some obj ∧
      Shrinks (st.setObj a { obj with owned := [] }) st' := by
  obtain ⟨obj, hobj, hfold⟩ := bind_ok.mp hclear
  have hobj := deref_ok.mp hobj
  have hemptied : (st.setObj a { obj with owned := [] }).Sound :=
    h.setOwned hobj (hopen.isOpen obj hobj).2 (fun _ => List.nodup_nil) (by simp)
  refine ⟨hemptied.foldlM_free ?_ hfold, obj, hobj,
    Shrinks.foldlM (fun _ _ _ => free_shrinks) hfold⟩
  intro c hc
  exact h.unheld_of_emptied hobj hc

lemma Sound.close (h : st.Sound) (hopen : OpenIfLive .ffmpegVideoStream a st)
    (hclose : st.close a = .ok st') :
    st'.Sound ∧ ∃ st₁, st.clearPreparedFrames a = .ok st₁ ∧
      st' = st₁.setObj a ⟨managedObjIdMake, .ffmpegVideoStream, []⟩ := by
  obtain ⟨st₁, hclear, hclose⟩ := bind_ok.mp hclose
  obtain ⟨obj₁, hobj₁, hclose⟩ := bind_ok.mp hclose
  have hobj₁ := deref_ok.mp hobj₁
  obtain ⟨hsound, obj, hobj, hshrinks⟩ := h.clearPreparedFrames hopen hclear
  have heq := hshrinks.heap a obj₁ hobj₁
  rw [setObj_heap_self] at heq
  cases heq
  obtain ⟨hcls, hid⟩ := hopen.isOpen obj hobj
  cases hclose
  refine ⟨?_, st₁, hclear, by rw [hcls]⟩
  obtain ⟨C, st₀, hC, rfl⟩ := hsound
  have ha : a ∉ C := IsOpen.notMem ⟨_, hobj₁, hcls, hid⟩
  rw [closedAs_heap_of_notMem ha] at hobj₁
  refine ⟨insert a C, st₀, ⟨hC.wf, ?_, hC.typed, hC.sole⟩, closedAs_close hobj₁ rfl⟩
  rintro b (rfl | hb)
  · exact ⟨_, hobj₁, hcls, rfl⟩
  · exact hC.closed b hb

lemma IsOpen.openIfLive (ha : IsOpen T a st) (h : st.Sound) : OpenIfLive T a st where
  lt_fresh := h.lt_fresh ha.live
  isOpen obj hobj := by
    obtain ⟨obj', hobj', hopen⟩ := ha
    cases hobj.symm.trans hobj'
    exact hopen

lemma OpenIfLive.shrinks (h : OpenIfLive T a st) (hs : Shrinks st st') : OpenIfLive T a st' where
  lt_fresh := hs.fresh ▸ h.lt_fresh
  isOpen obj hobj := h.isOpen obj (hs.heap a obj hobj)

lemma OpenIfLive.made (h : OpenIfLive T a st) (hmade : Made U p i st st') : OpenIfLive T a st' where
  lt_fresh := hmade.fresh ▸ h.lt_fresh.trans (Nat.lt_succ_self _)
  isOpen obj hobj := h.isOpen obj (by rwa [hmade.heap_others h.lt_fresh.ne] at hobj)

lemma OpenIfLive.setOwned {obj : ManagedObj} (h : OpenIfLive T a st) (hobj : st.heap b = some obj)
    (handles : List Addr) : OpenIfLive T a (st.setObj b { obj with owned := handles }) where
  lt_fresh := h.lt_fresh
  isOpen obj' hobj' := by
    by_cases hab : a = b
    · subst hab
      rw [setObj_heap_self] at hobj'
      cases hobj'
      exact h.isOpen obj hobj
    · exact h.isOpen obj' (by rwa [setObj_heap_ne hab] at hobj')

lemma Loose.setOwned {obj : ManagedObj} {handles : List Addr} (h : Loose T a st)
    (hobj : st.heap b = some obj) (ha : a ∉ handles) :
    Loose T a (st.setObj b { obj with owned := handles }) where
  isOpen := by
    obtain ⟨obj', hobj', hopen⟩ := h.isOpen
    by_cases hab : a = b
    · subst hab
      cases hobj.symm.trans hobj'
      exact ⟨_, setObj_heap_self .., hopen⟩
    · exact ⟨obj', (setObj_heap_ne hab _).trans hobj', hopen⟩
  notOwned c hown := by
    rcases owns_setObj hown with ⟨-, hmem⟩ | ⟨-, hown⟩
    · exact ha hmem
    · exact h.notOwned c hown

end

end GifTools.ManagedObjStorage
