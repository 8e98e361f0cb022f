import GifTools.Storage.Reach

/-!
# Handles that own

A `UniqueManagedObj` is meant to be the only handle of an object that exists (`SoleOwners`). Under
this discipline freeing an object that nobody owns never touches a destroyed one, so `free` returns.

As in `Inv`, the objects in `D` are being destroyed and what they own does not count.
-/

namespace GifTools.ManagedObjStorage

open Runs

/-- No two members hold the same object, and the objects they hold exist. -/
structure SoleOwners (D : Set Addr) (st : ManagedObjStorage) : Prop where
  live : ∀ {a b}, a ∉ D → st.Owns a b → st.Live b ∧ b ∉ D
  nodup : ∀ {a obj}, a ∉ D → st.heap a = some obj → obj.owned.Nodup
  sole : ∀ {a b c}, a ∉ D → c ∉ D → st.Owns a b → st.Owns c b → a = c

/-- An object that exists and that no member holds. -/
structure Unowned (D : Set Addr) (st : ManagedObjStorage) (c : Addr) : Prop where
  live : st.Live c
  notMem : c ∉ D
  notOwned : ∀ a ∉ D, ¬ st.Owns a c

section

variable {D S : Set Addr} {st st' : ManagedObjStorage} {a c : Addr}

/-- What a release frees, besides its root, is owned by something it frees. -/
lemma Releases.owned_of_mem (h : Releases D st [c] S) (hlimit : st.mPages.length ≤ PageLimit)
    (hsole : SoleOwners D st) (hc : c ∉ D) {b : Addr} (hb : b ∈ S) :
    b = c ∨ ∃ d ∈ S, d ∉ D ∧ st.Owns d b := by
  obtain ⟨c', hc', hreach⟩ := h.reach b hb
  rw [List.mem_singleton.mp hc'] at hreach
  have hmem : ∀ {d}, st.Reaches c d → d ∈ S ∧ d ∉ D := by
    intro d hd
    induction hd with
    | refl => exact ⟨(h.roots hlimit c (List.mem_singleton_self c)).resolve_right hc, hc⟩
    | tail _ hown ih =>
      have hd := (hsole.live ih.2 hown).2
      exact ⟨(h.closed hlimit _ ih.1 _ hown).resolve_right hd, hd⟩
  rcases hreach.cases_tail with rfl | ⟨d, hd, hown⟩
  · exact .inl rfl
  · exact .inr ⟨d, (hmem hd).1, (hmem hd).2, hown⟩

lemma Freed.live (h : Freed S st st') {b : Addr} (hb : b ∉ S) (hlive : st.Live b) :
    st'.Live b := by
  obtain ⟨obj, hobj⟩ := hlive
  exact ⟨obj, (h.heap b hb).trans hobj⟩

lemma SoleOwners.freed (hsole : SoleOwners D st) (hlimit : st.mPages.length ≤ PageLimit)
    (hroot : Unowned D st c) (hS : Freed S st st') (hrel : Releases D st [c] S) :
    SoleOwners D st' where
  live {a b} ha hown := by
    obtain ⟨obj, hobj, hb⟩ := hown
    obtain ⟨haS, hobj⟩ := hS.heap_some hobj
    have hown : st.Owns a b := ⟨obj, hobj, hb⟩
    obtain ⟨hlive, hbD⟩ := hsole.live ha hown
    refine ⟨hS.live (fun hbS => ?_) hlive, hbD⟩
    rcases hrel.owned_of_mem hlimit hsole hroot.notMem hbS with rfl | ⟨d, hd, hdD, hown'⟩
    · exact hroot.notOwned a ha hown
    · exact haS (hsole.sole ha hdD hown hown' ▸ hd)
  nodup ha hobj := hsole.nodup ha (hS.heap_some hobj).2
  sole ha hc hown hown' := hsole.sole ha hc (hS.owns hown) (hS.owns hown')

lemma Unowned.freed {b : Addr} (hb : Unowned D st b) (hsole : SoleOwners D st)
    (hlimit : st.mPages.length ≤ PageLimit) (hroot : Unowned D st c) (hS : Freed S st st')
    (hrel : Releases D st [c] S) (hbc : b ≠ c) : Unowned D st' b where
  live := by
    refine hS.live (fun hbS => ?_) hb.live
    rcases hrel.owned_of_mem hlimit hsole hroot.notMem hbS with rfl | ⟨d, -, hdD, hown⟩
    · exact hbc rfl
    · exact hb.notOwned d hdD hown
  notMem := hb.notMem
  notOwned a ha hown := hb.notOwned a ha (hS.owns hown)

/-- While the object at `a` is being destroyed, what it owns is held by nobody else. -/
lemma Unowned.vacate {p : Nat} {i : SlotIndex} (ha : Unowned D st a) (hsole : SoleOwners D st)
    {obj : ManagedObj} (hobj : st.heap a = some obj) :
    SoleOwners (insert a D) (st.vacate p i) ∧
      ∀ b ∈ obj.owned, Unowned (insert a D) (st.vacate p i) b := by
  have hnot : ∀ {x b}, x ∉ D → st.Owns x b → b ∉ insert a D := by
    intro x b hx hown hb
    rcases hb with rfl | hb
    · exact ha.notOwned _ hx hown
    · exact (hsole.live hx hown).2 hb
  have hD : ∀ {x}, x ∉ insert a D → x ∉ D := fun hx hxD => hx (.inr hxD)
  refine ⟨⟨fun hx hown => ⟨(hsole.live (hD hx) hown).1, hnot (hD hx) hown⟩,
    fun hx => hsole.nodup (hD hx), fun hx hy => hsole.sole (hD hx) (hD hy)⟩, fun b hb => ?_⟩
  have hown : st.Owns a b := ⟨obj, hobj, hb⟩
  exact ⟨(hsole.live ha.notMem hown).1, hnot ha.notMem hown,
    fun x hx hown' => hx (.inl (hsole.sole (hD hx) ha.notMem hown' hown))⟩

/-- Handles released one after the other. -/
lemma foldlM_release_ok {release : ManagedObjStorage → Addr → Except Fault ManagedObjStorage}
    {n : Nat} (hspec : ∀ st st' a, Inv D st → release st a = .ok st' →
      ∃ S, Freed S st st' ∧ Releases D st [a] S)
    (hok : ∀ st a, Inv D st → st.mPages.length ≤ PageLimit → SoleOwners D st → st.occupied < n →
      Unowned D st a → ∃ st', release st a = .ok st')
    {cs : List Addr} (hinv : Inv D st) (hlimit : st.mPages.length ≤ PageLimit)
    (hsole : SoleOwners D st) (hocc : st.occupied < n) (hnodup : cs.Nodup)
    (hcs : ∀ c ∈ cs, Unowned D st c) : ∃ st', cs.foldlM release st = .ok st' := by
  induction cs generalizing st with
  | nil => exact ⟨st, rfl⟩
  | cons c cs ih =>
    obtain ⟨hc, hnodup⟩ := List.nodup_cons.mp hnodup
    have hroot := hcs c List.mem_cons_self
    obtain ⟨st₁, hst₁⟩ := hok st c hinv hlimit hsole hocc hroot
    obtain ⟨S, hS, hrel⟩ := hspec st st₁ c hinv hst₁
    obtain ⟨st', hst'⟩ := ih (hinv.freed hS) (hS.length.trans_le hlimit)
      (hsole.freed hlimit hroot hS hrel) (hS.occupied_le.trans_lt hocc) hnodup fun b hb =>
        (hcs b (List.mem_cons_of_mem _ hb)).freed hsole hlimit hroot hS hrel
          (ne_of_mem_of_not_mem hb hc)
    exact ⟨st', by rw [List.foldlM_cons, hst₁]; exact hst'⟩

lemma freeAux_ok {depth : Nat} (hinv : Inv D st) (hlimit : st.mPages.length ≤ PageLimit)
    (hsole : SoleOwners D st) (hocc : st.occupied < depth) (ha : Unowned D st a) :
    ∃ st', freeAux depth st a = .ok st' := by
  induction depth generalizing st a D with
  | zero => omega
  | succ depth ih =>
    obtain ⟨obj, hobj⟩ := ha.live
    obtain ⟨p, i, hold⟩ := hinv.inSlot hobj ha.notMem
    obtain ⟨obj', hobj', hid⟩ := hinv.stored hold
    cases hobj.symm.trans hobj'
    have hpage : pageIndex obj.mObjId.identifier = p := by
      rw [hid, pageIndex_placedId, Nat.mod_eq_of_lt (hold.lt.trans_le hlimit)]
    have hslot : slotIndex obj.mObjId.identifier = i := by rw [hid, slotIndex_placedId]
    obtain ⟨hsole', howned⟩ := ha.vacate (p := p) (i := i) hsole hobj
    have hocc' : (st.vacate p i).occupied < depth :=
      (occupied_setSlot_lt hold _ rfl).trans_le (by omega)
    have hspec (st st' : ManagedObjStorage) (b : Addr) (hinv : Inv (insert a D) st)
        (h : freeAux depth st b = .ok st') : ∃ S, Freed S st st' ∧ Releases (insert a D) st [b] S :=
      freeAux_spec hinv h
    obtain ⟨st₁, hst₁⟩ := foldlM_release_ok hspec
      (fun st a hinv hlimit hsole hocc ha => ih hinv hlimit hsole hocc ha) (hinv.vacate hold)
      (by rwa [vacate, setSlot_length]) hsole' hocc' (hsole.nodup ha.notMem hobj) howned
    refine ⟨(st₁.dealloc a).incFree p, ?_⟩
    change (st.deref a >>= fun obj => _) = _
    rw [deref_ok.mpr hobj]
    change (st.page (pageIndex obj.mObjId.identifier) >>= fun page => _) = _
    rw [hpage, page_ok.mpr (pageAt_of_lt hold.lt)]
    change st.pageFree _ p _ a obj = _
    rw [pageFree_of_holds (page_ok.mpr (pageAt_of_lt hold.lt)) (deref_ok.mpr hobj) (hslot ▸ hold),
      hslot, hst₁]
    rfl

/-- Freeing an object that nobody owns returns. -/
theorem free_ok (hinv : Inv ∅ st) (hlimit : st.mPages.length ≤ PageLimit)
    (hsole : SoleOwners ∅ st) (ha : Unowned ∅ st a) : ∃ st', st.free a = .ok st' :=
  freeAux_ok hinv hlimit hsole occupied_lt_liveBound ha

end

end GifTools.ManagedObjStorage
