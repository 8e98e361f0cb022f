import GifTools.Bindings.Objects
import GifTools.Storage.Sound

/-!
# What the functions on objects hold

While a function runs it holds the handles of objects it has made and that no object owns yet, and
pointers to streams it has looked up. `Holding O L` is the invariant of the memory at such a moment:
the storage is sound, the streams in `O` are open as long as they exist, and the objects in `L` are
nobody's but the function's. Making an object adds it to `L`; moving it into an object takes it out.
-/

namespace GifTools

open Throws Runs ManagedObjStorage

structure Holding (O : Set Addr) (L : List (ManagedClass × Addr)) (mem : Memory) : Prop where
  sound : mem.storage.Sound
  /-- A stream owns its prepared frames. -/
  entries : ∀ a obj, mem.storage.heap a = some obj → obj.cls = .ffmpegVideoStream →
    obj.owned = (mem.preparedFrames a).reduceOption
  streams : ∀ s ∈ O, OpenIfLive .ffmpegVideoStream s mem.storage
  loose : ∀ x ∈ L, Loose x.1 x.2 mem.storage
  nodup : (L.map Prod.snd).Nodup

variable {O : Set Addr} {L : List (ManagedClass × Addr)} {mem mem' : Memory} {T : ManagedClass}
  {a b s : Addr}

/-! ### Changes of the memory -/

lemma holding_init : Holding ∅ [] .init where
  sound := sound_init
  entries _ _ hobj := by cases hobj
  streams _ hs := absurd hs (Set.notMem_empty _)
  loose _ hx := by cases hx
  nodup := List.nodup_nil

/-- The other members of objects do not matter. -/
lemma Holding.congr (h : Holding O L mem) (hstorage : mem'.storage = mem.storage)
    (hentries : mem'.preparedFrames = mem.preparedFrames) : Holding O L mem' where
  sound := hstorage ▸ h.sound
  entries := by
    rw [hstorage, hentries]
    exact h.entries
  streams := hstorage ▸ h.streams
  loose := hstorage ▸ h.loose
  nodup := h.nodup

/-- A handle is given away. -/
lemma Holding.tail {x : ManagedClass × Addr} (h : Holding O (x :: L) mem) : Holding O L mem where
  sound := h.sound
  entries := h.entries
  streams := h.streams
  loose y hy := h.loose y (List.mem_cons_of_mem x hy)
  nodup := (List.nodup_cons.mp h.nodup).2

/-- Only pointers to streams are left. -/
lemma Holding.dropped (h : Holding O L mem) : Holding O [] mem where
  sound := h.sound
  entries := h.entries
  streams := h.streams
  loose _ hx := by cases hx
  nodup := List.nodup_nil

lemma Holding.forget (h : Holding O L mem) : Holding ∅ L mem where
  sound := h.sound
  entries := h.entries
  streams _ hs := absurd hs (Set.notMem_empty _)
  loose := h.loose
  nodup := h.nodup

lemma Holding.made {p : Nat} {i : SlotIndex} {st : ManagedObjStorage} (h : Holding O L mem)
    (hmade : Made T p i mem.storage st) (hst : st.Sound) :
    Holding O ((T, mem.storage.fresh) :: L)
      ({ mem with storage := st }.construct mem.storage.fresh) where
  sound := hst
  entries a obj hobj hcls := by
    change obj.owned = (Function.update mem.preparedFrames mem.storage.fresh [] a).reduceOption
    change st.heap a = some obj at hobj
    by_cases ha : a = mem.storage.fresh
    · rw [ha, hmade.heap] at hobj
      cases hobj
      rw [ha, Function.update_self]
      rfl
    · rw [hmade.heap_others ha] at hobj
      rw [Function.update_of_ne ha]
      exact h.entries a obj hobj hcls
  streams s hs := (h.streams s hs).made hmade
  loose x hx := by
    rcases List.mem_cons.mp hx with rfl | hx
    · exact Loose.made h.sound hmade
    · exact (h.loose x hx).made_others h.sound hmade
  nodup := by
    rw [List.map_cons, List.nodup_cons]
    refine ⟨fun hmem => ?_, h.nodup⟩
    obtain ⟨x, hx, heq⟩ := List.mem_map.mp hmem
    have hlt := h.sound.lt_fresh (h.loose x hx).isOpen.live
    exact hlt.ne heq

lemma Holding.ne_of_mem {x : ManagedClass × Addr} (h : Holding O ((T, a) :: L) mem) (hx : x ∈ L) :
    x.2 ≠ a := by
  rintro rfl
  exact (List.nodup_cons.mp h.nodup).1 (List.mem_map.mpr ⟨x, hx, rfl⟩)

/-- An open object is given handles: it had them before, or nobody had them. -/
lemma Holding.setOwned {obj : ManagedObj} {handles : List Addr}
    {entries : Addr → List (Option Addr)} (h : Holding O L mem)
    (hobj : mem.storage.heap a = some obj) (hopen : obj.mObjId ≠ managedObjIdMake)
    (hnodup : obj.owned.Nodup → handles.Nodup)
    (hnew : ∀ b ∈ handles, b ∈ obj.owned ∨
      ∃ T, T ≠ .ffmpegVideoStream ∧ Loose T b mem.storage)
    (hL : ∀ x ∈ L, x.2 ∉ handles)
    (hself : obj.cls = .ffmpegVideoStream → handles = (entries a).reduceOption)
    (hothers : ∀ c ≠ a, entries c = mem.preparedFrames c) :
    Holding O L { mem with
      storage := mem.storage.setObj a { obj with owned := handles }
      preparedFrames := entries } where
  sound := h.sound.setOwned hobj hopen hnodup hnew
  entries c objc hobjc hcls := by
    change (mem.storage.setObj a _).heap c = some objc at hobjc
    change objc.owned = (entries c).reduceOption
    by_cases hc : c = a
    · subst hc
      rw [setObj_heap_self] at hobjc
      cases hobjc
      exact hself hcls
    · rw [setObj_heap_ne hc] at hobjc
      rw [hothers c hc]
      exact h.entries c objc hobjc hcls
  streams s hs := (h.streams s hs).setOwned hobj handles
  loose x hx := (h.loose x hx).setOwned hobj (hL x hx)
  nodup := h.nodup

namespace Binding

/-! ### Pointers -/

section

variable {A : Type} {Q : A → Memory → Prop} {X : Trap → Memory → Prop}

lemma ends_ofExcept {x : Except Fault A} :
    Ends (ofExcept x) mem Q X ↔
      (∀ r, x = .ok r → Q r mem) ∧ ∀ fault, x = .error fault → X (.storage fault) mem := by
  cases x <;> simp [ofExcept]

lemma ends_updateStorage {f : ManagedObjStorage → Except Fault ManagedObjStorage}
    {Q : PUnit → Memory → Prop} :
    Ends (updateStorage f) mem Q X ↔
      (∀ st, f mem.storage = .ok st → Q ⟨⟩ { mem with storage := st }) ∧
        ∀ fault, f mem.storage = .error fault → X (.storage fault) mem := by
  unfold updateStorage
  simp only [ends_bind, ends_get, ends_ofExcept, ends_modify]

variable {I : Memory → Prop}

lemma preserves_ofExcept (x : Except Fault A) : Preserves I (ofExcept x) := by
  intro mem hmem
  rw [ends_ofExcept]
  exact ⟨fun _ _ => hmem, fun _ _ => hmem⟩

lemma preserves_ofBase64 (x : Except Base64Fault A) : Preserves I (ofBase64 x) := by
  cases x with
  | ok a => exact .pure
  | error fault => exact .throw

lemma preserves_nonNull (a : Option Addr) : Preserves I (nonNull a) := by
  cases a with
  | none => exact .throw
  | some a => exact .pure

lemma preserves_deref (a : Addr) : Preserves I (deref a) :=
  .get_bind fun _ _ => preserves_ofExcept _

lemma preserves_find (T : ManagedClass) (id : BitVec 32) : Preserves I (find T id) :=
  .get_bind fun _ _ => preserves_ofExcept _

/-- What a lookup finds is open. -/
lemma ends_find_stream (h : Holding ∅ [] mem) (id : BitVec 32) :
    Ends (find .ffmpegVideoStream id) mem
      (fun r mem' => Holding ∅ [] mem' ∧ ∀ s, r = some s → Holding {s} [] mem')
      fun _ => Holding ∅ [] := by
  unfold find
  rw [ends_get_bind, ends_ofExcept]
  refine ⟨fun r hr => ⟨h, fun s hs => ?_⟩, fun _ _ => h⟩
  rw [hs] at hr
  refine ⟨h.sound, h.entries, fun s' hs' => ?_, h.loose, h.nodup⟩
  rw [Set.mem_singleton_iff.mp hs']
  exact (h.sound.isOpen_of_getAs hr).openIfLive h.sound

end

/-! ### Making -/

lemma ends_make (h : Holding O L mem) (T : ManagedClass) :
    Ends (make T) mem (fun r mem' => ∃ a, r = some a ∧ Holding O ((T, a) :: L) mem')
      fun _ => Holding O L := by
  obtain ⟨st, p, i, hmake, hmade, hst⟩ := h.sound.make T
  have hrun : (make T).run mem = .ok (some mem.storage.fresh)
      ({ mem with storage := st }.construct mem.storage.fresh) := by
    change (ofExcept (mem.storage.make T) >>= _).run mem = _
    rw [hmake]
    rfl
  unfold Ends
  rw [hrun]
  exact ⟨_, rfl, h.made hmade hst⟩

lemma ends_makeNew (h : Holding O L mem) (T : ManagedClass) :
    Ends (makeNew T) mem (fun a => Holding O ((T, a) :: L)) fun _ => Holding O L := by
  unfold makeNew
  rw [ends_bind]
  refine (ends_make h T).imp ?_ fun _ _ => id
  rintro _ mem' ⟨a, rfl, hmem'⟩
  exact hmem'

lemma preserves_make (T : ManagedClass) : Preserves (Holding O L) (make T) := by
  intro mem h
  refine (ends_make h T).imp ?_ fun _ _ => id
  rintro _ mem' ⟨a, rfl, hmem'⟩
  exact hmem'.tail

/-! ### Members -/

lemma preserves_setContents (contents : List UInt8) :
    Preserves (Holding O L) (setContents a contents) :=
  .modify fun _ h => h.congr rfl rfl

lemma preserves_setImage (image : ConcreteImage) : Preserves (Holding O L) (setImage a image) :=
  .modify fun _ h => h.congr rfl rfl

lemma preserves_setGifBuilder (builder : GifBuilderGIFH) :
    Preserves (Holding O L) (setGifBuilder a builder) :=
  .modify fun _ h => h.congr rfl rfl

lemma preserves_setBufferObj : Preserves (Holding O L) (setBufferObj a b) :=
  .modify fun _ h => h.congr rfl rfl

lemma preserves_setStreamObj : Preserves (Holding O L) (setStreamObj a b) :=
  .modify fun _ h => h.congr rfl rfl

lemma preserves_setTimeSecondsEst (time : ℚ) :
    Preserves (Holding O L) (setTimeSecondsEst a time) :=
  .modify fun _ h => h.congr rfl rfl

lemma preserves_setVideoStream (videoStream : FFmpegVideoStreamImpl) :
    Preserves (Holding O L) (setVideoStream a videoStream) :=
  .modify fun _ h => h.congr rfl rfl

/-! ### Handles -/

lemma ends_deref {A : Type} {Q : A → Memory → Prop} {X : Trap → Memory → Prop}
    {f : ManagedObj → Binding A} :
    Ends (deref a >>= f) mem Q X ↔
      (∀ obj, mem.storage.heap a = some obj → Ends (f obj) mem Q X) ∧
        ∀ fault, mem.storage.deref a = .error fault → X (.storage fault) mem := by
  unfold deref
  rw [ends_bind, ends_get_bind, ends_ofExcept]
  simp only [deref_ok]

/-- The image of a new frame becomes the frame's. -/
lemma ends_setImageObj (h : Holding O ((.image, b) :: (.ffmpegVideoFrame, a) :: L) mem) :
    Ends (setImageObj a b) mem (fun _ => Holding O ((.ffmpegVideoFrame, a) :: L))
      fun _ => Holding O [] := by
  unfold setImageObj
  rw [ends_updateStorage]
  refine ⟨fun st hst => ?_, fun _ _ => h.dropped⟩
  obtain ⟨obj, hobj, hst⟩ := bind_ok.mp hst
  have hobj := deref_ok.mp hobj
  cases hst
  obtain ⟨obj', hobj', hcls, hid⟩ := (h.loose (.ffmpegVideoFrame, a) (by simp)).isOpen
  cases hobj.symm.trans hobj'
  apply h.tail.setOwned hobj hid
  · intro _
    exact List.nodup_singleton b
  · intro c hc
    rw [List.mem_singleton.mp hc]
    exact .inr ⟨.image, by decide, h.loose (.image, b) (by simp)⟩
  · intro x hx hmem
    exact h.ne_of_mem hx (List.mem_singleton.mp hmem)
  · intro hstream
    rw [hcls] at hstream
    cases hstream
  · intro c _
    rfl

/-- A stream's prepared frames are set: it had them before, or nobody had them. -/
lemma ends_setPreparedFrames {entries : List (Option Addr)} (h : Holding O [] mem) (ha : a ∈ O)
    (hentries : ∀ obj, mem.storage.heap a = some obj →
      obj.owned = (mem.preparedFrames a).reduceOption →
        (obj.owned.Nodup → entries.reduceOption.Nodup) ∧
          ∀ b ∈ entries.reduceOption, b ∈ obj.owned ∨
            ∃ T, T ≠ .ffmpegVideoStream ∧ Loose T b mem.storage) :
    Ends (setPreparedFrames a entries) mem (fun _ => Holding O []) fun _ => Holding O [] := by
  unfold setPreparedFrames
  rw [ends_deref]
  refine ⟨fun obj hobj => ?_, fun _ _ => h⟩
  rw [ends_modify]
  obtain ⟨hcls, hid⟩ := (h.streams a ha).isOpen obj hobj
  obtain ⟨hnodup, hnew⟩ := hentries obj hobj (h.entries a obj hobj hcls)
  apply h.setOwned hobj hid hnodup hnew
  · intro x hx
    cases hx
  · intro _
    rw [Function.update_self]
  · intro c hc
    rw [Function.update_of_ne hc]

/-- A handle that nobody else has is released. -/
lemma ends_release (h : Holding O [(T, a)] mem) :
    Ends (release a) mem (fun _ => Holding O []) fun _ => Holding O [] := by
  unfold release
  rw [ends_updateStorage]
  refine ⟨fun st hst => ?_, fun _ _ => h.dropped⟩
  have hshrinks := free_shrinks hst
  refine ⟨h.sound.free (h.loose (T, a) (by simp)).unheld hst, ?_, ?_, ?_, List.nodup_nil⟩
  · intro c obj hobj
    exact h.entries c obj (hshrinks.heap c obj hobj)
  · intro s hs
    exact (h.streams s hs).shrinks hshrinks
  · intro x hx
    cases hx

end Binding

end GifTools
