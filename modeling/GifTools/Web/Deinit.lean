import GifTools.Web.Effects

/-!
# Finalizing an instance

`deinit` calls `internalFreeObjIds()` to free all that is on the list. A rest parameter is never
`undefined`, so the branch that walks the list is not taken and nothing is freed: objects are freed
by `deinit` exactly when there are none left to free.
-/

namespace GifTools.Web

open Throws Runs

/-! ### Accounting -/

/-- What is live was created and has its id to itself, and what was created and is not live any
more was passed to `objectFree`. -/
structure Accounted (s : Instance) : Prop where
  live_created : ∀ o ∈ s.live, o ∈ s.created
  unique : ∀ o ∈ s.live, ∀ o' ∈ s.live, o.vm = o'.vm → o.objId = o'.objId → o = o'
  passed : ∀ o ∈ s.created, o ∉ s.live → o.call ∈ s.passed

lemma Instance.find_eq_none {s : Instance} {m : ℕ} {objId : ℤ} :
    s.find m objId = none ↔ ∀ o ∈ s.live, ¬ o.IsAt m objId := by
  simp [Instance.find]

lemma Instance.find_some {s : Instance} {m : ℕ} {objId : ℤ} {o : VmObject}
    (h : s.find m objId = some o) : o ∈ s.live ∧ o.IsAt m objId :=
  ⟨List.mem_of_find?_eq_some h, by simpa using List.find?_some h⟩

lemma Instance.mem_add_live {s : Instance} {o o' : VmObject} :
    o' ∈ (s.add o).live ↔ o' ∈ s.live ∨ o' = o := by
  simp [Instance.add]

lemma Instance.mem_freed_live {s : Instance} {m : ℕ} {objId : ℤ} {o : VmObject} :
    o ∈ (s.freed m objId).live ↔ o ∈ s.live ∧ ¬ o.IsAt m objId := by
  simp [Instance.freed]

namespace Accounted

lemma initialised : Accounted initialised where
  live_created := by simp [Web.initialised]
  unique := by simp [Web.initialised]
  passed := by simp [Web.initialised]

variable {s : Instance}

/-- A live object is the one that is found under its id. -/
lemma find_eq (h : Accounted s) {o : VmObject} (ho : o ∈ s.live) :
    s.find o.vm o.objId = some o := by
  cases hfind : s.find o.vm o.objId with
  | none => exact (Instance.find_eq_none.mp hfind o ho ⟨rfl, rfl⟩).elim
  | some o' =>
    obtain ⟨ho', hvm, hid⟩ := Instance.find_some hfind
    rw [h.unique o' ho' o ho hvm hid]

lemma add (h : Accounted s) {o : VmObject} (ho : s.IsNew o) : Accounted (s.add o) where
  live_created o' ho' := by
    rcases Instance.mem_add_live.mp ho' with hlive | rfl
    · exact List.mem_append_left _ (h.live_created o' hlive)
    · simp [Instance.add]
  unique o₁ h₁ o₂ h₂ hvm hid := by
    have hfree := Instance.find_eq_none.mp ho.unused
    rcases Instance.mem_add_live.mp h₁ with hlive₁ | rfl <;>
      rcases Instance.mem_add_live.mp h₂ with hlive₂ | rfl
    · exact h.unique o₁ hlive₁ o₂ hlive₂ hvm hid
    · exact (hfree o₁ hlive₁ ⟨hvm, hid⟩).elim
    · exact (hfree o₂ hlive₂ ⟨hvm.symm, hid.symm⟩).elim
    · rfl
  passed o' ho' hnot := by
    rw [Instance.mem_add_live, not_or] at hnot
    rcases List.mem_append.mp ho' with hcreated | hnew
    · exact h.passed o' hcreated hnot.1
    · exact (hnot.2 (by simpa using hnew)).elim

lemma trapped (h : Accounted s) (m : ℕ) (objId : ℤ) : Accounted (s.trapped m objId) where
  live_created := h.live_created
  unique := h.unique
  passed o ho hnot := List.mem_append_left _ (h.passed o ho hnot)

lemma freed (h : Accounted s) (m : ℕ) (objId : ℤ) : Accounted (s.freed m objId) where
  live_created o ho := h.live_created o (Instance.mem_freed_live.mp ho).1
  unique o₁ h₁ o₂ h₂ :=
    h.unique o₁ (Instance.mem_freed_live.mp h₁).1 o₂ (Instance.mem_freed_live.mp h₂).1
  passed o ho hnot := by
    rw [Instance.mem_freed_live, not_and_not_right] at hnot
    by_cases hlive : o ∈ s.live
    · obtain ⟨rfl, rfl⟩ := hnot hlive
      apply List.mem_append_right
      simp [h.find_eq hlive]
    · exact List.mem_append_left _ (h.passed o ho hlive)

lemma recorded : Recorded Accounted where
  called _ h := ⟨h.live_created, h.unique, h.passed⟩
  add _ _ h ho := h.add ho
  vmObjIds _ _ h := ⟨h.live_created, h.unique, h.passed⟩

variable {vm : Vm}

lemma objectFree (objId : ℤ) : Preserves Accounted (vm.objectFree objId) := by
  intro s hs
  rw [ends_objectFree]
  exact ⟨fun _ => hs, fun m _ => ⟨fun _ => hs.freed m objId, fun _ => hs.trapped m objId⟩⟩

lemma internalFreeObjIds (objIds : List ℤ) :
    Preserves Accounted (internalFreeObjIds vm (rest objIds)) :=
  recorded.internalFreeObjIds objIds fun objId _ _ => objectFree objId

/-- Writing fields that say nothing about the objects. -/
lemma modify {f : Instance → Instance} (hcreated : ∀ s, (f s).created = s.created)
    (hlive : ∀ s, (f s).live = s.live) (hpassed : ∀ s, (f s).passed = s.passed) :
    Preserves Accounted (modify f : Method Unit) := by
  apply Preserves.modify
  intro s h
  refine ⟨?_, ?_, ?_⟩
  · rw [hcreated, hlive]
    exact h.live_created
  · rw [hlive]
    exact h.unique
  · rw [hcreated, hlive, hpassed]
    exact h.passed

lemma modify_bind {A : Type} {f : Instance → Instance} {g : Unit → Method A}
    (hcreated : ∀ s, (f s).created = s.created) (hlive : ∀ s, (f s).live = s.live)
    (hpassed : ∀ s, (f s).passed = s.passed) (hg : Preserves Accounted (g ())) :
    Preserves Accounted (MonadState.modifyGet (fun s => ((), f s)) >>= g) :=
  Preserves.bind (modify hcreated hlive hpassed) fun _ => hg

lemma init : Preserves Accounted init :=
  modify (fun _ => rfl) (fun _ => rfl) fun _ => rfl

lemma initThen : Preserves Accounted initThen := by
  apply Preserves.get_bind
  intro s _
  apply Preserves.ite <;> intro _
  · exact Preserves.pure
  · refine modify_bind (fun _ => rfl) (fun _ => rfl) (fun _ => rfl) ?_
    exact Preserves.pure

lemma deinit : Preserves Accounted (deinit vm) := by
  apply Preserves.get_bind
  intro s _
  apply Preserves.bind (Recorded.assert _ _)
  intro _
  apply Preserves.bind (internalFreeObjIds _)
  intro _
  exact modify (fun _ => rfl) (fun _ => rfl) fun _ => rfl

lemma bufferToBase64 (bufferId : ℤ) : Preserves Accounted (bufferToBase64 vm bufferId) := by
  apply Preserves.ite <;> intro _
  · exact Preserves.pure
  apply Preserves.bind (recorded.make _ _)
  intro base64BufferId
  apply Preserves.ite <;> intro _
  · exact Preserves.pure
  apply Preserves.bind (recorded.internalAddObjIds _)
  intro _
  apply Preserves.bind (recorded.ask _)
  intro bufferArray
  apply Preserves.bind (internalFreeObjIds _)
  intro _
  exact Preserves.pure

lemma imageLoadFromFileBuffer (fileBuffer : Option (List UInt8)) :
    Preserves Accounted (imageLoadFromFileBuffer vm fileBuffer) := by
  cases fileBuffer with
  | none => exact Preserves.pure
  | some fileBuffer =>
    apply Preserves.bind (recorded.make _ _)
    intro bufferId
    apply Preserves.ite <;> intro _
    · exact Preserves.pure
    apply Preserves.bind (recorded.internalAddObjIds _)
    intro _
    apply Preserves.bind (recorded.make _ _)
    intro imageId
    apply Preserves.ite <;> intro _
    · apply Preserves.bind (internalFreeObjIds _)
      intro _
      exact Preserves.pure
    · apply Preserves.bind (recorded.internalAddObjIds _)
      intro _
      exact Preserves.pure

lemma imageResize (imageId width height : ℤ) :
    Preserves Accounted (imageResize vm imageId width height) := by
  apply Preserves.ite <;> intro _
  · exact Preserves.pure
  apply Preserves.bind (recorded.ask _)
  intro imageWidth
  apply Preserves.bind
  · apply Preserves.ite <;> intro _
    · exact (recorded.ask _).map
    · exact Preserves.pure
  intro extentsMatch
  apply Preserves.ite <;> intro _
  · exact Preserves.pure
  apply Preserves.bind (recorded.make _ _)
  intro resizedImageId
  apply Preserves.ite <;> intro _
  · exact Preserves.pure
  apply Preserves.bind (recorded.internalAddObjIds _)
  intro _
  exact Preserves.pure

/-- An object is made and its id is written to a field that says nothing about the objects. -/
lemma ends_make {T : ManagedClass} {source : Option ℤ} {f : ℤ → Instance → Instance}
    (hcreated : ∀ id s, (f id s).created = s.created) (hlive : ∀ id s, (f id s).live = s.live)
    (hpassed : ∀ id s, (f id s).passed = s.passed) (hs : Accounted s) :
    Ends (vm.make T source) s (fun id t => Accounted (f id t)) fun _ => Accounted :=
  (recorded.make T source s hs).imp
    (fun id t ht => modify (hcreated id) (hlive id) (hpassed id) t ht) fun _ _ ht => ht

lemma videoDecoderOpenVideoStream (fileBuffer : Option (List UInt8)) :
    Preserves Accounted (videoDecoderOpenVideoStream vm fileBuffer) := by
  cases fileBuffer with
  | none => exact Preserves.pure
  | some fileBuffer =>
    intro s hs
    apply recorded.ends_videoDecoderOpenVideoStream
    · exact ends_make (fun _ _ => rfl) (fun _ _ => rfl) (fun _ _ => rfl) hs
    · intro bufferId t ht
      exact ends_make (fun _ _ => rfl) (fun _ _ => rfl) (fun _ _ => rfl) ht
    · intro inputStreamId t ht
      exact ends_make (fun _ _ => rfl) (fun _ _ => rfl) (fun _ _ => rfl) ht
    · intro t _
      exact internalFreeObjIds _
    · intro t _
      exact internalFreeObjIds _

lemma videoDecoderFreeVideoFrame (frame : Option GifToolsVideoFrame) :
    Preserves Accounted (videoDecoderFreeVideoFrame vm frame) := by
  cases frame with
  | none => exact Preserves.pure
  | some frame =>
    apply Preserves.get_bind
    intro s _
    apply Preserves.bind (Recorded.assert _ _)
    intro _
    exact internalFreeObjIds _

lemma videoDecoderCloseVideoStream : Preserves Accounted (videoDecoderCloseVideoStream vm) := by
  apply Preserves.get_bind
  intro s _
  apply Preserves.bind (Recorded.assert _ _)
  intro _
  apply Preserves.get_bind
  intro s _
  exact internalFreeObjIds _

lemma gifEncoderBegin (width height delay : ℤ) :
    Preserves Accounted (gifEncoderBegin vm width height delay) := by
  apply Preserves.get_bind
  intro s _
  apply Preserves.bind (Recorded.assert _ _)
  intro _
  apply Preserves.bind (recorded.make _ _)
  intro gifBuilderId
  refine modify_bind (fun _ => rfl) (fun _ => rfl) (fun _ => rfl) ?_
  apply Preserves.get_bind
  intro s _
  apply Preserves.ite <;> intro _
  · exact Preserves.pure
  apply Preserves.get_bind
  intro s _
  apply Preserves.bind (recorded.internalAddObjIds _)
  intro _
  apply Preserves.bind (Recorded.assert _ _)
  intro _
  apply Preserves.bind (Recorded.assert _ _)
  intro _
  refine modify_bind (fun _ => rfl) (fun _ => rfl) (fun _ => rfl) ?_
  exact Preserves.pure

lemma gifEncoderAddImage (imageId delay : ℤ) :
    Preserves Accounted (gifEncoderAddImage vm imageId delay) := by
  apply Preserves.get_bind
  intro s _
  apply Preserves.bind (Recorded.assert _ _)
  intro _
  apply Preserves.bind (Recorded.assert _ _)
  intro _
  apply Preserves.bind (recorded.ask _)
  intro imageWidth
  apply Preserves.get_bind
  intro s _
  apply Preserves.bind (Recorded.assert _ _)
  intro _
  apply Preserves.bind (recorded.ask _)
  intro imageHeight
  apply Preserves.get_bind
  intro s _
  apply Preserves.bind (Recorded.assert _ _)
  intro _
  apply Preserves.get_bind
  intro s _
  exact recorded.ask _

lemma gifEncoderEnd : Preserves Accounted (gifEncoderEnd vm) := by
  apply Preserves.get_bind
  intro s _
  apply Preserves.bind (Recorded.assert _ _)
  intro _
  apply Preserves.get_bind
  intro s _
  apply Preserves.bind (recorded.make _ _)
  intro gifBufferId
  apply Preserves.bind (recorded.internalAddObjIds _)
  intro _
  apply Preserves.bind (recorded.ask _)
  intro gifBufferArray
  apply Preserves.get_bind
  intro s _
  apply Preserves.bind (internalFreeObjIds _)
  intro _
  refine modify_bind (fun _ => rfl) (fun _ => rfl) (fun _ => rfl) ?_
  exact Preserves.pure

/-- Every method keeps the accounts. -/
theorem call (op : Op) : Preserves Accounted (op.call vm) := by
  cases op with
  | init => exact init
  | initThen => exact initThen.map
  | deinit => exact deinit
  | internalAddObjIds objIds => exact recorded.internalAddObjIds objIds
  | internalFreeObjIds objIds => exact internalFreeObjIds objIds
  | bufferToBase64 bufferId => exact (bufferToBase64 bufferId).map
  | imageLoadFromFileBuffer fileBuffer => exact (imageLoadFromFileBuffer fileBuffer).map
  | imageResize imageId width height => exact (imageResize imageId width height).map
  | videoDecoderOpenVideoStream fileBuffer => exact (videoDecoderOpenVideoStream fileBuffer).map
  | videoDecoderWidth => exact (recorded.videoDecoderAsk 0 vm.int).map
  | videoDecoderHeight => exact (recorded.videoDecoderAsk 0 vm.int).map
  | videoDecoderDurationSeconds => exact (recorded.videoDecoderAsk 0 vm.double).map
  | videoDecoderFrameDurationSeconds => exact (recorded.videoDecoderAsk 0 vm.double).map
  | videoDecoderPrepareAllFrames => exact (recorded.videoDecoderAsk 0 vm.int).map
  | videoDecoderPrepareFrames framesPerSecond =>
    exact (recorded.videoDecoderAsk 0 vm.int).map
  | videoDecoderPickClosestPreparedVideoFrame durationSeconds =>
    exact (recorded.videoDecoderPick durationSeconds fun _ _ => recorded.make _ _).map
  | videoDecoderPickClosestVideoFrame durationSeconds =>
    exact (recorded.videoDecoderPick durationSeconds fun _ _ => recorded.make _ _).map
  | videoDecoderFreeVideoFrame frame => exact videoDecoderFreeVideoFrame frame
  | videoDecoderCloseVideoStream => exact videoDecoderCloseVideoStream
  | gifEncoderBegin width height delay => exact (gifEncoderBegin width height delay).map
  | gifEncoderAddImage imageId delay => exact (gifEncoderAddImage imageId delay).map
  | gifEncoderEnd => exact gifEncoderEnd.map

lemma step (s : Instance) (op : Op) (t : Instance) (hs : Accounted s)
    (h : Web.step vm s op = .ok t) : Accounted t := by
  rw [step_eq] at h
  cases h
  exact (call op).after hs

/-- The accounts are kept over whole runs of an initialised instance. -/
theorem of_run {ops : List Op} (h : run (Web.step vm) Web.initialised ops = .ok s) : Accounted s :=
  run_invariant step initialised h

end Accounted

/-! ### What `deinit` frees -/

/-- `deinit` returned in `t`: each object that was live in `s` has been passed to `objectFree`
exactly once, and none is live any more. -/
structure AllFreed (s t : Instance) : Prop where
  passed : ∀ o ∈ s.created, o ∈ s.live → t.passed.count o.call = 1
  live : t.live = []

/-- Without an active encoder `deinit` returns; it calls no function of the module. -/
lemma run_deinit {vm : Vm} {s : Instance} (h : ¬ isValidObj s.currentGifBuilderId) :
    (deinit vm).run s = .ok () { s with vmStatus := vmStatusNull, vm := none } := by
  have hnone : s.currentGifBuilderId ≤ 0 := by simpa using h
  simp [deinit, assert, hnone, internalFreeObjIds, rest]

/-- `deinit` leaves nothing alive exactly when every object had been freed before. -/
theorem allFreed_deinit_iff (vm : Vm) (ops : List Op) {s : Instance}
    (hrun : run (step vm) initialised ops = .ok s) (h : ¬ isValidObj s.currentGifBuilderId) :
    AllFreed s (after (deinit vm) s) ↔ ∀ o ∈ s.created, o ∉ s.live := by
  have haccounted := Accounted.of_run hrun
  have hafter : after (deinit vm) s = { s with vmStatus := vmStatusNull, vm := none } := by
    simp [after, run_deinit h]
  rw [hafter]
  constructor
  · intro hfreed o _ hlive
    have hnil := hfreed.live
    simp only at hnil
    simp [hnil] at hlive
  · intro hfreed
    refine ⟨fun o ho hlive => (hfreed o ho hlive).elim, ?_⟩
    rw [List.eq_nil_iff_forall_not_mem]
    intro o hlive
    exact hfreed o (haccounted.live_created o hlive) hlive

/-- A GIF is begun and ended, and its buffer is freed by its id. -/
def encodeAndFree : List Op :=
  [.gifEncoderBegin 1 1 0, .gifEncoderEnd, .internalFreeObjIds [newObjId .buffer 1 1]]

theorem allFreed_deinit_encodeAndFree :
    ∃ s, run (step .obliging) initialised encodeAndFree = .ok s ∧
      AllFreed s (after (deinit .obliging) s) :=
  ⟨_, rfl, (allFreed_deinit_iff .obliging encodeAndFree rfl (by decide)).mpr (by decide)⟩

/-- Loading one image leaves a buffer and an image behind. -/
theorem not_allFreed_deinit :
    ¬ ∀ (vm : Vm) (ops : List Op) (s : Instance), run (step vm) initialised ops = .ok s →
      ¬ isValidObj s.currentGifBuilderId → AllFreed s (after (deinit vm) s) := by
  intro h
  have hlive := (h .obliging [.imageLoadFromFileBuffer (some [0])] _ rfl (by decide)).live
  revert hlive
  decide

end GifTools.Web
