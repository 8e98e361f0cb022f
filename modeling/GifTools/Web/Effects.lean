import GifTools.Web.Methods

/-!
# What the methods do to an invariant

A VM call that makes an object adds a new one or nothing; the other calls but `objectFree` change
nothing at all. `Recorded I` says that `I` survives these calls and the bookkeeping in `vmObjIds`,
which is enough for the methods that only make objects and ask.
-/

namespace GifTools.Web

open Throws

/-- One more call has been made. -/
def Instance.called (s : Instance) : Instance := { s with calls := s.calls + 1 }

/-- One more call has been made, and it made `o`. -/
def Instance.add (s : Instance) (o : VmObject) : Instance :=
  { s with calls := s.calls + 1, created := s.created ++ [o], live := s.live ++ [o] }

/-- A call of `objectFree` that returned. -/
def Instance.freed (s : Instance) (vm : ℕ) (objId : ℤ) : Instance :=
  { s with
    calls := s.calls + 1
    passed := s.passed ++ ((s.find vm objId).map (·.call)).toList
    live := s.live.filter fun o => ¬ o.IsAt vm objId }

/-- A call of `objectFree` that trapped. -/
def Instance.trapped (s : Instance) (vm : ℕ) (objId : ℤ) : Instance :=
  { s with
    calls := s.calls + 1
    passed := s.passed ++ ((s.find vm objId).map (·.call)).toList }

/-- What the next call of `s` can make: an object of the loaded module under an unused id. -/
structure Instance.IsNew (s : Instance) (o : VmObject) : Prop where
  call : o.call = s.calls
  vm : s.vm = some o.vm
  objId : ∃ identifier generation, o.objId = newObjId o.cls identifier generation
  unused : s.find o.vm o.objId = none

lemma newObjId_pos (T : ManagedClass) (identifier : BitVec 20) (generation : BitVec 8) :
    0 < newObjId T identifier generation :=
  ManagedObjId.toInt_composite_pos rfl

lemma Instance.IsNew.objId_pos {s : Instance} {o : VmObject} (h : s.IsNew o) : 0 < o.objId := by
  obtain ⟨identifier, generation, ho⟩ := h.objId
  rw [ho]
  exact newObjId_pos o.cls identifier generation

/-! ### One call -/

section Calls

variable {s : Instance} {X : JsError → Instance → Prop}

lemma ends_callVm {Q : ℕ × ℕ → Instance → Prop} :
    Ends callVm s Q X ↔
      (s.vm = none → X .TypeError s) ∧ ∀ m, s.vm = some m → Q (m, s.calls) s.called := by
  unfold callVm
  simp only [ends_bind, ends_get]
  cases h : s.vm with
  | none => simp
  | some m => simp [Instance.called]

lemma ends_ask {A : Type} {answer : ℕ → Option A} {Q : A → Instance → Prop} :
    Ends (ask answer) s Q X ↔
      (s.vm = none → X .TypeError s) ∧
        ((∃ m, s.vm = some m) →
          (answer s.calls = none → X .RuntimeError s.called) ∧
          ∀ a, answer s.calls = some a → Q a s.called) := by
  unfold ask
  simp only [ends_bind, ends_callVm]
  cases h : answer s.calls <;> simp

/-- The next call makes an object of class `T`. -/
def Vm.Makes (vm : Vm) (s : Instance) (T : ManagedClass) : Prop :=
  ∃ m identifier generation, s.vm = some m ∧ vm.create s.calls = .object identifier generation ∧
    s.find m (newObjId T identifier generation) = none

/-- A creating call that makes nothing returns the invalid id or throws. -/
lemma ends_make_of_not_makes {vm : Vm} {T : ManagedClass} {source : Option ℤ}
    (h : ¬ vm.Makes s T) :
    Ends (vm.make T source) s (fun objId t => objId = 0 ∧ t = s.called)
      fun _ t => t = s ∨ t = s.called := by
  unfold Vm.make
  rw [ends_bind, ends_callVm]
  refine ⟨fun _ => .inl rfl, fun m hm => ?_⟩
  cases hc : vm.create s.calls with
  | throws => exact .inr rfl
  | refuses => exact ⟨rfl, rfl⟩
  | object identifier generation =>
    have hused : (s.find m (newObjId T identifier generation)).isSome := by
      rw [Option.isSome_iff_ne_none]
      exact fun hnone => h ⟨m, identifier, generation, hm, hc, hnone⟩
    have hcalled : (s.called.find m (newObjId T identifier generation)).isSome := hused
    simp only [ends_bind, ends_get, Instance.newObject, ends_ite, hcalled]
    exact ⟨fun _ => ⟨rfl, rfl⟩, fun hnot => (hnot trivial).elim⟩

/-- A creating call that makes an object adds it and returns its id. -/
lemma ends_make_of_makes {vm : Vm} {T : ManagedClass} {source : Option ℤ} (h : vm.Makes s T) :
    Ends (vm.make T source) s
      (fun objId t => ∃ o, s.IsNew o ∧ o.cls = T ∧ objId = o.objId ∧ t = s.add o)
      fun _ _ => False := by
  obtain ⟨m, identifier, generation, hm, hc, hnone⟩ := h
  unfold Vm.make
  simp only [ends_bind, ends_callVm, hm, hc]
  refine ⟨by simp, fun m' hm' => ?_⟩
  cases hm'
  have hcalled : s.called.find m (newObjId T identifier generation) = none := hnone
  simp only [ends_get, Instance.newObject, hcalled, ends_bind, ends_ite, ends_modify, ends_pure]
  refine ⟨by simp, fun _ => ⟨_, ⟨rfl, hm, ⟨identifier, generation, rfl⟩, hnone⟩, rfl, rfl, rfl⟩⟩

/-- Both outcomes of a creating call. -/
lemma ends_make {vm : Vm} {T : ManagedClass} {source : Option ℤ} :
    Ends (vm.make T source) s
      (fun objId t => objId = 0 ∧ t = s.called ∨
        ∃ o, s.IsNew o ∧ o.cls = T ∧ objId = o.objId ∧ t = s.add o)
      fun _ t => t = s ∨ t = s.called := by
  by_cases h : vm.Makes s T
  · exact (ends_make_of_makes h).imp (fun _ _ ho => .inr ho) fun _ _ hf => hf.elim
  · exact (ends_make_of_not_makes h).imp (fun _ _ ho => .inl ho) fun _ _ hf => hf

lemma ends_objectFree {vm : Vm} {objId : ℤ} {Q : Unit → Instance → Prop} :
    Ends (vm.objectFree objId) s Q X ↔
      (s.vm = none → X .TypeError s) ∧ ∀ m, s.vm = some m →
        (vm.frees s.calls → Q () (s.freed m objId)) ∧
        (¬ vm.frees s.calls → X .RuntimeError (s.trapped m objId)) := by
  unfold Vm.objectFree
  simp only [ends_bind, ends_callVm, ends_modify, ends_ite, ends_throw]
  rfl

end Calls

lemma ends_assert {s : Instance} {c : Bool} {msg : String} {Q : Unit → Instance → Prop}
    {X : JsError → Instance → Prop} :
    Ends (assert c msg) s Q X ↔
      (c → Q () s) ∧ (¬ c → X (.GifToolsValidationError msg) s) := by
  unfold assert
  rw [ends_ite]
  rfl

lemma ends_assert_bind {s : Instance} {c : Bool} {msg : String} {A : Type} {f : Unit → Method A}
    {Q : A → Instance → Prop} {X : JsError → Instance → Prop} :
    Ends (assert c msg >>= f) s Q X ↔
      (c → Ends (f ()) s Q X) ∧ (¬ c → X (.GifToolsValidationError msg) s) := by
  rw [ends_bind, ends_assert]

/-! ### Invariants that survive the making of objects -/

/-- `I` survives what a VM call other than `objectFree` does, and writes to `vmObjIds`. -/
structure Recorded (I : Instance → Prop) : Prop where
  called : ∀ s, I s → I s.called
  add : ∀ s o, I s → s.IsNew o → I (s.add o)
  vmObjIds : ∀ s ids, I s → I { s with vmObjIds := ids }

namespace Recorded

variable {I : Instance → Prop} {vm : Vm}

lemma make (h : Recorded I) (T : ManagedClass) (source : Option ℤ) :
    Preserves I (vm.make T source) := by
  intro s hs
  refine ends_make.imp ?_ ?_
  · rintro objId t (⟨-, rfl⟩ | ⟨o, ho, -, -, rfl⟩)
    · exact h.called s hs
    · exact h.add s o hs ho
  · rintro e t (rfl | rfl)
    · exact hs
    · exact h.called s hs

lemma ask (h : Recorded I) {A : Type} (answer : ℕ → Option A) : Preserves I (Web.ask answer) := by
  intro s hs
  rw [ends_ask]
  exact ⟨fun _ => hs, fun _ => ⟨fun _ => h.called s hs, fun _ _ => h.called s hs⟩⟩

lemma internalAddObjIds (h : Recorded I) (objIds : List ℤ) :
    Preserves I (Web.internalAddObjIds objIds) := by
  apply Preserves.forM
  intro objId _
  apply Preserves.get_bind
  intro s _
  apply Preserves.ite <;> intro _
  · exact Preserves.pure
  · apply Preserves.modify
    intro t ht
    exact h.vmObjIds t _ ht

/-- Freeing a list of ids keeps what freeing each of them keeps. -/
lemma internalFreeObjIds (h : Recorded I) (objIds : List ℤ)
    (hfree : ∀ objId ∈ objIds, 0 < objId → Preserves I (vm.objectFree objId)) :
    Preserves I (Web.internalFreeObjIds vm (rest objIds)) := by
  apply Preserves.forM
  intro objId hmem
  apply Preserves.ite <;> intro hvalid
  · exact Preserves.pure
  · apply Preserves.bind
    · apply Preserves.modify
      intro t ht
      exact h.vmObjIds t _ ht
    · intro _
      apply hfree objId hmem
      simpa using hvalid

lemma videoDecoderAsk (h : Recorded I) {A : Type} (invalid : A) (answer : ℕ → Option A) :
    Preserves I (Web.videoDecoderAsk invalid fun _ => Web.ask answer) := by
  apply Preserves.get_bind
  intro s _
  apply Preserves.ite <;> intro _
  · exact Preserves.pure
  · exact h.ask answer

lemma assert (c : Bool) (msg : String) : Preserves I (Web.assert c msg) := by
  apply Preserves.ite <;> intro _
  · exact Preserves.pure
  · exact Preserves.throw

lemma videoDecoderPick (h : Recorded I) (durationSeconds : ℚ) {pick : ℤ → ℚ → Method ℤ}
    (hpick : ∀ id t, Preserves I (pick id t)) :
    Preserves I (Web.videoDecoderPick vm pick durationSeconds) := by
  apply Preserves.get_bind
  intro s _
  apply Preserves.bind (assert _ _)
  intro _
  apply Preserves.get_bind
  intro s _
  apply Preserves.bind (hpick _ _)
  intro frameId
  apply Preserves.ite <;> intro _
  · exact Preserves.pure
  · apply Preserves.bind (h.internalAddObjIds _)
    intro _
    apply Preserves.bind (h.ask _)
    intro imageId
    apply Preserves.bind (h.ask _)
    intro timeSeconds
    exact Preserves.pure

/-- Opening a stream makes three objects, stores their ids in three fields, and frees the ids in
two of these when it gives up. -/
lemma ends_videoDecoderOpenVideoStream (h : Recorded I) {s : Instance} {fileBuffer : List UInt8}
    (hbuffer : Ends (vm.bufferFromUint8Array fileBuffer) s
      (fun id t => I { t with currentInputStreamBufferId := id }) fun _ => I)
    (hinputStream : ∀ bufferId t, I t → Ends (vm.ffmpegInputStreamLoadFromBuffer bufferId) t
      (fun id u => I { u with currentInputStreamId := id }) fun _ => I)
    (hvideoStream : ∀ inputStreamId t, I t → Ends (vm.ffmpegVideoStreamOpen inputStreamId) t
      (fun id u => I { u with currentVideoStreamId := id }) fun _ => I)
    (hfreeBuffer : ∀ t, I t →
      Preserves I (Web.internalFreeObjIds vm (rest [t.currentInputStreamBufferId])))
    (hfreeStream : ∀ t, I t →
      Preserves I (Web.internalFreeObjIds vm (rest [t.currentInputStreamId]))) :
    Ends (Web.videoDecoderOpenVideoStream vm (some fileBuffer)) s (fun _ => I) fun _ => I := by
  unfold Web.videoDecoderOpenVideoStream
  rw [ends_bind]
  refine hbuffer.imp (fun bufferId t ht => ?_) fun _ _ ht => ht
  rw [ends_bind, ends_modify]
  refine (?_ : Preserves I _) _ ht
  apply Preserves.get_bind
  intro s₁ _
  apply Preserves.ite <;> intro _
  · exact Preserves.pure
  apply Preserves.get_bind
  intro s₂ _
  apply Preserves.bind (h.internalAddObjIds _)
  intro _
  apply Preserves.get_bind
  intro s₃ _ t ht
  rw [ends_bind]
  refine (hinputStream _ t ht).imp (fun inputStreamId t ht => ?_) fun _ _ ht => ht
  rw [ends_bind, ends_modify]
  refine (?_ : Preserves I _) _ ht
  apply Preserves.get_bind
  intro s₄ _
  apply Preserves.ite <;> intro _
  · apply Preserves.get_bind
    intro s₅ h₅
    apply Preserves.bind (hfreeBuffer s₅ h₅)
    intro _
    exact Preserves.pure
  apply Preserves.get_bind
  intro s₅ _
  apply Preserves.bind (h.internalAddObjIds _)
  intro _
  apply Preserves.bind
  · apply Preserves.tryCatch
    · apply Preserves.get_bind
      intro s₆ _ t ht
      rw [ends_bind]
      refine (hvideoStream _ t ht).imp (fun videoStreamId t ht => ?_) fun _ _ ht => ht
      exact ht
    · intro _
      exact Preserves.pure
  intro opened
  apply Preserves.ite <;> intro _
  · exact Preserves.pure
  apply Preserves.get_bind
  intro s₆ h₆
  apply Preserves.bind (hfreeBuffer s₆ h₆)
  intro _
  apply Preserves.get_bind
  intro s₇ h₇
  apply Preserves.bind (hfreeStream s₇ h₇)
  intro _
  exact Preserves.pure

end Recorded

end GifTools.Web
