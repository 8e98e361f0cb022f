import GifTools.Web.Effects

/-!
# What a failed method leaves behind

`imageLoadFromFileBuffer`, `videoDecoderOpenVideoStream` and `gifEncoderBegin` each begin with a
VM call that makes an object. If that call makes none, the method fails and the instance is left
as it was. From there on every failure leaves something behind: the image method checks the id of
the buffer once more instead of that of the image, the decoder keeps the ids it has freed, and the
encoder checks its extents when the builder is already there.
-/

namespace GifTools.Web

open Throws

inductive Opening where
  | imageLoadFromFileBuffer (fileBuffer : Option (List UInt8))
  | videoDecoderOpenVideoStream (fileBuffer : Option (List UInt8))
  | gifEncoderBegin (width height delay : ℤ)

/-- The method, with whether it succeeds as its result. -/
def Opening.call (vm : Vm) : Opening → Method Bool
  | .imageLoadFromFileBuffer fileBuffer => isValidObj <$> Web.imageLoadFromFileBuffer vm fileBuffer
  | .videoDecoderOpenVideoStream fileBuffer => Web.videoDecoderOpenVideoStream vm fileBuffer
  | .gifEncoderBegin width height delay => Web.gifEncoderBegin vm width height delay

/-- The method returns `0` or `false`, or throws. -/
def Fails (m : Method Bool) (s : Instance) : Prop :=
  Ends m s (fun succeeded _ => succeeded = false) fun _ _ => True

/-- The objects made in a call that led from `s` to `t`. -/
def Instance.createdSince (s t : Instance) : List VmObject := t.created.drop s.created.length

/-- A field `current*` holds the id. -/
def Instance.Current (s : Instance) (objId : ℤ) : Prop :=
  s.currentGifBuilderId = objId ∨ s.currentInputStreamBufferId = objId ∨
    s.currentInputStreamId = objId ∨ s.currentVideoStreamId = objId

/-- A call that led from `s` to `t` left the instance as it was. -/
structure LeftAsBefore (s t : Instance) : Prop where
  freed : ∀ o ∈ s.createdSince t, o ∉ t.live
  vmObjIds : ∀ objId ∈ t.vmObjIds, objId ∈ s.vmObjIds
  current : ∀ o ∈ s.createdSince t, ¬ t.Current o.objId

/-- The first VM call of the method makes an object. -/
def Opening.MakesFirst (vm : Vm) (s : Instance) : Opening → Prop
  | .imageLoadFromFileBuffer fileBuffer => fileBuffer ≠ none ∧ vm.Makes s .buffer
  | .videoDecoderOpenVideoStream fileBuffer => fileBuffer ≠ none ∧ vm.Makes s .buffer
  | .gifEncoderBegin _ _ _ => ¬ isValidObj s.currentGifBuilderId ∧ vm.Makes s .gifBuilder

variable {vm : Vm} {s : Instance}

/-! ### Nothing is made first -/

lemma LeftAsBefore.of_same {s t : Instance} (hcreated : t.created = s.created)
    (hids : t.vmObjIds = s.vmObjIds) : LeftAsBefore s t := by
  have hnone : s.createdSince t = [] := by simp [Instance.createdSince, hcreated]
  refine ⟨?_, ?_, ?_⟩
  · simp [hnone]
  · simp [hids]
  · simp [hnone]

/-- A method that begins with a call that makes nothing goes on with the invalid id. -/
lemma ends_of_not_makes {A : Type} {T : ManagedClass} {source : Option ℤ} {f : ℤ → Method A}
    (h : ¬ vm.Makes s T)
    (hf : Ends (f 0) s.called (fun _ => LeftAsBefore s) fun _ => LeftAsBefore s) :
    Ends (vm.make T source >>= f) s (fun _ => LeftAsBefore s) fun _ => LeftAsBefore s := by
  rw [ends_bind]
  refine (ends_make_of_not_makes h).imp ?_ ?_
  · rintro objId t ⟨rfl, rfl⟩
    exact hf
  · rintro e t (rfl | rfl)
    · exact LeftAsBefore.of_same rfl rfl
    · exact LeftAsBefore.of_same rfl rfl

lemma leftAsBefore_of_not_makesFirst {c : Opening} (h : ¬ c.MakesFirst vm s) :
    Ends (c.call vm) s (fun _ => LeftAsBefore s) fun _ => LeftAsBefore s := by
  match c with
  | .imageLoadFromFileBuffer none => exact LeftAsBefore.of_same rfl rfl
  | .videoDecoderOpenVideoStream none => exact LeftAsBefore.of_same rfl rfl
  | .imageLoadFromFileBuffer (some fileBuffer) =>
    have hmakes : ¬ vm.Makes s .buffer := fun hmakes => h ⟨by simp, hmakes⟩
    rw [Opening.call, ends_map]
    exact ends_of_not_makes hmakes (LeftAsBefore.of_same rfl rfl)
  | .videoDecoderOpenVideoStream (some fileBuffer) =>
    have hmakes : ¬ vm.Makes s .buffer := fun hmakes => h ⟨by simp, hmakes⟩
    exact ends_of_not_makes hmakes (LeftAsBefore.of_same rfl rfl)
  | .gifEncoderBegin width height delay =>
    rw [Opening.call, gifEncoderBegin, ends_get_bind, ends_assert_bind]
    refine ⟨fun hnone => ?_, fun _ => LeftAsBefore.of_same rfl rfl⟩
    have hmakes : ¬ vm.Makes s .gifBuilder := fun hmakes => h ⟨by simpa using hnone, hmakes⟩
    exact ends_of_not_makes hmakes (LeftAsBefore.of_same rfl rfl)

/-! ### Something is made first -/

/-- `o` is the first object made since `s`. -/
def MadeFirst (s : Instance) (o : VmObject) (t : Instance) : Prop :=
  ∃ l, t.created = s.created ++ o :: l

lemma MadeFirst.mem {s t : Instance} {o : VmObject} (h : MadeFirst s o t) :
    o ∈ s.createdSince t := by
  obtain ⟨l, hl⟩ := h
  simp [Instance.createdSince, hl]

lemma MadeFirst.self {s : Instance} {o : VmObject} : MadeFirst s o (s.add o) := ⟨[], rfl⟩

lemma MadeFirst.add {s t : Instance} {o o' : VmObject} (h : MadeFirst s o t) :
    MadeFirst s o (t.add o') := by
  obtain ⟨l, hl⟩ := h
  exact ⟨l ++ [o'], by simp [Instance.add, hl]⟩

/-- A method that begins with a call that makes `o` ends as its rest does. -/
lemma ends_of_makes {A : Type} {T : ManagedClass} {source : Option ℤ} {f : ℤ → Method A}
    {I : VmObject → Instance → Prop} (h : vm.Makes s T)
    (hf : ∀ o, s.IsNew o → Ends (f o.objId) (s.add o) (fun _ => I o) fun _ => I o)
    (hI : ∀ o t, I o t → ¬ LeftAsBefore s t) :
    Ends (vm.make T source >>= f) s (fun _ t => ¬ LeftAsBefore s t)
      fun _ t => ¬ LeftAsBefore s t := by
  rw [ends_bind]
  refine (ends_make_of_makes h).imp ?_ fun _ _ hf => hf.elim
  rintro objId t ⟨o, ho, -, rfl, rfl⟩
  exact (hf o ho).imp (fun _ t ht => hI o t ht) fun _ t ht => hI o t ht

/-- The buffer of an image is still live. -/
lemma ends_imageLoad_of_makes {fileBuffer : List UInt8} (h : vm.Makes s .buffer) :
    Ends (imageLoadFromFileBuffer vm (some fileBuffer)) s (fun _ t => ¬ LeftAsBefore s t)
      fun _ t => ¬ LeftAsBefore s t := by
  refine ends_of_makes (I := fun o t => MadeFirst s o t ∧ o ∈ t.live) h ?_ ?_
  · intro o ho
    have hrecorded : Recorded fun t => MadeFirst s o t ∧ o ∈ t.live :=
      ⟨fun _ ht => ht, fun t o' ht _ => ⟨ht.1.add, List.mem_append_left _ ht.2⟩, fun _ _ ht => ht⟩
    have hvalid : isValidObj o.objId := by simpa using ho.objId_pos
    simp only [hvalid, not_true_eq_false, if_false]
    refine (?_ : Preserves (fun t => MadeFirst s o t ∧ o ∈ t.live) _) (s.add o)
      ⟨MadeFirst.self, by simp [Instance.add]⟩
    apply Preserves.bind (hrecorded.internalAddObjIds _)
    intro _
    apply Preserves.bind (hrecorded.make _ _)
    intro imageId
    apply Preserves.bind (hrecorded.internalAddObjIds _)
    intro _
    exact Preserves.pure
  · intro o t ht hleft
    exact hleft.freed o ht.1.mem ht.2

/-- `o` is the first object made since `s`, and a field holds its id. -/
def HeldFirst (field : Instance → ℤ) (s : Instance) (o : VmObject) (t : Instance) : Prop :=
  MadeFirst s o t ∧ field t = o.objId

lemma HeldFirst.recorded {field : Instance → ℤ} {o : VmObject}
    (hcalled : ∀ t : Instance, field t.called = field t)
    (hadd : ∀ (t : Instance) o', field (t.add o') = field t)
    (hids : ∀ (t : Instance) ids, field { t with vmObjIds := ids } = field t) :
    Recorded (HeldFirst field s o) where
  called t ht := ⟨ht.1, (hcalled t).trans ht.2⟩
  add t o' ht _ := ⟨ht.1.add, (hadd t o').trans ht.2⟩
  vmObjIds t ids ht := ⟨ht.1, (hids t ids).trans ht.2⟩

lemma HeldFirst.recorded_exists {field : Instance → ℤ}
    (hcalled : ∀ t : Instance, field t.called = field t)
    (hadd : ∀ (t : Instance) o', field (t.add o') = field t)
    (hids : ∀ (t : Instance) ids, field { t with vmObjIds := ids } = field t) :
    Recorded fun t => ∃ o, HeldFirst field s o t where
  called := by
    rintro t ⟨o, ht⟩
    exact ⟨o, (recorded hcalled hadd hids).called t ht⟩
  add := by
    rintro t o' ⟨o, ht⟩ ho'
    exact ⟨o, (recorded hcalled hadd hids).add t o' ht ho'⟩
  vmObjIds := by
    rintro t ids ⟨o, ht⟩
    exact ⟨o, (recorded hcalled hadd hids).vmObjIds t ids ht⟩

/-- Freeing it changes no field. -/
lemma HeldFirst.internalFreeObjIds (objIds : List ℤ) :
    Preserves (fun t => ∃ o, HeldFirst (·.currentInputStreamBufferId) s o t)
      (internalFreeObjIds vm (rest objIds)) := by
  apply (recorded_exists (fun _ => rfl) (fun _ _ => rfl) fun _ _ => rfl).internalFreeObjIds
  intro objId _ _ t ht
  rw [ends_objectFree]
  exact ⟨fun _ => ht, fun m _ => ⟨fun _ => ht, fun _ => ht⟩⟩

/-- The field of the stream buffer is not cleared. -/
lemma ends_open_of_makes {fileBuffer : List UInt8} (h : vm.Makes s .buffer) :
    Ends (videoDecoderOpenVideoStream vm (some fileBuffer)) s (fun _ t => ¬ LeftAsBefore s t)
      fun _ t => ¬ LeftAsBefore s t := by
  have hrecorded : Recorded fun t => ∃ o, HeldFirst (·.currentInputStreamBufferId) s o t :=
    HeldFirst.recorded_exists (fun _ => rfl) (fun _ _ => rfl) fun _ _ => rfl
  have hends : Ends (videoDecoderOpenVideoStream vm (some fileBuffer)) s
      (fun _ t => ∃ o, HeldFirst (·.currentInputStreamBufferId) s o t)
      fun _ t => ∃ o, HeldFirst (·.currentInputStreamBufferId) s o t := by
    apply hrecorded.ends_videoDecoderOpenVideoStream
    · refine (ends_make_of_makes h).imp ?_ fun _ _ hf => hf.elim
      rintro objId t ⟨o, -, -, rfl, rfl⟩
      exact ⟨o, MadeFirst.self, rfl⟩
    · intro bufferId t ht
      exact (hrecorded.make _ _ t ht).imp (fun _ _ hu => hu) fun _ _ hu => hu
    · intro inputStreamId t ht
      exact (hrecorded.make _ _ t ht).imp (fun _ _ hu => hu) fun _ _ hu => hu
    · intro t _
      exact HeldFirst.internalFreeObjIds _
    · intro t _
      exact HeldFirst.internalFreeObjIds _
  have hnot : ∀ t, (∃ o, HeldFirst (·.currentInputStreamBufferId) s o t) → ¬ LeftAsBefore s t := by
    rintro t ⟨o, ho, hfield⟩ hleft
    exact hleft.current o ho.mem (.inr (.inl hfield))
  exact hends.imp (fun _ t ht => hnot t ht) fun _ t ht => hnot t ht

/-- The field of the builder is not cleared. -/
lemma ends_begin_of_makes {width height delay : ℤ} (hnone : ¬ isValidObj s.currentGifBuilderId)
    (h : vm.Makes s .gifBuilder) :
    Ends (gifEncoderBegin vm width height delay) s (fun _ t => ¬ LeftAsBefore s t)
      fun _ t => ¬ LeftAsBefore s t := by
  rw [gifEncoderBegin, ends_get_bind, ends_assert_bind]
  refine ⟨fun _ => ?_, fun hactive => (hactive (by simpa using hnone)).elim⟩
  refine ends_of_makes (I := HeldFirst (·.currentGifBuilderId) s) h ?_ ?_
  · intro o ho
    have hrecorded : Recorded (HeldFirst (·.currentGifBuilderId) s o) :=
      HeldFirst.recorded (fun _ => rfl) (fun _ _ => rfl) fun _ _ => rfl
    refine (?_ : Preserves (HeldFirst (·.currentGifBuilderId) s o) _)
      ({ s.add o with currentGifBuilderId := o.objId } : Instance) ⟨MadeFirst.self, rfl⟩
    apply Preserves.get_bind
    intro s₁ _
    apply Preserves.ite <;> intro _
    · exact Preserves.pure
    apply Preserves.get_bind
    intro s₂ _
    apply Preserves.bind (hrecorded.internalAddObjIds _)
    intro _
    apply Preserves.bind (Recorded.assert _ _)
    intro _
    apply Preserves.bind (Recorded.assert _ _)
    intro _
    refine Preserves.modify_bind (fun _ ht => ht) ?_
    exact Preserves.pure
  · intro o t ht hleft
    exact hleft.current o ht.1.mem (.inl ht.2)

/-- A failed call leaves the instance as it was exactly when its first VM call made nothing. -/
theorem leftAsBefore_iff (vm : Vm) (s : Instance) (c : Opening) :
    Fails (c.call vm) s → (LeftAsBefore s (after (c.call vm) s) ↔ ¬ c.MakesFirst vm s) := by
  intro _
  constructor
  · intro hleft hmakes
    revert hleft
    match c, hmakes with
    | .imageLoadFromFileBuffer (some fileBuffer), ⟨_, hbuffer⟩ =>
      have h := @ends_imageLoad_of_makes vm s fileBuffer hbuffer
      exact (ends_map.mpr h).after
    | .videoDecoderOpenVideoStream (some fileBuffer), ⟨_, hbuffer⟩ =>
      exact (ends_open_of_makes hbuffer).after
    | .gifEncoderBegin width height delay, ⟨hnone, hbuilder⟩ =>
      exact (ends_begin_of_makes hnone hbuilder).after
  · intro h
    exact (leftAsBefore_of_not_makesFirst h).after

/-- A module that makes the first `n` objects it is asked for and refuses from then on. -/
def Vm.refusingAfter (n : ℕ) : Vm :=
  { Vm.obliging with
    create := fun call => if call < n then Vm.obliging.create call else .refuses }

/-- The buffer is refused. -/
theorem leftAsBefore_refusing :
    LeftAsBefore initialised (after
      (Opening.call (.refusingAfter 0) (.imageLoadFromFileBuffer (some [0]))) initialised) := by
  have hfails : Fails
      (Opening.call (.refusingAfter 0) (.imageLoadFromFileBuffer (some [0]))) initialised := rfl
  refine (leftAsBefore_iff _ _ _ hfails).mpr ?_
  rintro ⟨-, m, identifier, generation, -, hcreate, -⟩
  cases hcreate

/-- The image is refused when its buffer is there. -/
theorem not_leftAsBefore :
    ¬ ∀ (vm : Vm) (s : Instance) (c : Opening),
      Fails (c.call vm) s → LeftAsBefore s (after (c.call vm) s) := by
  intro h
  have hfreed := (h (.refusingAfter 1) initialised (.imageLoadFromFileBuffer (some [0])) rfl).freed
  revert hfreed
  decide

end GifTools.Web
