import GifTools.Web.Effects

/-!
# The current video stream

The decoder methods guard themselves with `isValidObj(currentVideoStreamId)`. The guard is right as
long as the field holds the id of a live stream whenever it holds a valid id at all. Opening,
picking and freeing frames keep it so, failing or not; `videoDecoderCloseVideoStream` frees the
stream and does not clear the field, and does not free the source buffer either.
-/

namespace GifTools.Web

open Throws Runs

/-- A live object is the video stream that the decoder methods use. -/
def Instance.IsCurrentStream (s : Instance) (o : VmObject) : Prop :=
  s.vm = some o.vm ∧ o.objId = s.currentVideoStreamId ∧ o.cls = .ffmpegVideoStream

instance (s : Instance) : DecidablePred s.IsCurrentStream :=
  fun o => inferInstanceAs (Decidable (s.vm = some o.vm ∧ o.objId = s.currentVideoStreamId ∧
    o.cls = .ffmpegVideoStream))

/-- The validity check passes exactly when a stream is live under the id it checks. -/
def GuardRight (s : Instance) : Prop :=
  isValidObj s.currentVideoStreamId ↔ ∃ o ∈ s.live, s.IsCurrentStream o

/-- The calls that open, use and close the video stream. -/
inductive DecoderOp where
  | openVideoStream (fileBuffer : Option (List UInt8))
  | pickClosestPreparedVideoFrame (durationSeconds : ℚ)
  | pickClosestVideoFrame (durationSeconds : ℚ)
  | freeVideoFrame (frame : Option GifToolsVideoFrame)
  | closeVideoStream

def DecoderOp.op : DecoderOp → Op
  | .openVideoStream fileBuffer => .videoDecoderOpenVideoStream fileBuffer
  | .pickClosestPreparedVideoFrame durationSeconds =>
    .videoDecoderPickClosestPreparedVideoFrame durationSeconds
  | .pickClosestVideoFrame durationSeconds => .videoDecoderPickClosestVideoFrame durationSeconds
  | .freeVideoFrame frame => .videoDecoderFreeVideoFrame frame
  | .closeVideoStream => .videoDecoderCloseVideoStream

def decoderStep (vm : Vm) (s : Instance) (op : DecoderOp) : Except JsError Instance :=
  step vm s op.op

/-- Closing a valid stream frees it and all that it was made from. -/
def CloseFrees (vm : Vm) (s : Instance) : DecoderOp → Prop
  | .closeVideoStream =>
    isValidObj s.currentVideoStreamId → ∀ o ∈ s.live, s.IsCurrentStream o →
      ∀ o' ∈ (after (videoDecoderCloseVideoStream vm) s).live, o'.call ∉ o.call :: o.sources
  | _ => True

/-- The call does not free the current stream: it is no close of it, and no frame that is freed
has its id (or the VM traps). -/
def LeavesStream (vm : Vm) (s : Instance) : DecoderOp → Prop
  | .closeVideoStream => ¬ isValidObj s.currentVideoStreamId
  | .freeVideoFrame (some frame) =>
    isValidObj s.currentVideoStreamId → frame.frameId = s.currentVideoStreamId → ¬ vm.frees s.calls
  | _ => True

/-! ### The invariant -/

/-- An id that no video stream has. -/
def NoStreamId (objId : ℤ) : Prop :=
  ∀ identifier generation, objId ≠ newObjId .ffmpegVideoStream identifier generation

/-- Ids show the class of the object, a valid current id is the id of a live stream, and the two
other fields never hold the id of one. -/
structure StreamKept (s : Instance) : Prop where
  typed : ∀ o ∈ s.live, ∃ identifier generation, o.objId = newObjId o.cls identifier generation
  current : 0 < s.currentVideoStreamId → ∃ o ∈ s.live, s.IsCurrentStream o
  bufferId : NoStreamId s.currentInputStreamBufferId
  inputStreamId : NoStreamId s.currentInputStreamId

lemma noStreamId_zero : NoStreamId 0 := by
  intro identifier generation h
  have hpos := newObjId_pos .ffmpegVideoStream identifier generation
  omega

lemma newObjId_inj {T U : ManagedClass} {i j : BitVec 20} {g k : BitVec 8}
    (h : newObjId T i g = newObjId U j k) : T = U := by
  have hid := ManagedObjId.composite_injective (BitVec.eq_of_toInt_eq h)
  have htype : typeNibble T = typeNibble U := congrArg ManagedObjId.type hid
  apply managedType_injective
  rw [← setWidth_typeNibble T, htype, setWidth_typeNibble]

lemma noStreamId_of_ne {T : ManagedClass} (h : T ≠ .ffmpegVideoStream) (i : BitVec 20)
    (g : BitVec 8) : NoStreamId (newObjId T i g) :=
  fun _ _ heq => h (newObjId_inj heq)

namespace StreamKept

variable {vm : Vm} {s : Instance}

lemma initialised : StreamKept initialised where
  typed := by simp [Web.initialised]
  current := by simp [Web.initialised]
  bufferId := noStreamId_zero
  inputStreamId := noStreamId_zero

lemma guardRight (h : StreamKept s) : GuardRight s := by
  rw [GuardRight, isValidObj_iff]
  refine ⟨h.current, ?_⟩
  rintro ⟨o, ho, -, hid, -⟩
  obtain ⟨i, g, htyped⟩ := h.typed o ho
  rw [← hid, htyped]
  exact newObjId_pos o.cls i g

lemma recorded : Recorded StreamKept where
  called _ h := ⟨h.typed, h.current, h.bufferId, h.inputStreamId⟩
  add s o h ho := by
    refine ⟨?_, ?_, h.bufferId, h.inputStreamId⟩
    · intro o' ho'
      rcases List.mem_append.mp ho' with hlive | hnew
      · exact h.typed o' hlive
      · obtain rfl : o' = o := by simpa using hnew
        exact ho.objId
    · intro hvalid
      obtain ⟨o', ho', hcurrent⟩ := h.current hvalid
      exact ⟨o', List.mem_append_left _ ho', hcurrent⟩
  vmObjIds _ _ h := ⟨h.typed, h.current, h.bufferId, h.inputStreamId⟩

/-- Freeing an object that is not the current stream, or trapping. -/
lemma ends_objectFree {objId : ℤ} (h : StreamKept s)
    (hne : 0 < s.currentVideoStreamId → objId = s.currentVideoStreamId → ¬ vm.frees s.calls) :
    Ends (vm.objectFree objId) s (fun _ => StreamKept) fun _ => StreamKept := by
  rw [Web.ends_objectFree]
  refine ⟨fun _ => h, fun m hm => ⟨fun hfrees => ?_, fun _ => ?_⟩⟩
  · refine ⟨?_, ?_, h.bufferId, h.inputStreamId⟩
    · intro o ho
      exact h.typed o (List.mem_filter.mp ho).1
    · intro hvalid
      obtain ⟨o, ho, hcurrent⟩ := h.current hvalid
      refine ⟨o, List.mem_filter.mpr ⟨ho, ?_⟩, hcurrent⟩
      have hid : ¬ o.IsAt m objId := by
        rintro ⟨-, hid⟩
        exact hne hvalid (hid.symm.trans hcurrent.2.1) hfrees
      simpa using hid
  · exact ⟨h.typed, h.current, h.bufferId, h.inputStreamId⟩

/-- An id that no stream has is not the current one. -/
lemma objectFree {objId : ℤ} (h : NoStreamId objId) :
    Preserves StreamKept (vm.objectFree objId) := by
  intro s hs
  refine hs.ends_objectFree ?_
  intro hvalid heq
  obtain ⟨o, ho, -, hid, hcls⟩ := hs.current hvalid
  obtain ⟨i, g, htyped⟩ := hs.typed o ho
  rw [hcls] at htyped
  exact (h i g (heq.trans (hid.symm.trans htyped))).elim

lemma internalFreeObjIds {objId : ℤ} (h : NoStreamId objId) :
    Preserves StreamKept (internalFreeObjIds vm (rest [objId])) := by
  apply recorded.internalFreeObjIds
  intro objId' hmem _
  obtain rfl : objId' = objId := by simpa using hmem
  exact objectFree h

/-- A call that makes no stream returns no id of one. -/
lemma make {T : ManagedClass} (h : T ≠ .ffmpegVideoStream) (source : Option ℤ)
    (hs : StreamKept s) :
    Ends (vm.make T source) s (fun objId t => NoStreamId objId ∧ StreamKept t)
      fun _ => StreamKept := by
  refine ends_make.imp ?_ ?_
  · rintro objId t (⟨rfl, rfl⟩ | ⟨o, ho, hcls, rfl, rfl⟩)
    · exact ⟨noStreamId_zero, recorded.called s hs⟩
    · obtain ⟨i, g, htyped⟩ := ho.objId
      rw [htyped, hcls]
      exact ⟨noStreamId_of_ne h i g, recorded.add s o hs ho⟩
  · rintro e t (rfl | rfl)
    · exact hs
    · exact recorded.called s hs

/-- The field of the current stream is set to what `ffmpegVideoStreamOpen` returned. -/
lemma ends_ffmpegVideoStreamOpen (inputStreamId : ℤ) (hs : StreamKept s) :
    Ends (vm.ffmpegVideoStreamOpen inputStreamId) s
      (fun objId t => StreamKept { t with currentVideoStreamId := objId })
      fun _ => StreamKept := by
  refine ends_make.imp ?_ ?_
  · rintro objId t (⟨rfl, rfl⟩ | ⟨o, ho, hcls, rfl, rfl⟩)
    · refine ⟨hs.typed, ?_, hs.bufferId, hs.inputStreamId⟩
      intro hvalid
      exact (lt_irrefl _ hvalid).elim
    · have hadd := recorded.add s o hs ho
      refine ⟨hadd.typed, ?_, hadd.bufferId, hadd.inputStreamId⟩
      intro _
      exact ⟨o, List.mem_append_right _ (by simp), ho.vm, rfl, hcls⟩
  · rintro e t (rfl | rfl)
    · exact hs
    · exact recorded.called s hs

lemma videoDecoderOpenVideoStream (fileBuffer : Option (List UInt8)) :
    Preserves StreamKept (videoDecoderOpenVideoStream vm fileBuffer) := by
  cases fileBuffer with
  | none => exact Preserves.pure
  | some fileBuffer =>
    intro s hs
    apply recorded.ends_videoDecoderOpenVideoStream
    · refine (make (by decide) _ hs).imp ?_ fun _ _ ht => ht
      rintro bufferId t ⟨hbufferId, ht⟩
      exact ⟨ht.typed, ht.current, hbufferId, ht.inputStreamId⟩
    · intro bufferId t ht
      refine (make (by decide) _ ht).imp ?_ fun _ _ ht => ht
      rintro inputStreamId t ⟨hinputStreamId, ht⟩
      exact ⟨ht.typed, ht.current, ht.bufferId, hinputStreamId⟩
    · intro inputStreamId t ht
      exact ends_ffmpegVideoStreamOpen inputStreamId ht
    · intro t ht
      exact internalFreeObjIds ht.bufferId
    · intro t ht
      exact internalFreeObjIds ht.inputStreamId

end StreamKept

/-! ### Freeing one id -/

section Free

variable {vm : Vm} {s : Instance} {Q : PUnit → Instance → Prop} {X : JsError → Instance → Prop}

lemma ends_internalFreeObjIds_cons {objId : ℤ} {objIds : List ℤ} :
    Ends (internalFreeObjIds vm (rest (objId :: objIds))) s Q X ↔
      (¬ 0 < objId → Ends (internalFreeObjIds vm (rest objIds)) s Q X) ∧
      (0 < objId → Ends (vm.objectFree objId) { s with vmObjIds := s.vmObjIds.erase objId }
        (fun _ t => Ends (internalFreeObjIds vm (rest objIds)) t Q X) X) := by
  change Ends ((if ¬ isValidObj objId then pure () else _) >>= fun _ => _) s Q X ↔ _
  rw [ends_bind, ends_ite, isValidObj_iff, not_not, ends_bind]
  exact Iff.rfl

end Free

/-- Freeing a frame whose id is that of the current stream frees the stream. -/
lemma StreamKept.freeVideoFrame {vm : Vm} {s : Instance} (h : StreamKept s)
    {frame : Option GifToolsVideoFrame} (hleaves : LeavesStream vm s (.freeVideoFrame frame)) :
    Ends (videoDecoderFreeVideoFrame vm frame) s (fun _ => StreamKept) fun _ => StreamKept := by
  cases frame with
  | none => exact h
  | some frame =>
    unfold videoDecoderFreeVideoFrame
    rw [ends_get_bind, ends_assert_bind, ends_internalFreeObjIds_cons]
    refine ⟨fun hvalid => ⟨fun _ => h, fun _ => ?_⟩, fun _ => h⟩
    have herase := recorded.vmObjIds s (s.vmObjIds.erase frame.frameId) h
    exact herase.ends_objectFree fun _ heq => hleaves hvalid heq

/-- The calls that leave the stream keep the invariant. -/
lemma StreamKept.call {vm : Vm} {s : Instance} (h : StreamKept s) {op : DecoderOp}
    (hleaves : LeavesStream vm s op) : StreamKept (after (op.op.call vm) s) := by
  cases op with
  | openVideoStream fileBuffer => exact (videoDecoderOpenVideoStream fileBuffer).map.after h
  | pickClosestPreparedVideoFrame durationSeconds =>
    exact (recorded.videoDecoderPick durationSeconds fun _ _ => recorded.make _ _).map.after h
  | pickClosestVideoFrame durationSeconds =>
    exact (recorded.videoDecoderPick durationSeconds fun _ _ => recorded.make _ _).map.after h
  | freeVideoFrame frame => exact (h.freeVideoFrame hleaves).after
  | closeVideoStream =>
    have hends : Ends (videoDecoderCloseVideoStream vm) s (fun _ => StreamKept)
        fun _ => StreamKept := by
      unfold videoDecoderCloseVideoStream
      rw [ends_get_bind, ends_assert_bind]
      exact ⟨fun hvalid => (hleaves hvalid).elim, fun _ => h⟩
    exact hends.after

/-! ### Freeing the current stream -/

section FreeCurrent

variable {vm : Vm} {s : Instance} {v : VmObject}

/-- The field stays valid when the stream is freed. -/
lemma not_guardRight_freed (hvalid : 0 < s.currentVideoStreamId) {m : ℕ} (hm : s.vm = some m) :
    ¬ GuardRight (s.freed m s.currentVideoStreamId) := by
  intro hguard
  obtain ⟨o, ho, hvm, hid, -⟩ := hguard.mp (isValidObj_iff.mpr hvalid)
  obtain ⟨-, hkept⟩ := List.mem_filter.mp ho
  have hat : o.IsAt m s.currentVideoStreamId := ⟨Option.some.inj (hvm.symm.trans hm), hid⟩
  simp [hat] at hkept

lemma ends_objectFree_current (hvalid : 0 < s.currentVideoStreamId) (hv : v ∈ s.live) :
    Ends (vm.objectFree s.currentVideoStreamId) s (fun _ t => ¬ GuardRight t)
      fun _ t => v ∈ t.live := by
  rw [ends_objectFree]
  exact ⟨fun _ => hv, fun m hm => ⟨fun _ => not_guardRight_freed hvalid hm, fun _ => hv⟩⟩

/-- Closing a valid stream leaves it live or leaves its id in the field. -/
lemma ends_close_current (h : StreamKept s) (hvalid : 0 < s.currentVideoStreamId)
    (hv : v ∈ s.live) (hcurrent : s.IsCurrentStream v) :
    Ends (videoDecoderCloseVideoStream vm) s (fun _ t => v ∈ t.live ∨ ¬ GuardRight t)
      fun _ t => v ∈ t.live ∨ ¬ GuardRight t := by
  have hlast (t : Instance) (hcur : t.currentVideoStreamId = s.currentVideoStreamId)
      (hlive : v ∈ t.live) :
      Ends (internalFreeObjIds vm (rest [s.currentVideoStreamId])) t
        (fun _ t => v ∈ t.live ∨ ¬ GuardRight t) fun _ t => v ∈ t.live ∨ ¬ GuardRight t := by
    rw [ends_internalFreeObjIds_cons, ← hcur]
    refine ⟨fun hnot => (hnot (hcur ▸ hvalid)).elim, fun hpos => ?_⟩
    have hends := @ends_objectFree_current vm
      { t with vmObjIds := t.vmObjIds.erase t.currentVideoStreamId } v hpos hlive
    exact hends.imp (fun _ _ hguard => .inr hguard) fun _ _ hstays => .inl hstays
  unfold videoDecoderCloseVideoStream
  rw [ends_get_bind, ends_assert_bind]
  refine ⟨fun _ => ?_, fun _ => .inl hv⟩
  rw [ends_get_bind, ends_internalFreeObjIds_cons]
  refine ⟨fun _ => hlast s rfl hv, fun _ => ?_⟩
  rw [ends_objectFree]
  refine ⟨fun _ => .inl hv, fun m _ => ⟨fun _ => hlast _ rfl ?_, fun _ => .inl hv⟩⟩
  -- the input stream is not the video stream
  refine List.mem_filter.mpr ⟨hv, ?_⟩
  have hat : ¬ v.IsAt m s.currentInputStreamId := by
    rintro ⟨-, hid⟩
    obtain ⟨i, g, htyped⟩ := h.typed v hv
    rw [hcurrent.2.2, hid] at htyped
    exact h.inputStreamId i g htyped
  simpa using hat

lemma ends_freeVideoFrame_current (hvalid : 0 < s.currentVideoStreamId)
    (hcurrent : s.IsCurrentStream v) {frame : GifToolsVideoFrame}
    (hframe : frame.frameId = s.currentVideoStreamId) (hfrees : vm.frees s.calls) :
    Ends (videoDecoderFreeVideoFrame vm (some frame)) s (fun _ t => ¬ GuardRight t)
      fun _ t => ¬ GuardRight t := by
  unfold videoDecoderFreeVideoFrame
  rw [ends_get_bind, ends_assert_bind, ends_internalFreeObjIds_cons, ends_objectFree, hframe]
  refine ⟨fun _ => ⟨fun hnot => (hnot hvalid).elim, fun _ =>
    ⟨fun hnull => ?_, fun m hm => ⟨?_, ?_⟩⟩⟩,
    fun hnot => (hnot (isValidObj_iff.mpr hvalid)).elim⟩
  · rw [hcurrent.1] at hnull
    cases hnull
  · intro _
    exact not_guardRight_freed (s := { s with vmObjIds := s.vmObjIds.erase _ }) hvalid hm
  · intro hnot
    exact (hnot hfrees).elim

end FreeCurrent

/-- Throughout a run the guard is right and every close frees what it closes, exactly when no call
of the run closes a valid stream or frees it as a frame. -/
theorem guardRight_and_closeFrees_iff (vm : Vm) (ops : List DecoderOp) :
    Throughout (decoderStep vm) GuardRight initialised ops ∧
        Along (decoderStep vm) (CloseFrees vm) initialised ops ↔
      Along (decoderStep vm) (LeavesStream vm) initialised ops := by
  refine throughout_and_along_iff (I := StreamKept) ?_ (fun s h => h.guardRight) ?_ ?_
    StreamKept.initialised
  · intro s op t h hleaves hstep
    cases hstep
    exact h.call hleaves
  · intro s op _ hleaves
    cases op with
    | closeVideoStream => exact fun hvalid => (hleaves hvalid).elim
    | _ => trivial
  · intro s op h hnot
    cases op with
    | closeVideoStream =>
      have hvalid : 0 < s.currentVideoStreamId := by simpa [LeavesStream] using hnot
      obtain ⟨v, hv, hcurrent⟩ := h.current hvalid
      rcases (@ends_close_current vm s v h hvalid hv hcurrent).after with hlive | hguard
      · refine .inl fun hcloses => ?_
        have hcall := hcloses (isValidObj_iff.mpr hvalid) v hv hcurrent v hlive
        simp at hcall
      · exact .inr ⟨_, rfl, hguard⟩
    | freeVideoFrame frame =>
      cases frame with
      | none => exact (hnot trivial).elim
      | some frame =>
        simp only [LeavesStream, Classical.not_imp, not_not, isValidObj_iff] at hnot
        obtain ⟨hvalid, hframe, hfrees⟩ := hnot
        obtain ⟨v, -, hcurrent⟩ := h.current hvalid
        exact .inr ⟨_, rfl, (ends_freeVideoFrame_current hvalid hcurrent hframe hfrees).after⟩
    | openVideoStream fileBuffer => exact (hnot trivial).elim
    | pickClosestPreparedVideoFrame durationSeconds => exact (hnot trivial).elim
    | pickClosestVideoFrame durationSeconds => exact (hnot trivial).elim

/-- A stream is opened and closed. -/
theorem not_guardRight_close :
    ¬ ∀ (vm : Vm) (ops : List DecoderOp),
      Throughout (decoderStep vm) GuardRight initialised ops ∧
        Along (decoderStep vm) (CloseFrees vm) initialised ops := by
  intro h
  have hguard := (h .obliging [.openVideoStream (some [0]), .closeVideoStream]).1.last rfl
  revert hguard
  unfold GuardRight
  decide

end GifTools.Web
