import GifTools.Bindings.Exports
import GifTools.Storage.Lookup

/-!
# Calls with ids that designate nothing

An id may be 0, stale, or the id of an object of another type; the lookup then returns null. Most
exported functions test for that, or call a function that does. Those that do not dereference null.
-/

namespace GifTools

namespace Call

/-- The ids the call looks up, with the types their objects should be of; `none` is any type. -/
def ids : Call → List (Option ManagedClass × BitVec 32)
  | .objectFree id => [(none, id)]
  | .bufferMutableData id | .bufferData id | .bufferSize id | .bufferResize id _
  | .bufferReserve id _ | .bufferFree id | .bufferZeroTerminated id | .bufferEmpty id
  | .bufferToStringBase64 id | .bufferFromStringBase64 id | .bufferToUint8Array id
  | .imageLoadFromBuffer id | .ffmpegInputStreamLoadFromBuffer id => [(some .buffer, id)]
  | .imageWidth id | .imageHeight id | .imageFormat id | .imageClone id
  | .imageResizeOrClone id _ _ | .imageExportToPngFileMemory id => [(some .image, id)]
  | .gifBuilderAddImage id imageId _ _ => [(some .gifBuilder, id), (some .image, imageId)]
  | .gifBuilderFinalize id => [(some .gifBuilder, id)]
  | .ffmpegVideoStreamOpen id _ => [(some .ffmpegInputStream, id)]
  | .ffmpegVideoStreamWidth id | .ffmpegVideoStreamHeight id
  | .ffmpegVideoStreamDurationSeconds id | .ffmpegVideoStreamFrameDurationSeconds id
  | .ffmpegVideoStreamPrepareAllFrames id _ | .ffmpegVideoStreamPrepareFrames id _ _
  | .ffmpegVideoStreamPickBestFrame id _ _ | .ffmpegVideoStreamPickBestPreparedFrame id _
  | .ffmpegVideoStreamClearPreparedFrames id | .ffmpegVideoStreamClose id =>
    [(some .ffmpegVideoStream, id)]
  | .ffmpegVideoFrameTimeSeconds id | .ffmpegVideoFrameImage id => [(some .ffmpegVideoFrame, id)]
  | .bufferWithSize _ | .bufferCopyFromMemory _ _ | .bufferFromUint8Array _
  | .imageLoadFromFileBuffer _ _ | .gifBuilderInitialize _ _ _ _ => []

/-- The value that stands for no result. -/
def invalid : Call → Value
  | .objectFree _ | .bufferResize _ _ | .bufferReserve _ _ | .bufferFree _
  | .ffmpegVideoStreamClearPreparedFrames _ | .ffmpegVideoStreamClose _ => .void
  | .bufferMutableData _ | .bufferData _ | .bufferToUint8Array _ => .data none
  | .bufferZeroTerminated _ | .bufferEmpty _ | .gifBuilderAddImage _ _ _ _ => .bool false
  | .ffmpegVideoStreamDurationSeconds _ | .ffmpegVideoStreamFrameDurationSeconds _
  | .ffmpegVideoFrameTimeSeconds _ => .seconds 0
  | _ => .int 0

/-- The call uses the pointer it looked up without a test. -/
def Unguarded : Call → Prop
  | .bufferResize _ value | .bufferReserve _ value => 0 ≤ value.toInt
  | .bufferToStringBase64 _ | .bufferFromStringBase64 _ | .bufferToUint8Array _
  | .imageWidth _ | .imageHeight _ | .imageFormat _ | .ffmpegInputStreamLoadFromBuffer _
  | .ffmpegVideoFrameImage _ => True
  | _ => False

end Call

namespace Memory

variable (mem : Memory)

/-- The lookup of an id. -/
def lookup : Option ManagedClass × BitVec 32 → Except Fault (Option Addr)
  | (none, id) => mem.storage.get id
  | (some T, id) => mem.storage.getAs T id

/-- It is the id of a live object of the type. -/
def Designates (x : Option ManagedClass × BitVec 32) : Prop :=
  ∃ a obj, mem.storage.heap a = some obj ∧ obj.mObjId.composite = x.2 ∧
    ∀ T, x.1 = some T → obj.cls = T

/-- Some id of the call is not that of a live object of its type. -/
def HasBadId (call : Call) : Prop := ∃ x ∈ call.ids, ¬ mem.Designates x

end Memory

namespace Bindings

open Binding

variable (stb : Stb) (mem : Memory) (call : Call)

/-- With a bad id the call returns its invalid value and changes nothing, and
`bufferZeroTerminated` reads no element of an empty buffer. -/
structure RefusesBadIds : Prop where
  refuses : mem.HasBadId call → (exec stb call).run mem = .ok call.invalid mem
  nonEmpty : ∀ id, call = .bufferZeroTerminated id →
    ∀ mem', (exec stb call).run mem ≠ .error .emptyBack mem'

/-- With a bad id it is a call that tests the pointers it looks up, and all its lookups return; a
buffer that is asked for its last byte has one. -/
structure ChecksIds : Prop where
  guarded : mem.HasBadId call → ¬ call.Unguarded ∧ ∀ x ∈ call.ids, ∃ r, mem.lookup x = .ok r
  contents : ∀ id a, call = .bufferZeroTerminated id →
    mem.storage.getAs .buffer id = .ok (some a) → mem.contents a ≠ []

/-! ### Lookups in a function -/

section

variable {stb : Stb} {mem : Memory} {T : ManagedClass} {id : BitVec 32} {A : Type}
  {k : Option Addr → Binding A}

/-- The call that runs is a lookup and what follows it. -/
lemma refuses_of_find {v : A} (h : mem.storage.getAs T id = .ok none) (hk : k none = pure v) :
    (find T id >>= k).run mem = .ok v mem := by
  rw [run_find_bind h, hk]
  rfl

/-- Null is dereferenced, whatever is done before. -/
lemma run_bind_nonNull_none_ne {B : Type} {m : Binding A} {f : A → Addr → Binding B} {v : B}
    {mem' : Memory} : (m >>= fun a => nonNull none >>= f a).run mem ≠ .ok v mem' := by
  rw [EStateM.run_bind]
  cases hm : m.run mem with
  | ok a mem₁ =>
    intro h
    cases h
  | error trap mem₁ =>
    intro h
    cases h

lemma run_objectFree_of_null (h : mem.storage.get id = .ok none) :
    (objectFree id).run mem = .ok .void mem := by
  rw [run_objectFree, ManagedObjStorage.objectFree_of_get_none h]

lemma run_objectFree_of_error {fault : Fault} (h : mem.storage.get id = .error fault) :
    (objectFree id).run mem = .error (.storage fault) mem := by
  have hfree : mem.storage.objectFree id = .error fault := Runs.bind_error.mpr (.inl h)
  rw [run_objectFree, hfree]

end

variable {stb mem call}

/-! ### Functions that test their pointers -/

lemma run_gifBuilderAddImage_of_null {id imageId delay : BitVec 32} {env : Uninit}
    {r r' : Option Addr} (hbuilder : mem.storage.getAs .gifBuilder id = .ok r)
    (himage : mem.storage.getAs .image imageId = .ok r') (hnull : r = none ∨ r' = none) :
    (gifBuilderAddImage id imageId delay env).run mem = .ok (.bool false) mem := by
  refine (run_find_bind hbuilder).trans ((run_find_bind himage).trans ?_)
  cases r with
  | none => rfl
  | some a =>
    obtain rfl := hnull.resolve_left (Option.some_ne_none a)
    change EStateM.Result.ok (Value.bool false) { mem with
      gifBuilders := Function.update mem.gifBuilders a (mem.gifBuilders a) } = _
    rw [Function.update_eq_self]

/-- A call that tests its pointers, when its lookups return and one of them returns null. -/
lemma exec_of_null (hguard : ¬ call.Unguarded) (hret : ∀ x ∈ call.ids, ∃ r, mem.lookup x = .ok r)
    (hnull : ∃ x ∈ call.ids, mem.lookup x = .ok none) :
    (exec stb call).run mem = .ok call.invalid mem := by
  obtain ⟨x, hx, hnull⟩ := hnull
  cases call
  case bufferWithSize | bufferCopyFromMemory | bufferFromUint8Array | imageLoadFromFileBuffer
      | gifBuilderInitialize => cases hx
  case bufferToStringBase64 | bufferFromStringBase64 | bufferToUint8Array | imageWidth
      | imageHeight | imageFormat | ffmpegInputStreamLoadFromBuffer | ffmpegVideoFrameImage =>
    exact absurd trivial hguard
  case gifBuilderAddImage id imageId delay env =>
    obtain ⟨r, hr⟩ := hret (some .gifBuilder, id) (by simp [Call.ids])
    obtain ⟨r', hr'⟩ := hret (some .image, imageId) (by simp [Call.ids])
    apply run_gifBuilderAddImage_of_null hr hr'
    rcases List.mem_pair.mp hx with rfl | rfl
    · rw [hr] at hnull
      cases hnull
      exact .inl rfl
    · rw [hr'] at hnull
      cases hnull
      exact .inr rfl
  case bufferResize id value | bufferReserve id value =>
    cases List.mem_singleton.mp hx
    exact refuses_of_find hnull (if_neg hguard)
  case objectFree id =>
    cases List.mem_singleton.mp hx
    exact run_objectFree_of_null hnull
  all_goals
    cases List.mem_singleton.mp hx
    exact refuses_of_find hnull rfl

/-! ### Functions that do not -/

/-- A call that does not test its pointer traps, when the lookup returns null. -/
lemma exec_unguarded_ne (hguard : call.Unguarded) (hnull : ∃ x ∈ call.ids, mem.lookup x = .ok none)
    {v : Value} {mem' : Memory} : (exec stb call).run mem ≠ .ok v mem' := by
  obtain ⟨x, hx, hnull⟩ := hnull
  intro h
  cases call
  case bufferResize id value | bufferReserve id value =>
    cases List.mem_singleton.mp hx
    have hrun := (run_find_bind hnull).symm.trans h
    rw [if_pos (show 0 ≤ value.toInt from hguard)] at hrun
    cases hrun
  case ffmpegInputStreamLoadFromBuffer id =>
    cases List.mem_singleton.mp hx
    have hrun := (run_find_bind hnull).symm.trans h
    rw [EStateM.run_bind] at hrun
    cases hload : (Objects.ffmpegInputStreamLoadFromBuffer none).run mem with
    | ok r mem₁ => exact run_bind_nonNull_none_ne hload
    | error trap mem₁ =>
      rw [hload] at hrun
      cases hrun
  case bufferToStringBase64 id | bufferFromStringBase64 id | bufferToUint8Array id | imageWidth id
      | imageHeight id | imageFormat id | ffmpegVideoFrameImage id =>
    cases List.mem_singleton.mp hx
    cases (run_find_bind hnull).symm.trans h
  all_goals exact hguard

/-- A call that returns has looked up all its ids. -/
lemma lookups_return {v : Value} {mem' : Memory} (h : (exec stb call).run mem = .ok v mem') :
    ∀ x ∈ call.ids, ∃ r, mem.lookup x = .ok r := by
  intro x hx
  cases hlookup : mem.lookup x with
  | ok r => exact ⟨r, rfl⟩
  | error fault =>
    exfalso
    cases call
    case bufferWithSize | bufferCopyFromMemory | bufferFromUint8Array | imageLoadFromFileBuffer
        | gifBuilderInitialize => cases hx
    case gifBuilderAddImage id imageId delay env =>
      cases hbuilder : mem.storage.getAs .gifBuilder id with
      | error fault => cases (run_find_bind_error hbuilder).symm.trans h
      | ok r =>
        rcases List.mem_pair.mp hx with rfl | rfl
        · cases hbuilder.symm.trans hlookup
        · have hrun := (run_find_bind hbuilder).symm.trans h
          cases (run_find_bind_error hlookup).symm.trans hrun
    case objectFree id =>
      cases List.mem_singleton.mp hx
      cases (run_objectFree_of_error hlookup).symm.trans h
    all_goals
      cases List.mem_singleton.mp hx
      cases (run_find_bind_error hlookup).symm.trans h

/-! ### The last byte of a buffer -/

lemma run_bufferZeroTerminated {id : BitVec 32} {a : Addr}
    (h : mem.storage.getAs .buffer id = .ok (some a)) :
    (bufferZeroTerminated id).run mem =
      match (mem.contents a).getLast? with
      | none => .error .emptyBack mem
      | some back => .ok (.bool (back == 0)) mem := by
  refine (run_find_bind h).trans ?_
  change (match (mem.contents a).getLast? with
    | none => throw Trap.emptyBack
    | some back => pure (Value.bool (back == 0)) : Binding Value).run mem = _
  cases (mem.contents a).getLast? <;> rfl

lemma bufferZeroTerminated_ne_emptyBack_iff {id : BitVec 32} :
    (∀ mem', (bufferZeroTerminated id).run mem ≠ .error .emptyBack mem') ↔
      ∀ a, mem.storage.getAs .buffer id = .ok (some a) → mem.contents a ≠ [] := by
  constructor
  · intro h a hget hempty
    apply h mem
    rw [run_bufferZeroTerminated hget, hempty]
    rfl
  · intro h mem' hrun
    cases hget : mem.storage.getAs .buffer id with
    | error fault => cases (run_find_bind_error hget).symm.trans hrun
    | ok r =>
      cases r with
      | none => cases (run_find_bind hget).symm.trans hrun
      | some a =>
        rw [run_bufferZeroTerminated hget] at hrun
        cases hlast : (mem.contents a).getLast? with
        | none => exact h a hget (List.getLast?_eq_none_iff.mp hlast)
        | some back =>
          rw [hlast] at hrun
          cases hrun

/-! ### Which calls refuse bad ids -/

/-- The lookup is taken to return null for an id that designates nothing. -/
theorem refusesBadIds_iff
    (hget : ∀ x ∈ call.ids, ¬ mem.Designates x → mem.lookup x = .ok none) :
    RefusesBadIds stb mem call ↔ ChecksIds mem call := by
  have hnull : mem.HasBadId call → ∃ x ∈ call.ids, mem.lookup x = .ok none := by
    rintro ⟨x, hx, hbad⟩
    exact ⟨x, hx, hget x hx hbad⟩
  constructor
  · intro h
    refine ⟨fun hbad => ⟨fun hguard => ?_, lookups_return (h.refuses hbad)⟩, ?_⟩
    · exact exec_unguarded_ne hguard (hnull hbad) (h.refuses hbad)
    · rintro id a rfl
      exact bufferZeroTerminated_ne_emptyBack_iff.mp (h.nonEmpty id rfl) a
  · intro h
    refine ⟨fun hbad => ?_, ?_⟩
    · obtain ⟨hguard, hret⟩ := h.guarded hbad
      exact exec_of_null hguard hret (hnull hbad)
    · rintro id rfl
      exact bufferZeroTerminated_ne_emptyBack_iff.mpr fun a => h.contents id a rfl

open Runs

/-- The memory in which one buffer exists. -/
def OneBuffer (mem : Memory) : Prop := run (step Stb.none) .init [.bufferWithSize 1] = .ok mem

lemma exists_oneBuffer : ∃ mem, OneBuffer mem ∧ mem.lookup (some .image, 0) = .ok none ∧
    ¬ mem.Designates (some .image, 0) := by
  obtain ⟨mem, hmem, hlookup, hmake⟩ : ∃ mem, OneBuffer mem ∧
      mem.lookup (some .image, 0) = .ok none ∧
        ManagedObjStorage.init.make .buffer = .ok (mem.storage, some 0) := ⟨_, rfl, rfl, rfl⟩
  refine ⟨mem, hmem, hlookup, ?_⟩
  obtain ⟨st, p, i, -, hst, hmade⟩ :=
    ManagedObjStorage.make_spec ManagedObjStorage.wf_init.counted .buffer
  cases hmake.symm.trans hst
  rintro ⟨a, obj, hobj, -, hcls⟩
  by_cases ha : a = 0
  · rw [ha] at hobj
    cases hobj.symm.trans hmade.heap
    cases hcls .image rfl
  · rw [hmade.heap_others ha] at hobj
    cases hobj

/-- The id 0, when one buffer exists. -/
theorem refusesBadIds_iff_imageWidth :
    ∃ mem, OneBuffer mem ∧
      (RefusesBadIds Stb.none mem (.imageWidth 0) ↔ ChecksIds mem (.imageWidth 0)) := by
  obtain ⟨mem, hmem, hlookup, -⟩ := exists_oneBuffer
  refine ⟨mem, hmem, refusesBadIds_iff ?_⟩
  intro x hx _
  cases List.mem_singleton.mp hx
  exact hlookup

/-- There `imageWidth` of the id 0 traps, though the lookup returns null. -/
theorem not_refusesBadIds :
    ¬ ∀ (stb : Stb) (calls : List Call) (mem : Memory) (call : Call),
      run (step stb) .init calls = .ok mem →
        (∀ x ∈ call.ids, ¬ mem.Designates x → mem.lookup x = .ok none) →
          RefusesBadIds stb mem call := by
  intro h
  obtain ⟨mem, hmem, hlookup, hbad⟩ := exists_oneBuffer
  have hrefuses := h Stb.none [.bufferWithSize 1] mem (.imageWidth 0) hmem (by
    intro x hx _
    cases List.mem_singleton.mp hx
    exact hlookup)
  have hguard : (Call.imageWidth 0).Unguarded := trivial
  exact exec_unguarded_ne hguard ⟨_, List.mem_singleton_self _, hlookup⟩
    (hrefuses.refuses ⟨_, List.mem_singleton_self _, hbad⟩)

end Bindings

end GifTools
