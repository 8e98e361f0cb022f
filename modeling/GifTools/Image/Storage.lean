import Mathlib.Data.List.Perm.Subperm

/-!
# The storage of an image

A `ConcreteImage` is meant to own a buffer it has acquired, through a `unique_ptr` with the
function that frees it, or a vector it has allocated, in a union with a tag. `imageStorageReinit`
does nothing if the tag stays the same, and no function puts the acquired buffer into the
`unique_ptr`: what an image acquires is never released.

`events` is what gives memory back, in this order; the blocks of vectors are numbered.
-/

namespace GifTools

/-- Where a pointer to bytes points. -/
inductive BytePtr where
  | null
  /-- A buffer that was made elsewhere. -/
  | buffer (b : Nat)
  /-- The block of a vector. -/
  | block (n : Nat)
  deriving DecidableEq

inductive StorageEvent (F : Type) where
  /-- `freeFn(buffer)` -/
  | released (freeFn : F) (buffer : Nat)
  /-- A vector gives its block back. -/
  | deallocated (block : Nat)
  deriving DecidableEq

/-- `std::unique_ptr<uint8_t, void (*)(void*)>` -/
structure ImageStoragePtr (F : Type) where
  ptr : Option Nat
  deleter : Option F

/-- `std::vector<uint8_t>` without its elements; one that is empty has no block. -/
structure ByteVector where
  block : Option Nat
  capacity : Nat

inductive ImageStorageType where
  | ptr | vector
  deriving DecidableEq

/-- The member of the union that the tag stands for. -/
inductive ConcreteImageStorage (F : Type) where
  | ptrStorage (ptr : ImageStoragePtr F)
  | vectorStorage (vector : ByteVector)

variable {F : Type}

def ConcreteImageStorage.storageType : ConcreteImageStorage F → ImageStorageType
  | .ptrStorage _ => .ptr
  | .vectorStorage _ => .vector

/-- The pointer starts as null; only its deleter is given. -/
def imageStorageInit (storageType : ImageStorageType) (freeFn : Option F) :
    ConcreteImageStorage F :=
  match storageType with
  | .ptr => .ptrStorage ⟨none, freeFn⟩
  | .vector => .vectorStorage ⟨none, 0⟩

/-- `reset` calls the deleter unless the pointer is null; `swap` gives the block to a vector that
goes out of scope. -/
def imageStorageFinalize : ConcreteImageStorage F → List (StorageEvent F)
  | .ptrStorage ⟨some buffer, some freeFn⟩ => [.released freeFn buffer]
  | .ptrStorage _ => []
  | .vectorStorage vector => (vector.block.map .deallocated).toList

def imageStorageReinit (image : ConcreteImageStorage F) (storageType : ImageStorageType)
    (freeFn : Option F) : ConcreteImageStorage F × List (StorageEvent F) :=
  if image.storageType = storageType then (image, [])
  else (imageStorageInit storageType freeFn, imageStorageFinalize image)

/-! ### Images -/

/-- The members of a `ConcreteImage` that have to do with its storage, the number of blocks vectors
have got so far, and what was given back. -/
structure ImageInternals (F : Type) where
  bufferPtr : BytePtr
  bufferSize : Nat
  storage : ConcreteImageStorage F
  blocks : Nat
  events : List (StorageEvent F)

namespace ImageInternals

/-- `ConcreteImage()` -/
def init : ImageInternals F := ⟨.null, 0, imageStorageInit .ptr none, 0, []⟩

/-- `~ConcreteImage()`: all that was given back when the image is gone. -/
def destroy (image : ImageInternals F) : List (StorageEvent F) :=
  image.events ++ imageStorageFinalize image.storage

def reinit (image : ImageInternals F) (storageType : ImageStorageType) (freeFn : Option F) :
    ImageInternals F :=
  let (storage, events) := imageStorageReinit image.storage storageType freeFn
  { image with storage := storage, events := image.events ++ events }

def acquire (image : ImageInternals F) (bufferPtr : Option Nat) (bufferSize : Nat) (freeFn : F) :
    ImageInternals F :=
  { image.reinit .ptr (some freeFn) with
    bufferPtr := bufferPtr.elim .null .buffer
    bufferSize := bufferSize }

/-- `vectorStorage.resize(bufferSize)`, with a new block if the capacity is exceeded; if there is
none, the vector stays as it is. -/
def resize (image : ImageInternals F) (vector : ByteVector) (bufferSize : Nat) (allocated : Bool) :
    Option (ImageInternals F) :=
  if bufferSize ≤ vector.capacity then some { image with storage := .vectorStorage vector }
  else if !allocated then none
  else some { image with
    storage := .vectorStorage ⟨some image.blocks, max bufferSize (2 * vector.capacity)⟩
    blocks := image.blocks + 1
    events := image.events ++ (vector.block.map .deallocated).toList }

/-- `vectorStorage.data()` -/
def data (image : ImageInternals F) : BytePtr :=
  match image.storage with
  | .vectorStorage ⟨some block, _⟩ => .block block
  | _ => .null

/-- `resize` throws if no block is allocated. -/
def alloc (image : ImageInternals F) (bufferSize : Nat) (allocated : Bool) : ImageInternals F :=
  let image := image.reinit .vector none
  match image.storage with
  | .vectorStorage vector =>
    match image.resize vector bufferSize allocated with
    | none => image
    | some image => { image with bufferPtr := image.data, bufferSize := bufferSize }
  | .ptrStorage _ => image -- the tag is that of the vector

end ImageInternals

/-- What is done with an image before it is destroyed. -/
inductive ImageOp (F : Type) where
  | acquire (bufferPtr : Option Nat) (bufferSize : Nat) (freeFn : F)
  | alloc (bufferSize : Nat) (allocated : Bool)

namespace ImageInternals

def step (image : ImageInternals F) : ImageOp F → ImageInternals F
  | .acquire bufferPtr bufferSize freeFn => image.acquire bufferPtr bufferSize freeFn
  | .alloc bufferSize allocated => image.alloc bufferSize allocated

def run (ops : List (ImageOp F)) : ImageInternals F := ops.foldl step init

/-- `imageLoadFromFileBuffer`, given what `stbi_load_from_memory` has returned: what is released at
once, and the image that is made. -/
def loadFromFileBuffer (imgBuffer : Option Nat) (x y : Nat) (stbi_image_free : F) :
    List (StorageEvent F) × Option (ImageInternals F) :=
  let imgBufferSize := x * y * 4
  if imgBufferSize = 0 then ((imgBuffer.map (.released stbi_image_free)).toList, none)
  else
    match imgBuffer with
    | none => ([], none)
    | some imgBuffer => ([], some (init.acquire (some imgBuffer) imgBufferSize stbi_image_free))

/-- What `bufferPtr` designates was not given back. -/
def Valid (image : ImageInternals F) : Prop :=
  match image.bufferPtr with
  | .null => True
  | .buffer b => ∀ freeFn, .released freeFn b ∉ image.events
  | .block n => .deallocated n ∉ image.events

end ImageInternals

/-- The calls of functions that free buffers, with these. -/
def released (events : List (StorageEvent F)) : List (F × Nat) :=
  events.filterMap fun
    | .released freeFn buffer => some (freeFn, buffer)
    | .deallocated _ => none

/-- The buffers that are acquired, with the functions that free them. -/
def acquired (ops : List (ImageOp F)) : List (F × Nat) :=
  ops.filterMap fun
    | .acquire (some buffer) _ freeFn => some (freeFn, buffer)
    | _ => none

@[simp] lemma released_append (xs ys : List (StorageEvent F)) :
    released (xs ++ ys) = released xs ++ released ys :=
  List.filterMap_append

/-- What the storage is for: each buffer is released once, and not later than by the operation that
follows the one that has acquired it. -/
structure OwnsBuffers (ops : List (ImageOp F)) : Prop where
  once : (released (ImageInternals.run ops).destroy).Perm (acquired ops)
  inTime : ∀ pre op, pre ++ [op] <+: ops →
    (acquired pre).Subperm (released (ImageInternals.run (pre ++ [op])).events)
  valid : ∀ pre, pre <+: ops → (ImageInternals.run pre).Valid

/-! ### What holds between operations -/

namespace ImageInternals

/-- Nothing is in the `unique_ptr`, and the block of the vector is not given back. -/
structure Sound (image : ImageInternals F) : Prop where
  empty : ∀ ptr, image.storage = .ptrStorage ptr → ptr.ptr = none
  kept : released image.events = []
  old : ∀ n, .deallocated n ∈ image.events → n < image.blocks
  live : ∀ vector n, image.storage = .vectorStorage vector → vector.block = some n →
    n < image.blocks ∧ .deallocated n ∉ image.events

/-- A block that `bufferPtr` points to is the one of the vector. -/
structure SoundPtr (image : ImageInternals F) : Prop extends Sound image where
  bufferPtr : ∀ n, image.bufferPtr = .block n →
    ∃ capacity, image.storage = .vectorStorage ⟨some n, capacity⟩

lemma sound_init : (init : ImageInternals F).SoundPtr where
  empty := by
    intro ptr h
    cases h
    rfl
  kept := rfl
  old := by simp [init]
  live := by simp [init, imageStorageInit]
  bufferPtr := by simp [init]

/-- Nothing is released when the storage is finalized. -/
lemma Sound.released_finalize {image : ImageInternals F} (h : image.Sound) :
    released (imageStorageFinalize image.storage) = [] := by
  cases hs : image.storage with
  | ptrStorage ptr =>
    obtain ⟨ptr, deleter⟩ := ptr
    obtain rfl : ptr = none := h.empty _ hs
    rfl
  | vectorStorage vector =>
    obtain ⟨block, capacity⟩ := vector
    cases block <;> rfl

/-- What is given back when the storage is finalized is the block of the vector. -/
lemma Sound.lt_of_mem_finalize {image : ImageInternals F} (h : image.Sound) {n : Nat}
    (hn : .deallocated n ∈ imageStorageFinalize image.storage) : n < image.blocks := by
  cases hs : image.storage with
  | ptrStorage ptr =>
    obtain ⟨ptr, deleter⟩ := ptr
    obtain rfl : ptr = none := h.empty _ hs
    simp [hs, imageStorageFinalize] at hn
  | vectorStorage vector =>
    have hblock : vector.block = some n := by simpa [hs, imageStorageFinalize] using hn
    exact (h.live _ _ hs hblock).1

lemma Sound.reinit {image : ImageInternals F} (h : image.Sound) (storageType : ImageStorageType)
    (freeFn : Option F) : (image.reinit storageType freeFn).Sound := by
  simp only [ImageInternals.reinit, imageStorageReinit]
  split_ifs
  · simpa using h
  · -- the storage is a new one
    refine ⟨?_, ?_, ?_, ?_⟩
    · intro ptr hptr
      cases storageType <;> cases hptr
      rfl
    · simp [h.kept, h.released_finalize]
    · intro n hn
      rcases List.mem_append.mp hn with hn | hn
      · exact h.old n hn
      · exact h.lt_of_mem_finalize hn
    · intro vector n hvector hn
      cases storageType <;> cases hvector
      simp at hn

lemma Sound.resize {image image' : ImageInternals F} {vector : ByteVector} {bufferSize : Nat}
    {allocated : Bool} (h : image.Sound) (hs : image.storage = .vectorStorage vector)
    (hr : image.resize vector bufferSize allocated = some image') :
    image'.Sound ∧ ∃ vector, image'.storage = .vectorStorage vector := by
  unfold ImageInternals.resize at hr
  split_ifs at hr <;> cases hr
  · refine ⟨⟨by simp, h.kept, h.old, ?_⟩, vector, rfl⟩
    intro v n hv hn
    cases hv
    exact h.live vector n hs hn
  · have hold : ∀ n, .deallocated n ∈ image.events ++ (vector.block.map .deallocated).toList →
        n < image.blocks := by
      intro n hn
      rcases List.mem_append.mp hn with hn | hn
      · exact h.old n hn
      · exact (h.live vector n hs (by simpa using hn)).1
    refine ⟨⟨by simp, ?_, fun n hn => Nat.lt_succ_of_lt (hold n hn), ?_⟩, _, rfl⟩
    · have hblock : released (F := F) (vector.block.map .deallocated).toList = [] := by
        cases vector.block <;> rfl
      simp [h.kept, hblock]
    · intro v n hv hn
      cases hv
      cases hn
      exact ⟨Nat.lt_succ_self _, fun hn => Nat.lt_irrefl _ (hold _ hn)⟩

/-- The storage has the tag it is reinitialized for. -/
lemma reinit_vector (image : ImageInternals F) (freeFn : Option F) :
    ∃ vector, (image.reinit .vector freeFn).storage = .vectorStorage vector := by
  simp only [ImageInternals.reinit, imageStorageReinit]
  split_ifs with h
  · cases hs : image.storage with
    | ptrStorage ptr =>
      rw [hs] at h
      cases h
    | vectorStorage vector => exact ⟨vector, rfl⟩
  · exact ⟨⟨none, 0⟩, rfl⟩

lemma SoundPtr.acquire {image : ImageInternals F} (h : image.SoundPtr) (bufferPtr : Option Nat)
    (bufferSize : Nat) (freeFn : F) : (image.acquire bufferPtr bufferSize freeFn).SoundPtr := by
  have hr := h.toSound.reinit .ptr (some freeFn)
  refine ⟨⟨hr.empty, hr.kept, hr.old, hr.live⟩, fun n hn => ?_⟩
  cases bufferPtr <;> cases hn

lemma SoundPtr.alloc {image : ImageInternals F} (h : image.SoundPtr) (bufferSize : Nat)
    (allocated : Bool) : (image.alloc bufferSize allocated).SoundPtr := by
  have hr := h.toSound.reinit .vector none
  obtain ⟨vector, hs⟩ := reinit_vector image none
  simp only [ImageInternals.alloc, hs]
  cases hr' : (image.reinit .vector none).resize vector bufferSize allocated with
  | none =>
    -- the exception: a vector that was there keeps its block
    refine ⟨hr, fun n hn => ?_⟩
    obtain ⟨capacity, hstorage⟩ := h.bufferPtr n hn
    exact ⟨capacity, by simp [ImageInternals.reinit, imageStorageReinit, hstorage,
      ConcreteImageStorage.storageType]⟩
  | some image' =>
    obtain ⟨hsound, ⟨block, capacity⟩, hs'⟩ := hr.resize hs hr'
    refine ⟨⟨hsound.empty, hsound.kept, hsound.old, hsound.live⟩, fun n hn => ⟨capacity, ?_⟩⟩
    cases block with
    | none => simp [ImageInternals.data, hs'] at hn
    | some m =>
      obtain rfl : m = n := by simpa [ImageInternals.data, hs'] using hn
      exact hs'

lemma soundPtr_run (ops : List (ImageOp F)) : (run ops).SoundPtr := by
  unfold run
  refine List.foldlRecOn ops step sound_init fun image h op _ => ?_
  cases op with
  | acquire bufferPtr bufferSize freeFn => exact h.acquire bufferPtr bufferSize freeFn
  | alloc bufferSize allocated => exact h.alloc bufferSize allocated

/-- Nothing is ever released. -/
lemma SoundPtr.released_destroy {image : ImageInternals F} (h : image.SoundPtr) :
    released image.destroy = [] := by
  simp [destroy, h.kept, h.released_finalize]

lemma SoundPtr.valid {image : ImageInternals F} (h : image.SoundPtr) : image.Valid := by
  unfold Valid
  split
  · trivial
  · intro freeFn hmem
    have hreleased : (freeFn, _) ∈ released image.events :=
      List.mem_filterMap.mpr ⟨_, hmem, rfl⟩
    simp [h.kept] at hreleased
  next n hn =>
    obtain ⟨capacity, hs⟩ := h.bufferPtr n hn
    exact (h.live _ n hs rfl).2

end ImageInternals

open ImageInternals

/-- Whether what `imageLoadFromFileBuffer` gets from `stbi_load_from_memory` is released when the
image is freed, or at once if there is none. -/
def LoadedIsReleased (imgBuffer : Option Nat) (x y : Nat) (stbi_image_free : F) : Prop :=
  let (events, image) := loadFromFileBuffer imgBuffer x y stbi_image_free
  released (events ++ image.elim [] destroy) = (imgBuffer.map (stbi_image_free, ·)).toList

lemma acquired_eq_nil {ops : List (ImageOp F)} :
    acquired ops = [] ↔
      ∀ bufferPtr bufferSize freeFn, .acquire bufferPtr bufferSize freeFn ∈ ops →
        bufferPtr = none := by
  unfold acquired
  rw [List.filterMap_eq_nil_iff]
  constructor
  · intro h bufferPtr bufferSize freeFn hmem
    cases bufferPtr with
    | none => rfl
    | some buffer => simpa using h _ hmem
  · intro h op hop
    cases op with
    | alloc bufferSize allocated => rfl
    | acquire bufferPtr bufferSize freeFn =>
      obtain rfl := h _ _ _ hop
      rfl

/-- A buffer that is acquired is never released, so the storage does what it is for if and only if
no buffer is acquired; no image that `imageLoadFromFileBuffer` makes releases its pixels. -/
theorem ownsBuffers_iff :
    (∀ ops : List (ImageOp F), OwnsBuffers ops ↔
      ∀ bufferPtr bufferSize freeFn, .acquire bufferPtr bufferSize freeFn ∈ ops →
        bufferPtr = none) ∧
      ∀ imgBuffer x y (stbi_image_free : F),
        LoadedIsReleased imgBuffer x y stbi_image_free ↔ imgBuffer = none ∨ x * y * 4 = 0 := by
  constructor
  · intro ops
    rw [← acquired_eq_nil]
    constructor
    · intro h
      have honce := h.once
      rw [(soundPtr_run ops).released_destroy] at honce
      exact List.nil_perm.mp honce
    · intro h
      refine ⟨?_, ?_, fun pre _ => (soundPtr_run pre).valid⟩
      · rw [h, (soundPtr_run ops).released_destroy]
      · intro pre op hpre
        have hsub : acquired pre <+: acquired ops :=
          ((List.prefix_append pre [op]).trans hpre).filterMap _
        rw [h] at hsub
        rw [List.prefix_nil.mp hsub]
        exact List.nil_subperm
  · intro imgBuffer x y stbi_image_free
    unfold LoadedIsReleased loadFromFileBuffer
    by_cases hsize : x * y * 4 = 0
    · cases imgBuffer <;> simp [hsize, released]
    · cases imgBuffer with
      | none => simp [hsize, released]
      | some imgBuffer =>
        have hnone := (sound_init.acquire (some imgBuffer) (x * y * 4)
          stbi_image_free).released_destroy
        simp [hsize, hnone]

/-- An image of one pixel is loaded and freed: its four bytes are not. -/
theorem not_ownsBuffers : ¬ OwnsBuffers [ImageOp.acquire (some 0) 4 ()] := by
  intro h
  have hlength := h.once.length_eq
  simp [run, step, ImageInternals.acquire, ImageInternals.reinit, init, imageStorageInit,
    imageStorageReinit, ConcreteImageStorage.storageType, destroy, imageStorageFinalize, released,
    acquired] at hlength

end GifTools
