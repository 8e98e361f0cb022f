import GifTools.Bindings.Sized
import GifTools.Png.Reloaded
import GifTools.Png.Sized

/-!
# Images as PNG files

The image library with its PNG files in the place of the parameter. What
`imageExportToPngFileMemory` puts into a buffer is what `imageLoadFromBuffer` makes the image from
again.
-/

namespace GifTools

open Binding ManagedObjStorage

/-- What is left open: the loaders of other files, what is not initialised, the number of rounds
after which a loop counts as endless, the globals of the writer, and how an image is resized. -/
structure StbSetting where
  jpeg : List UInt8 → Except StbiFailure StbiResult
  other : List UInt8 → Except StbiFailure StbiResult
  garbage : LoadGarbage
  rounds : Nat
  globals : StbiWrite
  resize : ConcreteImage → Nat → Nat → Except StbiFailure (List UInt8)

/-- A failure that is reported is null. -/
def Stb.ofPng (setting : StbSetting) : Stb where
  stbi_load_from_memory bytes :=
    match stbiLoadAndPostprocess8bit
      (stbiLoadMain setting.jpeg setting.other setting.rounds setting.garbage bytes 4) with
    | .ok (pixels, x, y) => .ok (some pixels, x, y)
    | .error failure => if failure.reported then .ok (.none, 0, 0) else .error failure
  stbir_resize_uint8 := setting.resize
  stbi_write_png_to_func image :=
    let pixelWidth := pixelFormatByteWidth image.format
    stbiWritePngToFunc setting.globals [] image.width image.height pixelWidth image.contents
      (image.width * pixelWidth)

/-- The pixels of an image with four components. -/
def ConcreteImage.rgba (image : ConcreteImage) : List UInt8 :=
  mapPixels (pixelFormatByteWidth image.format) (rgbaOf (pixelFormatByteWidth image.format))
    (image.width * image.height) image.contents

/-- An image that PNG files can hold and that has all its bytes. -/
structure ConcreteImage.Exportable (image : ConcreteImage) : Prop where
  sized : image.Sized
  loadable : Loadable image.width image.height (pixelFormatByteWidth image.format)

/-- The image with four components. -/
def ConcreteImage.toRgba (image : ConcreteImage) : ConcreteImage :=
  ⟨.r8g8b8a8Unorm, image.width, image.height, image.rgba⟩

/-- It is the image itself, if that has four components already. -/
theorem ConcreteImage.toRgba_eq_self {image : ConcreteImage}
    (hformat : image.format = .r8g8b8a8Unorm) (hsized : image.Sized) : image.toRgba = image := by
  have hlength : image.contents.length = 4 * (image.width * image.height) := by
    rw [Sized, hformat] at hsized
    exact hsized.trans (Nat.mul_comm _ 4)
  have hid : rgbaOf 4 = List.map id := by
    funext p
    exact (List.map_id p).symm
  have hrgba : image.rgba = image.contents := by
    rw [rgba, hformat]
    change mapPixels 4 (rgbaOf 4) _ _ = _
    rw [hid, mapPixels_singleton hlength, List.map_id]
  rw [toRgba, hrgba, ← hformat]

/-! ### The library -/

section

variable {setting : StbSetting} {image : ConcreteImage}

/-- The loops of the decompressor are given enough rounds. -/
def StbSetting.Lasts (setting : StbSetting) (image : ConcreteImage) : Prop :=
  (image.width * pixelFormatByteWidth image.format + 1) * image.height < setting.rounds

/-- What the estimates of the filters add up stays in an `int`. -/
def StbSetting.Estimates (setting : StbSetting) (image : ConcreteImage) : Prop :=
  setting.globals.Estimates (image.width * pixelFormatByteWidth image.format)

lemma stbi_load_of_write (h : image.Exportable) (hestimates : setting.Estimates image)
    (hrounds : setting.Lasts image) (hflip : ¬ setting.globals.stbi__flip_vertically_on_write) :
    ∃ bytes, (Stb.ofPng setting).stbi_write_png_to_func image = .ok bytes ∧ bytes ≠ [] ∧
      (Stb.ofPng setting).stbi_load_from_memory bytes =
        .ok (some image.rgba, image.width, image.height) := by
  obtain ⟨bytes, hwrite, hbytes, hload⟩ := stbiLoadMain_written setting.globals image.contents
    (image.width * pixelFormatByteWidth image.format) h.loadable hestimates hrounds setting.garbage
    setting.jpeg setting.other
  rw [rgbaRows_writtenRows hflip h.sized] at hload
  refine ⟨bytes, ?_, hbytes, ?_⟩
  · simp only [Stb.ofPng, stbiWritePngToFunc, hwrite]
    rfl
  · simp only [Stb.ofPng, hload]
    rfl

end

/-- The loaders of other files give four bytes or words for each pixel, too. -/
structure StbSetting.Whole (setting : StbSetting) : Prop where
  jpeg : ∀ bytes ri, setting.jpeg bytes = .ok ri → ri.Whole
  other : ∀ bytes ri, setting.other bytes = .ok ri → ri.Whole

lemma loadsWhole_ofPng {setting : StbSetting} (h : setting.Whole) :
    (Stb.ofPng setting).LoadsWhole := by
  intro bytes pixels x y hload
  have hmain : ∀ ri,
      stbiLoadMain setting.jpeg setting.other setting.rounds setting.garbage bytes 4 = .ok ri →
        ri.Whole := by
    intro ri hri
    rw [stbiLoadMain] at hri
    split at hri
    · exact h.jpeg bytes ri hri
    split at hri
    · exact whole_stbiDoPng hri
    · exact h.other bytes ri hri
  simp only [Stb.ofPng] at hload
  cases hri : stbiLoadMain setting.jpeg setting.other setting.rounds setting.garbage bytes 4 with
  | error failure =>
    rw [hri] at hload
    have hnull : (if failure.reported then .ok (none, 0, 0) else .error failure :
        Except StbiFailure (Option (List UInt8) × Nat × Nat)) = .ok (some pixels, x, y) := hload
    split_ifs at hnull
    cases hnull
  | ok ri =>
    have hwhole := hmain ri hri
    rw [hri] at hload
    cases hload
    have hmax : intMax = 2 ^ 31 - 1 := rfl
    have hfits := hwhole.fits
    refine ⟨?_, by omega⟩
    rw [List.length_map, ← hwhole.length_eq]
    split_ifs
    · exact List.length_map _
    · rfl

/-! ### New objects -/

section

variable {mem : Memory} {T : ManagedClass}

lemma run_make (h : mem.storage.Sound) (T : ManagedClass) :
    ∃ st p i, (make T).run mem = .ok (some mem.storage.fresh)
        ({ mem with storage := st }.construct mem.storage.fresh) ∧
      mem.storage.make T = .ok (st, some mem.storage.fresh) ∧
      Made T p i mem.storage st ∧ st.Sound := by
  obtain ⟨st, p, i, hmake, hmade, hst⟩ := h.make T
  refine ⟨st, p, i, ?_, hmake, hmade, hst⟩
  change (ofExcept (mem.storage.make T) >>= _).run mem = _
  rw [hmake]
  rfl

/-- The object at `a` is new, with this type and id; nothing has become of the others, nor of the
bytes of buffers and images. -/
structure MadeObject (T : ManagedClass) (a : Addr) (id : BitVec 32) (mem mem' : Memory) : Prop where
  unused : mem.storage.heap a = none
  make : mem.storage.make T = .ok (mem'.storage, some a)
  heap : ∃ obj, mem'.storage.heap a = some obj ∧ obj.cls = T ∧ obj.mObjId.composite = id
  others : ∀ b ≠ a, mem'.storage.heap b = mem.storage.heap b
  contents : ∀ b ≠ a, mem'.contents b = mem.contents b
  images : ∀ b ≠ a, mem'.images b = mem.images b

/-- An object has been made at the next address, with these contents and this image. -/
structure NewObject (T : ManagedClass) (mem mem' : Memory) (id : ManagedObjId)
    (contents : List UInt8) (image : ConcreteImage) : Prop where
  sound : mem'.storage.Sound
  make : mem.storage.make T = .ok (mem'.storage, some mem.storage.fresh)
  heap : mem'.storage.heap mem.storage.fresh = some ⟨id, T, []⟩
  heap_others : ∀ b ≠ mem.storage.fresh, mem'.storage.heap b = mem.storage.heap b
  type : id.type = typeNibble T
  contents : mem'.contents = Function.update mem.contents mem.storage.fresh contents
  images : mem'.images = Function.update mem.images mem.storage.fresh image

lemma NewObject.madeObject {mem' : Memory} {id : ManagedObjId} {contents : List UInt8}
    {image : ConcreteImage} (h : NewObject T mem mem' id contents image)
    (hmem : mem.storage.Sound) : MadeObject T mem.storage.fresh id.composite mem mem' where
  unused := by
    by_contra hlive
    exact lt_irrefl _ (hmem.lt_fresh (Option.ne_none_iff_exists'.mp hlive))
  make := h.make
  heap := ⟨_, h.heap, rfl, rfl⟩
  others := h.heap_others
  contents b hb := by rw [h.contents, Function.update_of_ne hb]
  images b hb := by rw [h.images, Function.update_of_ne hb]

lemma run_bufferFromVector (h : mem.storage.Sound) {buffer : List UInt8} (hbuffer : buffer ≠ []) :
    ∃ mem' id, (Objects.bufferFromVector buffer).run mem = .ok (some mem.storage.fresh) mem' ∧
      NewObject .buffer mem mem' id buffer Memory.emptyImage := by
  obtain ⟨st, p, i, hrun, hmake, hmade, hst⟩ := run_make h .buffer
  set made := { mem with storage := st }.construct mem.storage.fresh
  refine ⟨{ made with contents := Function.update made.contents mem.storage.fresh buffer }, _, ?_,
    hst, hmake, hmade.heap, fun _ => hmade.heap_others, rfl, Function.update_idem _ _ _, rfl⟩
  rw [Objects.bufferFromVector, if_neg hbuffer, EStateM.run_bind, hrun]
  rfl

lemma run_newImage (h : mem.storage.Sound) (image : ConcreteImage) :
    ∃ mem' id, (do
        let a ← makeNew .image
        setImage a image
        return some a : Binding (Option Addr)).run mem = .ok (some mem.storage.fresh) mem' ∧
      NewObject .image mem mem' id [] image := by
  obtain ⟨st, p, i, hrun, hmake, hmade, hst⟩ := run_make h .image
  set made := { mem with storage := st }.construct mem.storage.fresh
  refine ⟨{ made with images := Function.update made.images mem.storage.fresh image }, _, ?_,
    hst, hmake, hmade.heap, fun _ => hmade.heap_others, rfl, rfl, Function.update_idem _ _ _⟩
  rw [makeNew, EStateM.run_bind, EStateM.run_bind, hrun]
  rfl

/-- The id of an object that is found designates it. -/
lemma getAs_own_id {st : ManagedObjStorage} (hfind : st.FindsAll) {a : Addr} {obj : ManagedObj}
    (hobj : st.heap a = some obj) (htype : obj.mObjId.type = typeNibble T) :
    st.getAs T obj.mObjId.composite = .ok (some a) := by
  have hcast : obj.mObjId.type.setWidth 8 = managedType T := by
    rw [htype]
    cases T <;> rfl
  refine Runs.bind_ok.mpr ⟨some a, hfind a _ hobj, Runs.bind_ok.mpr ⟨obj, deref_ok.mpr hobj, ?_⟩⟩
  rw [if_neg (not_not.mpr hcast)]
  rfl

lemma run_objectReleaseAndReturnId {a : Addr} {obj : ManagedObj}
    (hobj : mem.storage.heap a = some obj) :
    (objectReleaseAndReturnId (some a)).run mem = .ok (.int obj.mObjId.composite) mem := by
  have hderef : (deref a).run mem = .ok obj mem := by
    change (ofExcept (mem.storage.deref a)).run mem = _
    rw [deref_ok.mpr hobj]
    rfl
  change ((deref a >>= fun obj => pure obj.mObjId.composite) >>= fun id => pure (Value.int id)).run
    mem = _
  rw [EStateM.run_bind, EStateM.run_bind, hderef]
  rfl

end

namespace Bindings

section

variable {stb : Stb} {mem : Memory} {a : Addr} {id : BitVec 32}

/-- What is written lies in a new buffer. -/
lemma run_imageExportToPngFileMemory (hmem : mem.storage.Sound)
    (himage : mem.storage.getAs .image id = .ok (some a)) {bytes : List UInt8}
    (hwrite : stb.stbi_write_png_to_func (mem.images a) = .ok bytes) (hbytes : bytes ≠ []) :
    ∃ mem' bufferId, (exec stb (.imageExportToPngFileMemory id)).run mem =
        .ok (.int bufferId.composite) mem' ∧
      NewObject .buffer mem mem' bufferId bytes Memory.emptyImage := by
  obtain ⟨mem', bufferId, hbuffer, hnew⟩ := run_bufferFromVector hmem hbytes
  refine ⟨mem', bufferId, (run_find_bind himage).trans ?_, hnew⟩
  have hexport : (Objects.imageExportToPngFileMemory stb (some a)).run mem =
      (Objects.bufferFromVector bytes).run mem := by
    rw [Objects.imageExportToPngFileMemory, EStateM.run_bind]
    have hget : (get : Binding Memory).run mem = .ok mem mem := rfl
    simp only [hget, hwrite]
  have hrelease := run_objectReleaseAndReturnId hnew.heap
  rw [EStateM.run_bind, hexport, hbuffer]
  exact hrelease

/-- What is loaded is a new image. -/
lemma run_imageLoadFromBuffer {pixels : List UInt8} {x y : Nat} (hmem : mem.storage.Sound)
    (hbuffer : mem.storage.getAs .buffer id = .ok (some a)) (hbytes : mem.contents a ≠ [])
    (hload : stb.stbi_load_from_memory (mem.contents a) = .ok (some pixels, x, y))
    (hpos : x * y * 4 ≠ 0) :
    ∃ mem' imageId, (exec stb (.imageLoadFromBuffer id)).run mem =
        .ok (.int imageId.composite) mem' ∧
      NewObject .image mem mem' imageId [] ⟨.r8g8b8a8Unorm, x, y, pixels⟩ := by
  obtain ⟨mem', imageId, himage, hnew⟩ := run_newImage hmem ⟨.r8g8b8a8Unorm, x, y, pixels⟩
  refine ⟨mem', imageId, (run_find_bind hbuffer).trans ?_, hnew⟩
  have hrun : (Objects.imageLoadFromFileBuffer stb (some a)).run mem =
      (Objects.imageLoadFromFileBytes stb (some (mem.contents a))).run mem := rfl
  rw [EStateM.run_bind, hrun, Objects.imageLoadFromFileBytes, if_neg hbytes]
  simp only [hload]
  have hrelease := run_objectReleaseAndReturnId hnew.heap
  rw [if_neg hpos, himage]
  exact hrelease

end

/-- Only what is made of the bytes of the buffer matters. -/
lemma step_imageLoadFromBuffer_congr {stb stb' : Stb} {mem : Memory} {a : Addr} {id : BitVec 32}
    (hbuffer : mem.storage.getAs .buffer id = .ok (some a))
    (h : stb.stbi_load_from_memory (mem.contents a) =
      stb'.stbi_load_from_memory (mem.contents a)) :
    step stb mem (.imageLoadFromBuffer id) = step stb' mem (.imageLoadFromBuffer id) := by
  have hload : (Objects.imageLoadFromFileBuffer stb (some a)).run mem =
      (Objects.imageLoadFromFileBuffer stb' (some a)).run mem := by
    change (Objects.imageLoadFromFileBytes stb (some (mem.contents a))).run mem =
      (Objects.imageLoadFromFileBytes stb' (some (mem.contents a))).run mem
    rw [Objects.imageLoadFromFileBytes, Objects.imageLoadFromFileBytes, h]
  have hexec : (exec stb (.imageLoadFromBuffer id)).run mem =
      (exec stb' (.imageLoadFromBuffer id)).run mem := by
    refine (run_find_bind hbuffer).trans (.trans ?_ (run_find_bind hbuffer).symm)
    rw [EStateM.run_bind, EStateM.run_bind, hload]
  rw [step, step, hexec]

/-- An image that is exported to a PNG file is loaded from it again, with four components. The file
and the image are new objects, the other objects stay as they are, and the file is found by the id
that is returned if its slot has been used less than 256 times. -/
theorem imageLoadFromBuffer_imageExportToPngFileMemory (setting : StbSetting)
    (hflip : ¬ setting.globals.stbi__flip_vertically_on_write) {calls : List Call} {mem : Memory}
    (hcalls : Runs.Along (step (Stb.ofPng setting)) FreesUnowned .init calls)
    (hrun : Runs.run (step (Stb.ofPng setting)) .init calls = .ok mem) {id : BitVec 32} {a : Addr}
    (himage : mem.storage.getAs .image id = .ok (some a)) (h : (mem.images a).Exportable)
    (hestimates : setting.Estimates (mem.images a)) (hrounds : setting.Lasts (mem.images a)) :
    ∃ bufferId mem' b, (exec (Stb.ofPng setting) (.imageExportToPngFileMemory id)).run mem =
        .ok (.int bufferId) mem' ∧
      MadeObject .buffer b bufferId mem mem' ∧
      (Stb.ofPng setting).stbi_write_png_to_func (mem.images a) = .ok (mem'.contents b) ∧
      (mem'.storage.FindsAll → ∃ imageId mem'' c,
        (exec (Stb.ofPng setting) (.imageLoadFromBuffer bufferId)).run mem' =
          .ok (.int imageId) mem'' ∧
        MadeObject .image c imageId mem' mem'' ∧ mem''.images c = (mem.images a).toRgba) := by
  have hsound := (throughout_holding hcalls calls mem List.prefix_rfl hrun).sound
  obtain ⟨bytes, hwrite, hbytes, hload⟩ := stbi_load_of_write h hestimates hrounds hflip
  obtain ⟨mem', bufferId, hexport, hbuffer⟩ := run_imageExportToPngFileMemory hsound himage hwrite
    hbytes
  have hcontents : mem'.contents mem.storage.fresh = bytes := by
    rw [hbuffer.contents, Function.update_self]
  refine ⟨_, _, mem.storage.fresh, hexport, hbuffer.madeObject hsound, ?_, fun hfind => ?_⟩
  · rw [hwrite, hcontents]
  rw [← hcontents] at hload hbytes
  have hextents : (mem.images a).width * (mem.images a).height * 4 ≠ 0 :=
    (Nat.mul_pos (Nat.mul_pos h.loadable.x_pos h.loadable.y_pos) (by decide)).ne'
  obtain ⟨mem'', imageId, hrun', hnew⟩ := run_imageLoadFromBuffer hbuffer.sound
    (getAs_own_id hfind hbuffer.heap hbuffer.type) hbytes hload hextents
  refine ⟨_, _, _, hrun', hnew.madeObject hbuffer.sound, ?_⟩
  rw [hnew.images, Function.update_self]
  rfl

/-- There are only PNG files, and the loops have a hundred rounds. -/
def onlyPng : StbSetting where
  jpeg _ := .error (.err "no SOI")
  other _ := .error (.err "unknown image type")
  garbage := ⟨.zero, Vector.replicate 1024 0, fun _ => []⟩
  rounds := 100
  globals := .default
  resize _ width height := .ok (List.replicate (width * height * 4) 255)

/-- Five by three pixels of two bits, which are interlaced, with a palette of four colours, two of
which are transparent. -/
def coloursFile : List UInt8 :=
  [137, 80, 78, 71, 13, 10, 26, 10,
    0, 0, 0, 13, 73, 72, 68, 82, 0, 0, 0, 5, 0, 0, 0, 3, 2, 3, 0, 0, 1, 81, 95, 29, 253,
    0, 0, 0, 12, 80, 76, 84, 69, 10, 20, 30, 40, 50, 60, 70, 80, 90, 100, 110, 120,
    198, 72, 119, 223, 0, 0, 0, 2, 116, 82, 78, 83, 0, 128, 155, 43, 78, 24,
    0, 0, 0, 26, 73, 68, 65, 84, 120, 1, 1, 15, 0, 240, 255, 0, 0, 0, 0, 0, 128, 0, 108, 0, 112,
    0, 96, 0, 228, 64, 14, 151, 2, 225, 72, 79, 56, 176, 0, 0, 0, 0, 73, 69, 78, 68,
    174, 66, 96, 130]

/-- The pixels in this file. -/
def colours : List UInt8 :=
  [10, 20, 30, 0, 40, 50, 60, 128, 70, 80, 90, 255, 100, 110, 120, 255, 10, 20, 30, 0,
    100, 110, 120, 255, 70, 80, 90, 255, 40, 50, 60, 128, 10, 20, 30, 0, 40, 50, 60, 128,
    40, 50, 60, 128, 40, 50, 60, 128, 70, 80, 90, 255, 70, 80, 90, 255, 100, 110, 120, 255]

lemma stbi_load_coloursFile :
    (Stb.ofPng onlyPng).stbi_load_from_memory coloursFile = .ok (some colours, 5, 3) := by
  decide +kernel

def coloursCalls : List Call :=
  [.bufferFromUint8Array coloursFile, .imageLoadFromBuffer 0x10100000#32]

/-- A library that makes these pixels of everything. -/
def anyColours : Stb :=
  { Stb.none with stbi_load_from_memory := fun _ => .ok (some colours, 5, 3) }

lemma run_coloursCalls : Runs.run (step (Stb.ofPng onlyPng)) .init coloursCalls =
    Runs.run (step anyColours) .init coloursCalls := by
  obtain ⟨mem, hrun, hrun', hbuffer, hcontents⟩ : ∃ mem,
      step (Stb.ofPng onlyPng) .init (.bufferFromUint8Array coloursFile) = .ok mem ∧
      step anyColours .init (.bufferFromUint8Array coloursFile) = .ok mem ∧
      mem.storage.getAs .buffer 0x10100000#32 = .ok (some 0) ∧ mem.contents 0 = coloursFile :=
    ⟨_, rfl, rfl, rfl, rfl⟩
  have hstep : step (Stb.ofPng onlyPng) mem (.imageLoadFromBuffer 0x10100000#32) =
      step anyColours mem (.imageLoadFromBuffer 0x10100000#32) := by
    apply step_imageLoadFromBuffer_congr hbuffer
    rw [hcontents, stbi_load_coloursFile]
    rfl
  simp only [coloursCalls, Runs.run, hrun, hrun', hstep]

/-- The file is loaded as the second object; a third one would be found. -/
lemma exists_colours : ∃ mem, Runs.run (step (Stb.ofPng onlyPng)) .init coloursCalls = .ok mem ∧
    mem.storage.getAs .image 0x30100001#32 = .ok (some 1) ∧
    mem.images 1 = ⟨.r8g8b8a8Unorm, 5, 3, colours⟩ ∧
    ∃ st, mem.storage.make .buffer = .ok (st, some 2) ∧ st.fresh = 3 ∧
      ∀ a < 3, ∀ obj ∈ st.heap a, st.get obj.mObjId.composite = .ok (some a) := by
  rw [run_coloursCalls]
  refine ⟨_, rfl, rfl, rfl, _, rfl, rfl, ?_⟩
  decide

lemma along_coloursCalls :
    Runs.Along (step (Stb.ofPng onlyPng)) FreesUnowned .init coloursCalls :=
  Runs.along_cons.mpr ⟨trivial, fun _ _ => Runs.along_cons.mpr ⟨trivial, fun _ _ =>
    Runs.along_nil⟩⟩

/-- The image of five by three pixels is exported and loaded. -/
theorem imageLoadFromBuffer_imageExportToPngFileMemory_colours :
    ∃ mem, Runs.run (step (Stb.ofPng onlyPng)) .init coloursCalls = .ok mem ∧
      mem.images 1 = ⟨.r8g8b8a8Unorm, 5, 3, colours⟩ ∧
      ∃ bufferId mem' b,
        (exec (Stb.ofPng onlyPng) (.imageExportToPngFileMemory 0x30100001#32)).run mem =
          .ok (.int bufferId) mem' ∧
        MadeObject .buffer b bufferId mem mem' ∧ ∃ imageId mem'' c,
          (exec (Stb.ofPng onlyPng) (.imageLoadFromBuffer bufferId)).run mem' =
            .ok (.int imageId) mem'' ∧
          MadeObject .image c imageId mem' mem'' ∧
          mem''.images c = ⟨.r8g8b8a8Unorm, 5, 3, colours⟩ := by
  obtain ⟨mem, hrun, hfound, himage, st, hmake, hfresh, hfind⟩ := exists_colours
  have hsized : (mem.images 1).Sized := by
    rw [himage]
    rfl
  have hexportable : (mem.images 1).Exportable := by
    refine ⟨hsized, ?_⟩
    rw [himage]
    constructor <;> decide
  have hlasts : onlyPng.Lasts (mem.images 1) := by
    rw [himage]
    exact show (5 * 4 + 1) * 3 < 100 by decide
  have hestimates : onlyPng.Estimates (mem.images 1) := by
    rw [himage]
    exact .inr (show 5 * 4 < 2 ^ 24 by decide)
  obtain ⟨bufferId, mem', b, hexport, hbuffer, -, hload⟩ :=
    imageLoadFromBuffer_imageExportToPngFileMemory onlyPng (by decide) along_coloursCalls hrun
      hfound hexportable hestimates hlasts
  have hst : mem'.storage = st := by
    cases hbuffer.make.symm.trans hmake
    rfl
  have hsound : mem.storage.Sound :=
    (throughout_holding along_coloursCalls _ _ List.prefix_rfl hrun).sound
  have hfindsAll : mem'.storage.FindsAll := by
    intro a obj hobj
    obtain ⟨st', _, _, hmake', -, hst'⟩ := hsound.make .buffer
    cases hmake'.symm.trans hbuffer.make
    have ha : a < 3 := hfresh ▸ hst ▸ hst'.lt_fresh ⟨obj, hobj⟩
    rw [hst] at hobj ⊢
    exact hfind a ha obj hobj
  obtain ⟨imageId, mem'', c, hrun', hnew, hcolours⟩ := hload hfindsAll
  refine ⟨mem, hrun, himage, bufferId, mem', b, hexport, hbuffer, imageId, mem'', c, hrun', hnew,
    hcolours.trans ?_⟩
  rw [ConcreteImage.toRgba_eq_self (by rw [himage]) hsized, himage]

/-! ### Sizes -/

/-- In every run in which what is resized is smaller than 4 GiB, every image has the size that its
extents and its format say, whatever PNG files are loaded: of any depth and any colours, with a
palette or a transparent colour, interlaced or not. -/
theorem imagesSized_ofPng (setting : StbSetting) (hsetting : setting.Whole) (calls : List Call)
    (hframes : ∀ call ∈ calls, ∀ frame, some frame ∈ call.decodedFrames → FrameSized frame)
    (h : Runs.Along (step (Stb.ofPng setting)) (SizeFits (Stb.ofPng setting)) .init calls) :
    Runs.Throughout (step (Stb.ofPng setting)) ImagesSized .init calls := by
  have hcalls : Runs.Along (step (Stb.ofPng setting)) (fun mem call =>
      SizeFits (Stb.ofPng setting) mem call ∧
      ∀ frame, some frame ∈ call.decodedFrames → FrameSized frame) .init calls := by
    intro pre call mem hpre hrun
    exact ⟨h pre call mem hpre hrun, hframes call (hpre.subset (by simp))⟩
  exact .of_invariant
    (fun _ _ _ hmem hcall hstep =>
      allSized_step (loadsWhole_ofPng hsetting) hmem hcall.2 hcall.1 hstep)
    (fun _ hmem a _ _ _ => hmem a) (fun _ => rfl) hcalls

/-- The image of five by three pixels is resized and exported, and what is exported is loaded. -/
def coloursAgain : List Call :=
  coloursCalls ++ [.imageResizeOrClone 0x30100001#32 2#32 7#32,
    .imageExportToPngFileMemory 0x30100002#32, .imageLoadFromBuffer 0x10100003#32]

theorem imagesSized_ofPng_colours :
    (∃ mem, Runs.run (step (Stb.ofPng onlyPng)) .init coloursCalls = .ok mem ∧
      mem.images 1 = ⟨.r8g8b8a8Unorm, 5, 3, colours⟩) ∧
    Runs.Throughout (step (Stb.ofPng onlyPng)) ImagesSized .init coloursAgain := by
  obtain ⟨mem, hrun, -, himage, -⟩ := exists_colours
  have hwhole : onlyPng.Whole := by
    constructor
    · intro bytes ri hri
      cases hri
    · intro bytes ri hri
      cases hri
  refine ⟨⟨mem, hrun, himage⟩, imagesSized_ofPng onlyPng hwhole _
    (fun call hcall frame hframe => ?_) fun pre call mem hpre _ => ?_⟩
  · simp only [coloursAgain, coloursCalls, List.cons_append, List.nil_append, List.mem_cons,
      List.not_mem_nil, or_false] at hcall
    rcases hcall with rfl | rfl | rfl | rfl | rfl <;> cases hframe
  · have hcall := hpre.subset (List.mem_append_right pre (List.mem_singleton_self call))
    simp only [coloursAgain, coloursCalls, List.cons_append, List.nil_append, List.mem_cons,
      List.not_mem_nil, or_false] at hcall
    rcases hcall with rfl | rfl | rfl | rfl | rfl
    case inr.inr.inl =>
      intro a _ _ _ _
      left
      cases (mem.images a).format <;> decide
    all_goals trivial

end Bindings

end GifTools
