import GifTools.Core.LzwSync
import GifTools.Gif.BitStatus
import GifTools.Gif.Palette

/-!
# Writing the image of a frame

`GifWriteLzwImage` writes the graphics control extension, the image descriptor, the local colour
table and the pixel indices compressed with LZW. The dictionary is a tree of nodes `codetree` whose
node `c` leads from the word with code `c` to its extensions; `Represents` relates it to the words
themselves, and `writes_encode` says that the bits written are those of `Lzw.encode`.
-/

namespace GifTools

/-- `GifWritePalette`. -/
def gifWritePalette (pPal : GifPalette) (buffer : GifVectorFileBuffer) : GifVectorFileBuffer :=
  -- first color: transparency
  let buffer := ((buffer.putc 0).putc 0).putc 0
  (List.range' 1 (2 ^ pPal.bitDepth - 1)).foldl
    (fun buffer ii =>
      ((buffer.putc (pPal.r ii).toNat).putc (pPal.g ii).toNat).putc (pPal.b ii).toNat)
    buffer

/-- The part of `GifWriteLzwImage` up to the minimum code size. -/
def gifWriteImageHeader (buffer : GifVectorFileBuffer) (left top width height delay : Nat)
    (pPal : GifPalette) : GifVectorFileBuffer :=
  -- graphics control extension
  let buffer := buffer.putc 0x21
  let buffer := buffer.putc 0xf9
  let buffer := buffer.putc 0x04
  let buffer := buffer.putc 0x05 -- leave prev frame in place, this frame has transparency
  let buffer := buffer.putc (delay &&& 0xff)
  let buffer := buffer.putc ((delay >>> 8) &&& 0xff)
  let buffer := buffer.putc kGifTransIndex
  let buffer := buffer.putc 0
  -- image descriptor block
  let buffer := buffer.putc 0x2c
  let buffer := buffer.putc (left &&& 0xff)
  let buffer := buffer.putc ((left >>> 8) &&& 0xff)
  let buffer := buffer.putc (top &&& 0xff)
  let buffer := buffer.putc ((top >>> 8) &&& 0xff)
  let buffer := buffer.putc (width &&& 0xff)
  let buffer := buffer.putc ((width >>> 8) &&& 0xff)
  let buffer := buffer.putc (height &&& 0xff)
  let buffer := buffer.putc ((height >>> 8) &&& 0xff)
  -- local color table present, 2 ^ bitDepth entries
  let buffer := buffer.putc (0x80 + pPal.bitDepth - 1)
  let buffer := gifWritePalette pPal buffer
  buffer.putc pPal.bitDepth

/-- The variables of the compression loop. -/
structure LzwState where
  codetree : Nat → UInt8 → UInt16
  curCode : Int
  codeSize : Nat
  maxCode : Nat
  out : GifVectorFileBuffer × GifBitStatus

/-- `(uint32_t)curCode`. -/
def LzwState.code (s : LzwState) : Nat := (s.curCode % 2 ^ 32).toNat

/-- The body of the compression loop. -/
def lzwPixel (minCodeSize : Nat) (s : LzwState) (nextValue : UInt8) : LzwState :=
  let clearCode := 1 <<< minCodeSize
  if s.curCode < 0 then
    -- first value in a new run
    { s with curCode := nextValue.toNat }
  else if s.codetree s.curCode.toNat nextValue ≠ 0 then
    -- current run already in the dictionary
    { s with curCode := (s.codetree s.curCode.toNat nextValue).toNat }
  else
    -- finish the current run, write a code
    let out := gifWriteCode s.out.1 s.out.2 s.code s.codeSize
    -- insert the new run into the dictionary
    let maxCode := s.maxCode + 1
    let codetree := Function.update s.codetree s.curCode.toNat
      (Function.update (s.codetree s.curCode.toNat) nextValue (UInt16.ofNat maxCode))
    let codeSize := if maxCode ≥ 1 <<< s.codeSize then s.codeSize + 1 else s.codeSize
    if maxCode = 4095 then
      -- the dictionary is full, clear it out and begin anew
      { codetree := fun _ _ => 0
        curCode := nextValue.toNat
        codeSize := minCodeSize + 1
        maxCode := clearCode + 1
        out := gifWriteCode out.1 out.2 clearCode codeSize }
    else
      { codetree := codetree
        curCode := nextValue.toNat
        codeSize := codeSize
        maxCode := maxCode
        out := out }

/-- The alpha byte of the pixel at row `yy` and column `xx`; the index is a `uint32_t`. -/
def alphaAt (image : Nat → UInt8) (width yy xx : Nat) : UInt8 :=
  image (((yy * width + xx) * 4 + 3) % 2 ^ 32)

/-- The part of `GifWriteLzwImage` behind the minimum code size. `chunk` is what was in the memory
of the chunk before. -/
def gifWriteImageData (buffer : GifVectorFileBuffer) (image : Nat → UInt8)
    (width height minCodeSize : Nat) (chunk : Nat → UInt8) : GifVectorFileBuffer :=
  let clearCode := 1 <<< minCodeSize
  let stat : GifBitStatus := { bitIndex := 0, byte := 0, chunkIndex := 0, chunk := chunk }
  let s : LzwState :=
    { codetree := fun _ _ => 0
      curCode := -1
      codeSize := minCodeSize + 1
      maxCode := clearCode + 1
      out := gifWriteCode buffer stat clearCode (minCodeSize + 1) }
  let s := (List.range height).foldl
    (fun s yy => (List.range width).foldl
      (fun s xx => lzwPixel minCodeSize s (alphaAt image width yy xx)) s) s
  -- compression footer
  let out := gifWriteCode s.out.1 s.out.2 s.code s.codeSize
  let out := gifWriteCode out.1 out.2 clearCode s.codeSize
  let out := gifWriteCode out.1 out.2 (clearCode + 1) (minCodeSize + 1)
  flushChunk out.1 out.2

/-- `GifWriteLzwImage`. -/
def gifWriteLzwImage (buffer : GifVectorFileBuffer) (image : Nat → UInt8)
    (left top width height delay : Nat) (pPal : GifPalette) (chunk : Nat → UInt8) :
    GifVectorFileBuffer :=
  gifWriteImageData (gifWriteImageHeader buffer left top width height delay pPal) image width
    height pPal.bitDepth chunk

/-! ### The tree of codes and the words -/

open Lzw

/-- The encoder the loop has reached, for symbols of `m` bits: the bits written are `bits`, and the
tree leads from the code of each word to those of its extensions. -/
structure Represents (m : Nat) (base : List UInt8) (bits : List Bool) (e : Encoder)
    (s : LzwState) : Prop where
  valid : e.Valid m
  writes : Writes base bits s.out
  maxCode : s.maxCode = lastCode m e.dict
  codeSize : s.codeSize = e.width m
  curCode : s.curCode = code m e.dict e.cur
  next : ∀ {w}, Known m e.dict w → ∀ x, s.codetree (code m e.dict w) x =
    if w ++ [x.toNat] ∈ e.dict then UInt16.ofNat (code m e.dict (w ++ [x.toNat])) else 0
  unused : ∀ {c}, lastCode m e.dict < c → ∀ x, s.codetree c x = 0

namespace Represents

variable {m : Nat} {base : List UInt8} {bits : List Bool} {e : Encoder} {s : LzwState}

lemma lastCode_lt (h : Represents m base bits e s) : lastCode m e.dict < 4095 := by
  have hroom := h.valid.room
  rw [capacity] at hroom
  rw [lastCode]
  omega

lemma code_le (h : Represents m base bits e s) : code m e.dict e.cur ≤ lastCode m e.dict :=
  h.valid.known.code_le h.valid.dict.long

/-- The current code is not changed by the cast it is written with. -/
lemma code_eq (h : Represents m base bits e s) : s.code = code m e.dict e.cur := by
  have h1 := h.lastCode_lt
  have h2 := h.code_le
  rw [LzwState.code, h.curCode]
  omega

lemma toNat_curCode (h : Represents m base bits e s) :
    s.curCode.toNat = code m e.dict e.cur := by
  rw [h.curCode, Int.toNat_natCast]

lemma codeSize_succ (h : Represents m base bits e s) :
    (if s.maxCode + 1 ≥ 1 <<< s.codeSize then s.codeSize + 1 else s.codeSize) =
      (firstCode m + e.dict.length).size := by
  have hlt : lastCode m e.dict < 2 ^ (lastCode m e.dict).size := Nat.lt_size_self _
  have hsize := size_succ (lastCode m e.dict)
  have hnext : firstCode m + e.dict.length = lastCode m e.dict + 1 := by
    rw [lastCode, firstCode_eq]
    omega
  rw [h.maxCode, h.codeSize, Encoder.width, Nat.one_shiftLeft, hnext, hsize]
  split
  · rw [if_pos (by omega)]
  · rw [if_neg (by omega)]

/-- The code of an extension fits a node of the tree. -/
lemma toNat_code (h : Represents m base bits e s) {w : List Nat} (hw : w ∈ e.dict) :
    (UInt16.ofNat (code m e.dict w)).toNat = code m e.dict w ∧ code m e.dict w ≠ 0 := by
  have hlt := h.lastCode_lt
  have hle := (Known.word (m := m) hw).code_le h.valid.dict.long
  constructor
  · rw [UInt16.toNat_ofNat']
    exact Nat.mod_eq_of_lt (hle.trans_lt (hlt.trans (by decide)))
  · rw [code_of_long (h.valid.dict.long _ hw)]
    exact Nat.ne_of_gt (Nat.add_pos_left (Nat.succ_pos _) _)

/-- The tree has an edge for the next symbol exactly when the extended word is known. -/
lemma next_cur (h : Represents m base bits e s) (x : UInt8) :
    s.codetree s.curCode.toNat x ≠ 0 ↔ e.cur ++ [x.toNat] ∈ e.dict := by
  rw [h.toNat_curCode, h.next h.valid.known]
  by_cases hmem : e.cur ++ [x.toNat] ∈ e.dict
  · obtain ⟨h1, h2⟩ := h.toNat_code hmem
    rw [if_pos hmem]
    refine iff_of_true (fun h0 => h2 ?_) hmem
    rw [← h1, h0]
    rfl
  · rw [if_neg hmem]
    exact iff_of_false (fun h0 => h0 rfl) hmem

lemma flush (h : Represents m base bits e s) :
    Writes base (bits ++ e.flush m) (gifWriteCode s.out.1 s.out.2 s.code s.codeSize) := by
  rw [Encoder.flush, ← h.code_eq, ← h.codeSize]
  exact h.writes.writeCode _ _

/-- The entries for other words than the new one stay. -/
lemma node_append {dict : List (List Nat)} (hdict : Dictionary m dict) {w new : List Nat}
    (hne : w ≠ new) :
    (if w ∈ dict ++ [new] then UInt16.ofNat (code m (dict ++ [new]) w) else 0) =
      if w ∈ dict then UInt16.ofNat (code m dict w) else 0 := by
  by_cases hmem : w ∈ dict
  · rw [if_pos hmem, if_pos (List.mem_append_left _ hmem), hdict.code_append (.word hmem)]
  · rw [if_neg hmem, if_neg]
    rw [List.mem_append, List.mem_singleton]
    exact not_or.mpr ⟨hmem, hne⟩

/-- Inserting the new word adds its edge and changes no other. -/
lemma insert (h : Represents m base bits e s) {x : UInt8} (hnew : e.cur ++ [x.toNat] ∉ e.dict)
    {w : List Nat} (hw : Known m (e.dict ++ [e.cur ++ [x.toNat]]) w) (y : UInt8) :
    Function.update s.codetree s.curCode.toNat
        (Function.update (s.codetree s.curCode.toNat) x (UInt16.ofNat (s.maxCode + 1)))
        (code m (e.dict ++ [e.cur ++ [x.toNat]]) w) y =
      if w ++ [y.toNat] ∈ e.dict ++ [e.cur ++ [x.toNat]] then
        UInt16.ofNat (code m (e.dict ++ [e.cur ++ [x.toNat]]) (w ++ [y.toNat]))
      else 0 := by
  have hdict := h.valid.dict
  have hcur := h.valid.known
  rw [h.toNat_curCode, h.maxCode]
  by_cases hwcur : w = e.cur
  · subst hwcur
    rw [hdict.code_append hcur, Function.update_self]
    by_cases hxy : y = x
    · subst hxy
      rw [Function.update_self, if_pos (by simp), hdict.code_new hcur hnew]
    · have hne : e.cur ++ [y.toNat] ≠ e.cur ++ [x.toNat] := by
        simpa [UInt8.toNat_inj] using hxy
      rw [Function.update_of_ne hxy, h.next hcur, node_append hdict hne]
  · have hne : w ++ [y.toNat] ≠ e.cur ++ [x.toNat] := fun heq =>
      hwcur (List.append_inj' heq rfl).1
    by_cases hold : Known m e.dict w
    · have hcode : code m e.dict w ≠ code m e.dict e.cur := fun heq =>
        hwcur (hold.code_inj hdict.long hcur heq)
      rw [hdict.code_append hold, Function.update_of_ne hcode, h.next hold, node_append hdict hne]
    · -- the new word: its node was not used and nothing extends it
      have hwnew : w = e.cur ++ [x.toNat] := by
        rcases hw.cases with ⟨z, hz, rfl⟩ | hw
        · exact absurd (.symbol hz) hold
        · rcases List.mem_append.mp hw with hw | hw
          · exact absurd (.word hw) hold
          · exact List.mem_singleton.mp hw
      have hcode : code m (e.dict ++ [e.cur ++ [x.toNat]]) w = lastCode m e.dict + 1 := by
        rw [hwnew, hdict.code_new hcur hnew]
      have hle := h.code_le
      rw [hcode, Function.update_of_ne (by omega), h.unused (Nat.lt_succ_self _),
        node_append hdict hne, if_neg fun hmem => hold (hdict.closed hmem)]

/-- The loop takes a pixel as the encoder takes a symbol. -/
lemma lzwPixel (hm : 2 ≤ m) (hm' : m < 12) (h : Represents m base bits e s) {x : UInt8}
    (hx : x.toNat < 2 ^ m) :
    Represents m base (bits ++ (e.push m x.toNat).2) (e.push m x.toNat).1
      (GifTools.lzwPixel m s x) := by
  have hvalid := h.valid.push hm' hx
  have hnonneg : ¬ s.curCode < 0 := by
    rw [h.curCode]
    omega
  have hnext := h.next_cur x
  rw [GifTools.lzwPixel, if_neg hnonneg]
  rcases Encoder.push_cases h.valid.cur_ne_nil x.toNat with
    ⟨hmem, heq⟩ | ⟨hmem, hfull, heq⟩ | ⟨hmem, hroom, heq⟩ <;> rw [heq] at hvalid ⊢
  · rw [if_pos (hnext.mpr hmem), List.append_nil]
    refine { h with valid := hvalid, writes := h.writes, curCode := ?_, maxCode := h.maxCode,
                    codeSize := h.codeSize }
    simp only
    rw [h.toNat_curCode, h.next h.valid.known, if_pos hmem, (h.toNat_code hmem).1]
  · rw [List.length_append, List.length_singleton, capacity] at hfull
    have hmax : s.maxCode + 1 = 4095 := by
      rw [h.maxCode, lastCode]
      omega
    have hwrites := h.flush.writeCode (clearCode m) (firstCode m + e.dict.length).size
    rw [List.append_assoc, ← lastCode_append m e.dict (e.cur ++ [x.toNat])] at hwrites
    rw [if_neg (mt hnext.mp hmem)]
    simp only [h.codeSize_succ, if_pos hmax, Nat.one_shiftLeft m]
    exact
      { valid := hvalid
        writes := by rwa [lastCode_append] at hwrites ⊢
        maxCode := rfl
        codeSize := (size_endCode hm).symm
        curCode := rfl
        next := fun _ _ => (if_neg List.not_mem_nil).symm
        unused := fun _ _ => rfl }
  · rw [List.length_append, List.length_singleton, capacity] at hroom
    have hmax : s.maxCode + 1 ≠ 4095 := by
      rw [h.maxCode, lastCode]
      omega
    rw [if_neg (mt hnext.mp hmem)]
    simp only [h.codeSize_succ, if_neg hmax]
    exact
      { valid := hvalid
        writes := h.flush
        maxCode := by
          change s.maxCode + 1 = _
          rw [h.maxCode, lastCode_append, lastCode, firstCode_eq]
          omega
        codeSize := by rw [Encoder.width, lastCode_append]
        curCode := rfl
        next := fun hw y => h.insert hmem hw y
        unused := fun {c} hc y => by
          have hle := h.code_le
          rw [lastCode_append, firstCode_eq] at hc
          have hlast : lastCode m e.dict = endCode m + e.dict.length := rfl
          simp only
          rw [h.toNat_curCode, Function.update_of_ne (by omega), h.unused (by omega)] }

lemma pixels (hm : 2 ≤ m) (hm' : m < 12) (h : Represents m base bits e s) {xs : List UInt8}
    (hxs : ∀ x ∈ xs, x.toNat < 2 ^ m) :
    Represents m base (bits ++ (e.pushAll m (xs.map UInt8.toNat)).2)
      (e.pushAll m (xs.map UInt8.toNat)).1 (xs.foldl (GifTools.lzwPixel m) s) := by
  induction xs generalizing bits e s with
  | nil => simpa [Encoder.pushAll] using h
  | cons x xs ih =>
    have hpush := h.lzwPixel hm hm' (hxs x List.mem_cons_self)
    have := ih hpush fun y hy => hxs y (List.mem_cons_of_mem _ hy)
    rwa [List.append_assoc] at this

/-- The footer is written as the encoder's is. -/
lemma footer (h : Represents m base bits e s) :
    let out := gifWriteCode s.out.1 s.out.2 s.code s.codeSize
    let out := gifWriteCode out.1 out.2 (1 <<< m) s.codeSize
    Writes base (bits ++ e.footer m) (gifWriteCode out.1 out.2 (1 <<< m + 1) (m + 1)) := by
  have h1 := h.flush.writeCode (clearCode m) (e.width m)
  have h2 := h1.writeCode (endCode m) (m + 1)
  rw [← h.codeSize, List.append_assoc, List.append_assoc] at h2
  rw [Encoder.footer, ← h.codeSize, Nat.one_shiftLeft]
  exact h2

end Represents

/-- The loop after the first pixel. -/
lemma represents_first {m : Nat} (hm : 2 ≤ m) (hm' : m < 12) (buffer : GifVectorFileBuffer)
    (chunk : Nat → UInt8) {x : UInt8} (hx : x.toNat < 2 ^ m) :
    Represents m buffer.contents (Bits.natBits (m + 1) (clearCode m)) ⟨[], [x.toNat]⟩
      (lzwPixel m ⟨fun _ _ => 0, -1, m + 1, 1 <<< m + 1,
        gifWriteCode buffer ⟨0, 0, 0, chunk⟩ (1 <<< m) (m + 1)⟩ x) where
  valid := valid_first hm' hx
  writes := by
    rw [Nat.one_shiftLeft]
    exact (writes_start buffer chunk).writeCode (clearCode m) (m + 1)
  maxCode := congrArg (· + 1) (Nat.one_shiftLeft m)
  codeSize := (size_endCode hm).symm
  curCode := rfl
  next _ _ := (if_neg List.not_mem_nil).symm
  unused _ _ := rfl

/-! ### What is written -/

/-- The pixel indices in row order, as the loop reads them. -/
def rowIndices (image : Nat → UInt8) (width height : Nat) : List UInt8 :=
  (List.range height).flatMap fun yy => (List.range width).map fun xx => alphaAt image width yy xx

@[simp] lemma length_rowIndices (image : Nat → UInt8) (width height : Nat) :
    (rowIndices image width height).length = width * height := by
  simp [rowIndices, Nat.mul_comm]

/-- The indices of an image that a `uint32_t` can address are its alpha bytes. -/
lemma rowIndices_eq {image : Nat → UInt8} {width height : Nat}
    (h : 4 * (width * height) ≤ 2 ^ 32) :
    rowIndices image width height =
      (List.range (width * height)).map fun i => image (4 * i + 3) := by
  have hrow : ∀ yy < height, ((List.range width).map fun xx => alphaAt image width yy xx) =
      (List.range' (yy * width) width).map fun i => image (4 * i + 3) := by
    intro yy hyy
    rw [List.range'_eq_map_range, List.map_map]
    apply List.map_congr_left
    intro xx hxx
    have hlt : yy * width + xx < width * height := by
      have hxx := List.mem_range.mp hxx
      have := Nat.mul_le_mul_right width (Nat.succ_le_of_lt hyy)
      rw [Nat.succ_mul, Nat.mul_comm height] at this
      omega
    rw [alphaAt, Nat.mod_eq_of_lt (by omega), Function.comp_apply]
    congr 1
    omega
  rw [rowIndices]
  clear h
  induction height with
  | zero => rfl
  | succ height ih =>
    rw [List.range_succ, List.flatMap_append, ih fun yy hyy => hrow yy (by omega),
      List.flatMap_singleton, hrow height (Nat.lt_succ_self _), Nat.mul_succ, List.range_add,
      List.map_append, List.range'_eq_map_range, Nat.mul_comm height]

/-- The data behind the minimum code size: sub-blocks whose bits are those of the encoder. -/
theorem writes_encode {m : Nat} (hm : 2 ≤ m) (hm' : m < 12) (buffer : GifVectorFileBuffer)
    {image : Nat → UInt8} {width height : Nat} (hne : rowIndices image width height ≠ [])
    (hlt : ∀ x ∈ rowIndices image width height, x.toNat < 2 ^ m) (chunk : Nat → UInt8) :
    ∃ blocks : List (List UInt8), (∀ bytes ∈ blocks, bytes ≠ [] ∧ bytes.length ≤ 255) ∧
      (gifWriteImageData buffer image width height m chunk).contents =
        buffer.contents ++ (blocks.flatMap block ++ [0]) ∧
      ∃ k < 8, Bits.byteBits blocks.flatten =
        encode m ((rowIndices image width height).map UInt8.toNat) ++ List.replicate k false := by
  obtain ⟨x, xs, hrow⟩ := List.exists_cons_of_ne_nil hne
  rw [hrow] at hlt
  have hfirst := represents_first hm hm' buffer chunk (hlt x List.mem_cons_self)
  have hlast := hfirst.pixels hm hm' fun y hy => hlt y (List.mem_cons_of_mem _ hy)
  have hflush := hlast.footer.flushChunk
  have hloop (s : LzwState) : (List.range height).foldl (fun s yy => (List.range width).foldl
      (fun s xx => lzwPixel m s (alphaAt image width yy xx)) s) s =
        (rowIndices image width height).foldl (lzwPixel m) s := by
    simp only [rowIndices, List.foldl_flatMap, List.foldl_map]
  have hbits : Bits.natBits (m + 1) (clearCode m) ++
      ((⟨[], [x.toNat]⟩ : Encoder).pushAll m (xs.map UInt8.toNat)).2 ++
        ((⟨[], [x.toNat]⟩ : Encoder).pushAll m (xs.map UInt8.toNat)).1.footer m =
      encode m ((rowIndices image width height).map UInt8.toNat) := by
    rw [hrow, List.append_assoc]
    rfl
  rw [hbits] at hflush
  rw [gifWriteImageData]
  simp only [hloop, hrow, List.foldl_cons]
  exact hrow ▸ hflush

/-- Pixel indices are symbols of 8 bits. -/
lemma toNat_lt_of_mem (indices : List UInt8) : ∀ x ∈ indices.map UInt8.toNat, x < 2 ^ 8 := by
  intro x hx
  obtain ⟨y, -, rfl⟩ := List.mem_map.mp hx
  exact y.toNat_lt

lemma rowIndices_ne_nil (image : Nat → UInt8) {width height : Nat} (hwidth : 0 < width)
    (hheight : 0 < height) : rowIndices image width height ≠ [] := by
  intro h
  have := congrArg List.length h
  rw [length_rowIndices, List.length_nil] at this
  exact absurd this (Nat.mul_pos hwidth hheight).ne'

/-- The bytes behind the minimum code size are sub-blocks from which a decoder gets the pixel
indices in row order. -/
theorem gifWriteLzwImage_decodes (buffer : GifVectorFileBuffer) (image : Nat → UInt8)
    (left top delay : Nat) {width height : Nat} (hwidth : 0 < width) (hheight : 0 < height)
    {pPal : GifPalette} (hdepth : pPal.bitDepth = 8) (chunk : Nat → UInt8) :
    ∃ data payload,
      (gifWriteLzwImage buffer image left top width height delay pPal chunk).contents =
        (gifWriteImageHeader buffer left top width height delay pPal).contents ++ data ∧
      subBlocks 0 data = some (payload, []) ∧
      (decode 8 (Bits.byteBits payload)).take (width * height) =
        (rowIndices image width height).map UInt8.toNat ∧
      (4 * (width * height) ≤ 2 ^ 32 → rowIndices image width height =
        (List.range (width * height)).map fun i => image (4 * i + 3)) := by
  have hne : rowIndices image width height ≠ [] := rowIndices_ne_nil image hwidth hheight
  obtain ⟨blocks, hblocks, hcontents, k, -, hbits⟩ := writes_encode (by decide) (by decide)
    (gifWriteImageHeader buffer left top width height delay pPal) hne
    (fun x _ => x.toNat_lt) chunk
  refine ⟨blocks.flatMap block ++ [0], blocks.flatten, ?_, subBlocks_blocks hblocks [], ?_,
    rowIndices_eq⟩
  · rw [gifWriteLzwImage, hdepth, hcontents]
  · have hne' : (rowIndices image width height).map UInt8.toNat ≠ [] := by simpa using hne
    have htake := take_decode_encode (by decide) (by decide) hne' (toNat_lt_of_mem _)
      (List.replicate k false)
    rwa [← hbits, List.length_map, length_rowIndices] at htake

/-- An image of 100 x 100 pixels, for which the dictionary grows and is reset. -/
theorem gifWriteLzwImage_decodes_squares :
    ∃ data payload,
      (gifWriteLzwImage ⟨[]⟩ (fun i => UInt8.ofNat (i * i / 64)) 0 0 100 100 10
          { (default : GifPalette) with bitDepth := 8 } fun _ => 0).contents =
        (gifWriteImageHeader ⟨[]⟩ 0 0 100 100 10
          { (default : GifPalette) with bitDepth := 8 }).contents ++ data ∧
      subBlocks 0 data = some (payload, []) ∧
      (decode 8 (Bits.byteBits payload)).take (100 * 100) =
        (rowIndices (fun i => UInt8.ofNat (i * i / 64)) 100 100).map UInt8.toNat ∧
      (4 * (100 * 100) ≤ 2 ^ 32 → rowIndices (fun i => UInt8.ofNat (i * i / 64)) 100 100 =
        (List.range (100 * 100)).map fun i =>
          (fun i => UInt8.ofNat (i * i / 64)) (4 * i + 3)) :=
  gifWriteLzwImage_decodes ⟨[]⟩ (fun i => UInt8.ofNat (i * i / 64)) 0 0 10 (by decide) (by decide)
    rfl fun _ => 0

end GifTools
