import GifTools.Png.Codes

/-!
# Streams of any blocks

Stored blocks are copied, the others are read in their codes, and the blocks follow each other up to
the last one. Whoever has compressed the data, they are what is given back.
-/

namespace GifTools

open Bits Canonical Cells Deflate

variable {a b c : Zbuf} {n r v : Nat} {data out : List UInt8}

/-! ### Stored blocks -/

/-- Whole bytes in the buffer. -/
lemma drainBits_spec (ha : a.Good) (hbits : a.num_bits % 8 = 0) (hn : a.num_bits ≤ 8 * n)
    (header : List UInt8) :
    ∃ bytes b, drainBits n a header = (header ++ bytes, b) ∧ b.num_bits = 0 ∧
      8 * bytes.length = a.num_bits ∧ Reads (8 * bytes.length) a b ∧
      a.stream = ahead (byteBits bytes) b.stream := by
  induction n generalizing a header with
  | zero =>
    have hzero : a.num_bits = 0 := by omega
    refine ⟨[], a, by rw [drainBits, List.append_nil], hzero, hzero.symm, reads_refl ha, ?_⟩
    exact (ahead_nil _).symm
  | succ n ih =>
    rw [drainBits]
    split_ifs with hpos
    · have hreads := reads_shift (n := 8) ha (by omega)
      obtain ⟨bytes, b, hb, hempty, hlength, hreads', hstream⟩ := ih hreads.good
        (by simp only; omega) (by simp only; omega)
        (header ++ [UInt8.ofNat (a.code_buffer &&& 255)])
      refine ⟨UInt8.ofNat (a.code_buffer &&& 255) :: bytes, b, ?_, hempty, ?_, ?_, ?_⟩
      · rw [hb, List.append_assoc]
        rfl
      · rw [List.length_cons]
        simp only at hlength
        omega
      · rw [List.length_cons, Nat.mul_add, Nat.add_comm]
        exact hreads.trans hreads'
      · have hbyte : (UInt8.ofNat (a.code_buffer &&& 255)).toNat = a.stream % 2 ^ 8 := by
          rw [UInt8.toNat_ofNat', show (255 : Nat) = 2 ^ 8 - 1 by rfl,
            Nat.and_two_pow_sub_one_eq_mod, code_buffer_mod (by omega)]
          exact Nat.mod_mod _ _
        rw [byteBits_cons, ahead_append, ← hstream, hreads.stream_eq, hbyte, ahead_natBits_mod]
    · have hzero : a.num_bits = 0 := by omega
      refine ⟨[], a, by rw [List.append_nil], hzero, hzero.symm, reads_refl ha, ?_⟩
      exact (ahead_nil _).symm

lemma stream_of_num_bits (ha : a.Good) (hzero : a.num_bits = 0) :
    a.code_buffer = 0 ∧ a.stream = bitsNat (byteBits a.zbuffer) := by
  have hlt := ha.code_buffer_lt
  rw [hzero, pow_zero, Nat.lt_one_iff] at hlt
  rw [Zbuf.stream, hlt, hzero, pow_zero, Nat.one_mul, Nat.zero_add]
  exact ⟨rfl, rfl⟩

/-- Bytes behind an empty buffer. -/
lemma fillHeader_spec (ha : a.Good) (hzero : a.num_bits = 0) (n : Nat) (header : List UInt8) :
    ∃ bytes b, fillHeader n a header = (header ++ bytes, b) ∧ bytes.length = n ∧
      b.num_bits = 0 ∧ Reads (8 * n) a b ∧ a.stream = ahead (byteBits bytes) b.stream := by
  induction n generalizing a header with
  | zero =>
    refine ⟨[], a, by rw [fillHeader, List.append_nil], rfl, hzero, reads_refl ha, ?_⟩
    exact (ahead_nil _).symm
  | succ n ih =>
    obtain ⟨hcode, hstream⟩ := stream_of_num_bits ha hzero
    have hget : Reads 8 a { a with zbuffer := a.zbuffer.tail } := by
      refine ⟨⟨ha.1, ha.2⟩, ?_, ?_, rfl, rfl, rfl, rfl⟩
      · have hbyte := (a.zbuffer.headD 0).toNat_lt
        rw [hstream, bitsNat_byteBits, Zbuf.stream, hcode, hzero]
        simp only
        omega
      · rintro r ⟨k, hleft, hend⟩
        have hne : a.zbuffer ≠ [] := by
          intro hz
          rw [hz, List.length_nil] at hleft
          omega
        refine ⟨k, ?_, fun hk => absurd (hend hk) hne⟩
        simp only [List.length_tail]
        omega
    obtain ⟨bytes, b, hb, hlength, hempty, hreads, hstream'⟩ :=
      ih hget.good hzero (header ++ [a.zbuffer.headD 0])
    refine ⟨a.zbuffer.headD 0 :: bytes, b, ?_, congrArg Nat.succ hlength, hempty, ?_, ?_⟩
    · simp only [fillHeader, stbiZget8_eq]
      rw [hb, List.append_assoc]
      rfl
    · rw [Nat.mul_add, Nat.add_comm]
      exact hget.trans hreads
    · have hbyte : (a.zbuffer.headD 0).toNat = a.stream % 2 ^ 8 := by
        have hlt := (a.zbuffer.headD 0).toNat_lt
        rw [hstream, bitsNat_byteBits]
        omega
      rw [byteBits_cons, ahead_append, ← hstream', hget.stream_eq, hbyte, ahead_natBits_mod]

/-- The header of a stored block, wherever its bytes are. -/
lemma storedHeader_spec (ha : a.Good) (hbits : a.num_bits % 8 = 0) :
    ∃ header b, fillHeader (4 - (drainBits 4 a []).1.length) (drainBits 4 a []).2
        (drainBits 4 a []).1 = (header, b) ∧
      header.length = 4 ∧ b.num_bits = 0 ∧ Reads 32 a b ∧
      a.stream = ahead (byteBits header) b.stream := by
  have hle := ha.num_bits_le
  obtain ⟨drained, b, hb, hempty, hlength, hreads, hstream⟩ :=
    drainBits_spec ha hbits (n := 4) (by omega) []
  obtain ⟨filled, c, hc, hlength', hempty', hreads', hstream'⟩ :=
    fillHeader_spec hreads.good hempty (4 - drained.length) drained
  rw [List.nil_append] at hb
  refine ⟨drained ++ filled, c, by rw [hb]; exact hc, ?_, hempty', ?_, ?_⟩
  · rw [List.length_append]
    omega
  · have hsum : 8 * drained.length + 8 * (4 - drained.length) = 32 := by omega
    rw [← hsum]
    exact hreads.trans hreads'
  · rw [byteBits_append, ahead_append, ← hstream', hstream]

/-- What the header says of the length. -/
lemma lengths_of_header {header : List UInt8} {len nlen : Nat} (hlength : header.length = 4)
    (hlen : len < 2 ^ 16) (hnlen : nlen < 2 ^ 16)
    (h : byteBits header = natBits 16 len ++ natBits 16 nlen) :
    (header.getD 1 0).toNat * 256 + (header.getD 0 0).toNat = len ∧
      (header.getD 3 0).toNat * 256 + (header.getD 2 0).toNat = nlen := by
  obtain ⟨b0, b1, b2, b3, rfl⟩ : ∃ b0 b1 b2 b3, header = [b0, b1, b2, b3] :=
    List.length_eq_four.mp hlength
  have h0 := b0.toNat_lt
  have h1 := b1.toNat_lt
  have h2 := b2.toNat_lt
  have h3 := b3.toNat_lt
  have hbits := congrArg bitsNat h
  rw [bitsNat_append, length_natBits, bitsNat_natBits hlen, bitsNat_natBits hnlen] at hbits
  simp only [byteBits_cons, bitsNat_append, length_natBits, bitsNat_natBits (n := 8) h0,
    bitsNat_natBits (n := 8) h1, bitsNat_natBits (n := 8) h2, bitsNat_natBits (n := 8) h3] at hbits
  have hnil : bitsNat (byteBits []) = 0 := rfl
  rw [hnil] at hbits
  change b1.toNat * 256 + b0.toNat = len ∧ b3.toNat * 256 + b2.toNat = nlen
  omega

lemma xor_ones {len : Nat} (h : len < 2 ^ 16) : len ^^^ 0xffff = 2 ^ 16 - 1 - len := by
  have hnot := congrArg BitVec.toNat (BitVec.xor_allOnes (x := BitVec.ofNat 16 len))
  rwa [BitVec.toNat_xor, BitVec.toNat_not, BitVec.toNat_ofNat, Nat.mod_eq_of_lt h] at hnot

/-- The bits up to the next byte. -/
lemma reads_pad (ha : a.Good) (hn : n < 8) (hbits : a.num_bits % 8 = n) :
    ∃ b, (if a.num_bits % 8 ≠ 0 then (stbiZreceive a (a.num_bits % 8)).2 else a) = b ∧
      b.num_bits % 8 = 0 ∧ Reads n a b := by
  rw [hbits]
  refine ⟨_, rfl, ?_, ?_⟩
  · split_ifs with hne
    · have hmore : ¬ a.num_bits < n := by omega
      simp only [stbiZreceive, if_neg hmore]
      omega
    · omega
  · split_ifs with hne
    · exact (reads_stbiZreceive ha (by omega)).2
    · rw [not_not.mp hne]
      exact reads_refl ha

/-- An empty buffer has not been filled from behind the end of the input. -/
lemma length_zbuffer_of_holds (hempty : a.num_bits = 0) (hr : r % 8 = 0)
    (h : a.Holds (8 * n + r)) : 8 * a.zbuffer.length = 8 * n + r := by
  obtain ⟨k, hleft, hend⟩ := h
  rw [hempty, Nat.zero_add] at hleft
  rcases Nat.eq_zero_or_pos k with rfl | hk
  · exact hleft
  · rw [hend hk.ne', List.length_nil] at hleft
    omega

/-- A stored block, at the end of which `r` bits are left. -/
lemma parseUncompressedBlock_of_ahead {pad : List Bool} (ha : a.Good) (hpad : pad.length < 8)
    (hdata : data.length < 2 ^ 16) {total : Nat} (htotal : HasRoom a.zout_end total)
    (hlength : (a.zout ++ data).length ≤ total) (hr : r % 8 = 0)
    (hholds : a.Holds (pad.length + (32 + (8 * data.length + r))))
    (hv : a.stream = ahead (pad ++ (natBits 16 data.length ++
      natBits 16 (2 ^ 16 - 1 - data.length)) ++ byteBits data) v) :
    ∃ b, stbiParseUncompressedBlock a = .ok b ∧ b.Good ∧ b.Room ∧ HasRoom b.zout_end total ∧
      b.zout = a.zout ++ data ∧ b.stream = v ∧ b.Holds r := by
  have hmod : a.num_bits % 8 = pad.length := by
    obtain ⟨k, hleft, -⟩ := hholds
    omega
  obtain ⟨b, hb, hbits, hreads⟩ := reads_pad ha hpad hmod
  obtain ⟨header, c, hc, hfour, hempty, hreads', hstream⟩ := storedHeader_spec hreads.good hbits
  -- the bits of the header
  rw [List.append_assoc, ahead_append, ahead_append] at hv
  have hbv : b.stream = ahead (natBits 16 data.length ++ natBits 16 (2 ^ 16 - 1 - data.length))
      (ahead (byteBits data) v) := by rw [hreads.stream_eq, hv, ahead_div]
  obtain ⟨hheader, hcv⟩ := ahead_inj (by
    rw [length_byteBits, hfour, List.length_append, length_natBits, length_natBits])
    (hstream.symm.trans hbv)
  obtain ⟨hlen, hnlen⟩ := lengths_of_header hfour hdata (by omega) hheader
  -- the bytes behind it
  have hzlength := length_zbuffer_of_holds hempty hr (hreads'.uses _ (hreads.uses _ hholds))
  have hle : data.length ≤ c.zbuffer.length := by omega
  obtain ⟨hcode, hcstream⟩ := stream_of_num_bits hreads'.good hempty
  rw [hcstream, ← List.take_append_drop data.length c.zbuffer, byteBits_append, bitsNat_append]
    at hcv
  obtain ⟨htake, hdrop⟩ := ahead_inj (by
    rw [length_byteBits, length_byteBits, List.length_take_of_le hle]) hcv
  have hzout : c.zout = a.zout := hreads'.zout_eq.trans hreads.zout_eq
  have hend : c.zout_end = a.zout_end := hreads'.zout_end_eq.trans hreads.zout_end_eq
  rw [← hzout, List.length_append] at hlength
  obtain ⟨j, hj, hfits, hlt, htotal'⟩ := makeRoom_ok (hend.symm ▸ htotal) hlength
  refine ⟨{ c with
      zbuffer := c.zbuffer.drop data.length
      zout := c.zout ++ data
      zout_end := 2 ^ j * c.zout_end }, ?_, ⟨hreads'.good.1, hreads'.good.2⟩, ⟨?_, hlt⟩, htotal',
    ?_, ?_, ?_⟩
  · simp only [stbiParseUncompressedBlock, hb, hc, hlen, hnlen, xor_ones hdata]
    rw [if_neg (not_not.mpr rfl), if_neg (not_lt.mpr hle), hj]
    simp only [bind, Except.bind, byteBits_injective htake]
    rfl
  · rwa [List.length_append]
  · rw [hzout]
  · rw [Zbuf.stream, hcode, hempty, pow_zero, Nat.one_mul, Nat.zero_add]
    exact hdrop
  · refine ⟨0, ?_, fun h => absurd rfl h⟩
    simp only [hempty, List.length_drop]
    omega

/-! ### Blocks -/

lemma parseBlock_fixed {a : Zbuf} {z_length z_distance : Zhuffman}
    (hlength : stbiZbuildHuffman a.z_length zdefaultLength = .ok z_length)
    (hdistance : stbiZbuildHuffman a.z_distance zdefaultDistance = .ok z_distance)
    (rounds : Nat) (g : Zhuffman) : parseBlock rounds g 1 a =
      stbiParseHuffmanBlock rounds { a with z_length := z_length, z_distance := z_distance } := by
  rw [parseBlock, if_neg (by decide), if_neg (by decide), if_pos rfl, hlength]
  simp only [bind, Except.bind, hdistance]
  rfl

lemma ready_zdefault (g h : Zhuffman) : ∃ z_length z_distance,
    stbiZbuildHuffman g zdefaultLength = .ok z_length ∧
      stbiZbuildHuffman h zdefaultDistance = .ok z_distance ∧
      TableFor fixedLit z_length ∧ TableFor fixedDist z_distance := by
  have hlit : ∀ l ∈ fixedLit, l ≤ 15 := by
    intro l hl
    obtain ⟨i, hi, rfl⟩ := List.mem_iff_getElem.mp hl
    rw [length_fixedLit] at hi
    rw [← len_eq_getElem]
    exact (len_fixedLit hi).2.trans (by decide)
  have hdist : ∀ l ∈ fixedDist, l ≤ 15 := by
    intro l hl
    rw [List.eq_of_mem_replicate hl]
    decide
  obtain ⟨z_length, hlength⟩ := build_ok g hlit fits_fixedLit
  obtain ⟨z_distance, hdistance⟩ := build_ok h hdist fits_fixedDist
  exact ⟨z_length, z_distance, hlength, hdistance,
    tableFor_of_build hlit length_fixedLit.le hlength,
    tableFor_of_build hdist (by rw [fixedDist, List.length_replicate]; decide) hdistance⟩

lemma parseBlock_dynamic {g : Zhuffman} (h : stbiComputeHuffmanCodes a g = .ok b) (rounds : Nat) :
    parseBlock rounds g 2 a = stbiParseHuffmanBlock rounds b := by
  rw [parseBlock, if_neg (by decide), if_neg (by decide), if_neg (by decide), h]
  rfl

/-- A block behind the bit that says whether it is the last one; `r` bits are left behind it. -/
lemma parseBlock_of_ahead {block : Block} {pos rounds : Nat} (ha : a.Good) (hroom : a.Room)
    (hvalid : block.Valid pos) (hout : block.apply a.zout = some out) {total : Nat}
    (htotal : HasRoom a.zout_end total) (hlength : out.length ≤ total)
    (hv : a.stream = ahead block.bits v) (hholds : a.Holds (block.bits.length + r))
    (halign : (pos + (block.bits.length + r)) % 8 = 0) (hrounds : block.tokens.length < rounds)
    (g : Zhuffman) :
    ∃ type b c, stbiZreceive a 2 = (type, b) ∧ parseBlock rounds g type b = .ok c ∧ c.Good ∧
      c.Room ∧ HasRoom c.zout_end total ∧ c.zout = out ∧ c.stream = v ∧ c.Holds r := by
  cases block with
  | stored pad data =>
    obtain ⟨hpad, hpos, hdata⟩ := hvalid
    cases hout
    simp only [Block.bits, List.length_append, length_natBits, length_byteBits] at hholds halign
    rw [Block.bits, ahead_append] at hv
    obtain ⟨b, hb, hreads, hbv⟩ :=
      number_of_ahead (reads_stbiZreceive ha (by decide)) (by decide) hv
    have hleft : 2 + (pad.length + (16 + 16) + 8 * data.length) + r =
        2 + (pad.length + (32 + (8 * data.length + r))) := by omega
    rw [hleft] at hholds
    obtain ⟨c, hc, hgood, hroom', htotal', hzout, hcv, hrest⟩ :=
      parseUncompressedBlock_of_ahead hreads.good hpad hdata
        (hreads.zout_end_eq.symm ▸ htotal) (hreads.zout_eq.symm ▸ hlength) (by omega)
        (hreads.uses _ hholds) hbv
    refine ⟨0, b, c, hb, ?_, hgood, hroom', htotal', ?_, hcv, hrest⟩
    · rw [parseBlock, if_pos rfl, hc]
    · rw [hzout, hreads.zout_eq]
  | fixed ts =>
    rw [Block.bits, ahead_append] at hv
    obtain ⟨b, hb, hreads, hbv⟩ :=
      number_of_ahead (reads_stbiZreceive ha (by decide)) (by decide) hv
    obtain ⟨z_length, z_distance, hfixed, hdistance, hlit, hdist⟩ :=
      ready_zdefault b.z_length b.z_distance
    have hroom' := hroom.of_reads hreads
    have hready : Ready fixedLit fixedDist
        { b with z_length := z_length, z_distance := z_distance } :=
      ⟨⟨hreads.good.1, hreads.good.2⟩, hlit, hdist, hroom'.zout_le, hroom'.zout_end_lt⟩
    have hend : 0 < len fixedLit 256 :=
      Nat.lt_of_lt_of_le (by decide) (len_fixedLit (i := 256) (by decide)).1
    obtain ⟨c, hc, hready', htotal', hzout, hcv, huses⟩ := parseHuffmanBlock_of_ahead hready hvalid
      (fun t ht => coded_fixed (hvalid t ht)) hend hbv (hreads.zout_eq.symm ▸ hout)
      (hreads.zout_end_eq.symm ▸ htotal) hlength hrounds
    rw [Block.bits, List.length_append, length_natBits, Nat.add_assoc] at hholds
    exact ⟨1, b, c, hb, (parseBlock_fixed hfixed hdistance rounds g).trans hc, hready'.good,
      hready'.room, htotal', hzout, hcv, huses _ (hreads.uses _ hholds)⟩
  | dynamic codes ts =>
    obtain ⟨hts, hend⟩ := hvalid
    rw [Block.bits, ahead_append, ahead_append] at hv
    obtain ⟨b, hb, hreads, hbv⟩ :=
      number_of_ahead (reads_stbiZreceive ha (by decide)) (by decide) hv
    obtain ⟨b', hb', hready, hzout_end, hzout, hbv', huses⟩ :=
      computeHuffmanCodes_of_ahead hreads.good (hroom.of_reads hreads) codes hbv g
    obtain ⟨c, hc, hready', htotal', hzout', hcv, huses'⟩ := parseHuffmanBlock_of_ahead hready
      (fun t ht => (hts t ht).1) (fun t ht => (hts t ht).2) hend hbv'
      ((hzout.trans hreads.zout_eq).symm ▸ hout)
      ((hzout_end.trans hreads.zout_end_eq).symm ▸ htotal) hlength hrounds
    rw [Block.bits, List.length_append, List.length_append, length_natBits, Nat.add_assoc,
      Nat.add_assoc] at hholds
    exact ⟨2, b, c, hb, (parseBlock_dynamic hb' rounds).trans hc, hready'.good, hready'.room,
      htotal', hzout', hcv, huses' _ (huses _ (hreads.uses _ hholds))⟩

/-- The blocks up to the last one. -/
lemma parseBlocks_of_ahead {bs : List Block} (pos : Nat) {rounds : Nat} (hne : bs ≠ [])
    (ha : a.Good) (hroom : a.Room) (hplaced : Placed pos bs)
    (hdata : expandBlocks a.zout bs = some data) (htotal : HasRoom a.zout_end data.length)
    (hv : a.stream = ahead (streamBits bs) v) (hholds : a.Holds ((streamBits bs).length + r))
    (halign : (pos + ((streamBits bs).length + r)) % 8 = 0)
    (hrounds : ∀ b ∈ bs, b.tokens.length < rounds) (hn : bs.length ≤ n) (g : Zhuffman) :
    ∃ c, parseBlocks rounds g n a = .ok c ∧ c.zout = data := by
  induction bs generalizing a pos n with
  | nil => exact absurd rfl hne
  | cons block bs ih =>
    obtain ⟨n, rfl⟩ : ∃ k, n = k + 1 := ⟨n - 1, by rw [List.length_cons] at hn; omega⟩
    obtain ⟨hvalid, hplaced⟩ := hplaced
    obtain ⟨mid, hmid, hrest⟩ := expandBlocks_cons_eq_some.mp hdata
    simp only [streamBits, List.length_append, length_natBits, Nat.add_assoc] at hholds halign
    rw [streamBits, ahead_append, ahead_append] at hv
    obtain ⟨b, hb, hreads, hbv⟩ := number_of_ahead (reads_stbiZreceive ha (by decide))
      (by split_ifs <;> decide) hv
    obtain ⟨type, b', c, hb', hc, hgood, hroom', htotal', hzout, hcv, hleft⟩ :=
      parseBlock_of_ahead hreads.good (hroom.of_reads hreads) hvalid (hreads.zout_eq.symm ▸ hmid)
      (hreads.zout_end_eq.symm ▸ htotal) (length_le_of_expandBlocks hplaced hrest) hbv
      (hreads.uses _ hholds) (by omega) (hrounds block List.mem_cons_self) g
    have hstep : parseBlocks rounds g (n + 1) a =
        if (if bs.isEmpty then 1 else 0) = 0 then parseBlocks rounds g n c else .ok c := by
      rw [parseBlocks, hb]
      simp only [hb', hc, bind, Except.bind]
      rfl
    rw [hstep]
    cases bs with
    | nil =>
      cases hrest
      exact ⟨c, rfl, hzout⟩
    | cons block' bs =>
      exact ih _ (List.cons_ne_nil _ _) hgood hroom' hplaced (hzout.symm ▸ hrest) htotal' hcv hleft
        (by omega)
        (fun b hb => hrounds b (List.mem_cons_of_mem _ hb))
        (by rw [List.length_cons] at hn; omega)

/-! ### Streams -/

/-- The header of a stream as `stb_image` wants it. -/
def HeaderOk (cmf flg : UInt8) : Prop :=
  (cmf.toNat * 256 + flg.toNat) % 31 = 0 ∧ flg.toNat &&& 32 = 0 ∧ cmf.toNat &&& 15 = 8

instance (cmf flg : UInt8) : Decidable (HeaderOk cmf flg) := inferInstanceAs (Decidable (_ ∧ _))

lemma parseZlibHeader_ok {a : Zbuf} {cmf flg : UInt8} {rest : List UInt8}
    (hz : a.zbuffer = cmf :: flg :: rest) (h : HeaderOk cmf flg) :
    stbiParseZlibHeader a = .ok { a with zbuffer := rest } := by
  have hfirst : stbiZget8 a = (cmf, { a with zbuffer := flg :: rest }) := by
    rw [stbiZget8, hz]
  have hsecond : stbiZget8 { a with zbuffer := flg :: rest } =
      (flg, { a with zbuffer := rest }) := rfl
  simp only [stbiParseZlibHeader, hfirst, hsecond]
  rw [if_neg (not_not.mpr h.1), if_neg (not_not.mpr h.2.1), if_neg (not_not.mpr h.2.2)]

lemma stbiZlibDecode_of_blocks {cmf flg : UInt8} {checksum bytes : List UInt8} {bs : List Block}
    (hheader : HeaderOk cmf flg) (h : IsStream [cmf, flg] checksum bytes data bs) {size : Int}
    (hsize : 0 ≤ size ∧ size < 2 ^ 31) (hroom : HasRoom size.toNat data.length) {rounds : Nat}
    (hn : bs.length ≤ rounds) (hrounds : ∀ b ∈ bs, b.tokens.length < rounds) (g : Zhuffman) :
    stbiZlibDecode rounds g bytes size true = .ok data := by
  obtain ⟨hne, hplaced, hdata, pad, -, hbits⟩ := h
  obtain ⟨rest, rfl, hrest⟩ := exists_of_byteBits_eq hbits
  have hlength := congrArg List.length hrest
  rw [length_byteBits, List.length_append] at hlength
  have hstream : Zbuf.stream ⟨rest, 0, 0, [], size.toNat, g, g⟩ =
      ahead (streamBits bs) (bitsNat (pad ++ byteBits checksum)) := by
    rw [Zbuf.stream, pow_zero, Nat.one_mul, Nat.zero_add, hrest, bitsNat_append, ahead]
  have hlimit : size.toNat < 2 ^ 31 := by omega
  obtain ⟨b, hb, hout⟩ := parseBlocks_of_ahead 0 (r := (pad ++ byteBits checksum).length)
    hne (show Zbuf.Good ⟨rest, 0, 0, [], size.toNat, g, g⟩ from ⟨Nat.one_pos, Nat.zero_le _⟩)
    ⟨Nat.zero_le _, hlimit⟩ hplaced hdata hroom hstream
    ⟨0, by simp only; omega, fun h => absurd rfl h⟩ (by omega) hrounds hn g
  have hparse := parseZlibHeader_ok (a := ⟨cmf :: flg :: rest, 0, 0, [], size.toNat, g, g⟩) rfl
    hheader
  have hmalloc : stbiParseZlib rounds g true ⟨cmf :: flg :: rest, 0, 0, [], size.toNat, g, g⟩ =
      .ok b := by
    rw [stbiParseZlib, if_pos rfl, hparse]
    exact hb
  rw [stbiZlibDecode, if_neg (not_lt.mpr hsize.1)]
  change (stbiParseZlib rounds g true ⟨cmf :: flg :: rest, 0, 0, [], size.toNat, g, g⟩ >>= _) = _
  rw [hmalloc, ← hout]
  rfl

/-- Every stream is decompressed to its data, whatever blocks it is made of, if there is room for
them. More rounds than there are bits are enough; the check sum is not looked at. -/
theorem stbiZlibDecode_of_isStream (cmf flg : UInt8) (checksum bytes data : List UInt8)
    (bs : List Block) (rounds : Nat) (g : Zhuffman) (initial_size : Int)
    (hheader : HeaderOk cmf flg) (h : IsStream [cmf, flg] checksum bytes data bs)
    (hsize : 0 ≤ initial_size ∧ initial_size < 2 ^ 31)
    (hroom : HasRoom initial_size.toNat data.length) (hrounds : 8 * bytes.length ≤ rounds) :
    stbiZlibDecode rounds g bytes initial_size true = .ok data := by
  obtain ⟨-, hplaced, -, pad, -, hbits⟩ := id h
  have hlength := congrArg List.length hbits
  simp only [List.length_append, length_byteBits] at hlength
  obtain ⟨hblocks, htokens⟩ := length_le_length_streamBits hplaced
  exact stbiZlibDecode_of_blocks hheader h hsize hroom (by omega)
    (fun b hb => (htokens b hb).trans_le (by omega)) g

/-- Codes for one letter and for copies of three bytes. -/
def letterCodes : Codes where
  lit := List.replicate 97 0 ++ [1] ++ List.replicate 158 0 ++ [2, 2]
  dist := [1]
  codelengths := [0, 2, 2, 0, 0, 0, 0, 0, 0, 0, 0, 0, 0, 0, 0, 0, 0, 0, 1]
  given := 18
  lencodes := [.manyZeros 86, .length 1, .manyZeros 127, .manyZeros 9, .length 2, .length 2,
    .length 1]
  lit_length := by decide +kernel
  dist_length := by decide
  codelengths_length := rfl
  given_range := by decide
  codelengths_lt := by decide
  not_given := by decide
  fits_codelengths := by
    rw [fits_iff_kraft]
    decide
  coded := by decide
  expand_eq := by decide +kernel
  fits_lit := by
    rw [fits_iff_kraft]
    decide +kernel
  fits_dist := by
    rw [fits_iff_kraft]
    decide

/-- Two bytes as they are, and four that are compressed. -/
theorem stbiZlibDecode_of_isStream_letters :
    stbiZlibDecode 400 Zhuffman.zero
      [0x78, 0x9c, 0, 2, 0, 253, 255, 98, 99, 13, 192, 129, 0, 0, 0, 0, 128, 32, 214, 252, 37, 62,
        11, 8, 11, 2, 74] 1 true = .ok [98, 99, 97, 97, 97, 97] :=
  stbiZlibDecode_of_isStream 0x78 0x9c [8, 11, 2, 74] _ _
    [.stored (List.replicate 5 false) [98, 99], .dynamic letterCodes [.literal 97, .copy 0 0 0 0]]
    400 _ 1 (by decide)
    ⟨List.cons_ne_nil _ _, by decide +kernel, by decide +kernel, List.replicate 3 false, by decide,
      by decide +kernel⟩ (by decide) ⟨3, by decide, by decide⟩ (by decide)

end GifTools
