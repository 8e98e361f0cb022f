import GifTools.Core.Deflate
import GifTools.Core.Runs
import GifTools.Png.Stream

/-!
# Decompressed blocks

Tables that were built for two codes, and a block written in them: the decompressor accepts it if it
is one, and writes the bytes that its tokens stand for.
-/

namespace GifTools

open Bits Canonical Cells Deflate Lz77

variable {a b c : Zbuf} {lens lit dist : List Nat} {z : Zhuffman} {i m n v : Nat}

/-! ### Words and numbers -/

lemma decode_of_ahead (h : TableFor lens z) (ha : a.Good) (hi : 0 < len lens i)
    (hv : a.stream = ahead (wordBits lens i) v) :
    ∃ b, stbiZhuffmanDecode a z = .ok (some i, b) ∧ Reads (len lens i) a b ∧ b.stream = v := by
  have hstarts : Starts lens i a.stream := by
    rw [hv]
    exact starts_ahead hi (fun s hs => h.fits s (hs.trans (h.len_le i))) v
  have hdecodes := decodes_of_tableFor h ha
  rcases hresult : stbiZhuffmanDecode a z with failure | ⟨_ | j, b⟩
  · rw [hresult] at hdecodes
    exact hdecodes.elim
  · rw [hresult] at hdecodes
    exact absurd hstarts (hdecodes i)
  · rw [hresult] at hdecodes
    obtain ⟨hj, hreads⟩ := hdecodes
    obtain rfl := eq_of_starts hstarts hj
    refine ⟨b, rfl, hreads, ?_⟩
    rw [hreads.stream_eq, hv, ahead_wordBits_div]

lemma ahead_of_decode (h : TableFor lens z) (ha : a.Good)
    (hd : stbiZhuffmanDecode a z = .ok (some i, b)) :
    0 < len lens i ∧ Reads (len lens i) a b ∧ a.stream = ahead (wordBits lens i) b.stream := by
  have hdecodes := decodes_of_tableFor h ha
  rw [hd] at hdecodes
  obtain ⟨hi, hreads⟩ := hdecodes
  refine ⟨hi.1, hreads, ?_⟩
  rw [hreads.stream_eq, ahead_of_starts hi]

lemma number_of_ahead {r : Nat × Zbuf} (hr : r.1 = a.stream % 2 ^ n ∧ Reads n a r.2) {x : Nat}
    (hx : x < 2 ^ n) (hv : a.stream = ahead (natBits n x) v) :
    ∃ b, r = (x, b) ∧ Reads n a b ∧ b.stream = v := by
  have hmod := ahead_mod (natBits n x) v
  have hdiv := ahead_div (natBits n x) v
  rw [length_natBits, bitsNat_natBits hx] at hmod
  rw [length_natBits] at hdiv
  refine ⟨r.2, ?_, hr.2, ?_⟩
  · rw [← hmod, ← hv, ← hr.1]
  · rw [hr.2.stream_eq, hv, hdiv]

lemma ahead_of_receiveExtra (ha : a.Good) (hn : n ≤ 24) :
    (receiveExtra a n).1 < 2 ^ n ∧ Reads n a (receiveExtra a n).2 ∧
      a.stream = ahead (natBits n (receiveExtra a n).1) (receiveExtra a n).2.stream := by
  obtain ⟨hvalue, hreads⟩ := reads_receiveExtra ha hn
  rw [hvalue, hreads.stream_eq, ahead_natBits_mod]
  exact ⟨Nat.mod_lt _ (Nat.two_pow_pos n), hreads, rfl⟩

/-! ### Room -/

/-- The room can be doubled, as an `int`, until there is as much of it as `total`. -/
def HasRoom (limit total : Nat) : Prop := ∃ k, total ≤ 2 ^ k * limit ∧ 2 ^ k * limit < 2 ^ 31

lemma hasRoom_of_le {limit total : Nat} (hle : total ≤ limit) (hlt : limit < 2 ^ 31) :
    HasRoom limit total := ⟨0, by rwa [pow_zero, Nat.one_mul], by rwa [pow_zero, Nat.one_mul]⟩

/-- Up to `2 ^ 30` bytes there is always room. -/
lemma hasRoom_of_pos {limit total : Nat} (hpos : 0 < limit) (hlt : limit < 2 ^ 31)
    (htotal : total ≤ 2 ^ 30) : HasRoom limit total := by
  obtain ⟨d, hd⟩ : ∃ d, 2 ^ 30 ≤ limit + d := ⟨2 ^ 30, Nat.le_add_left _ _⟩
  induction d using Nat.strong_induction_on generalizing limit with
  | _ d ih =>
    rcases Nat.lt_or_ge limit (2 ^ 30) with hless | hge
    · obtain ⟨k, hk, hklt⟩ :=
        @ih (d - limit) (by omega) (2 * limit) (by omega) (by omega) (by omega)
      rw [← Nat.mul_assoc, ← pow_succ] at hk hklt
      exact ⟨k + 1, hk, hklt⟩
    · exact hasRoom_of_le (htotal.trans hge) hlt

lemma HasRoom.of_double {limit total j : Nat} (h : HasRoom (2 ^ j * limit) total) :
    HasRoom limit total := by
  obtain ⟨k, hk, hlt⟩ := h
  rw [← Nat.mul_assoc, ← pow_add] at hk hlt
  exact ⟨k + j, hk, hlt⟩

lemma doubleLimit_ok {needed k limit : Nat} (hneeded : needed ≤ 2 ^ k * limit)
    (hlt : 2 ^ k * limit < 2 ^ 31) (hn : k < n) : ∃ j ≤ k,
      doubleLimit needed n limit = .ok (2 ^ j * limit) ∧ needed ≤ 2 ^ j * limit := by
  induction k generalizing limit n with
  | zero =>
    obtain ⟨n, rfl⟩ : ∃ m, n = m + 1 := ⟨n - 1, by omega⟩
    refine ⟨0, le_rfl, ?_, hneeded⟩
    rw [pow_zero, Nat.one_mul] at hneeded ⊢
    exact if_pos hneeded
  | succ k ih =>
    obtain ⟨n, rfl⟩ : ∃ m, n = m + 1 := ⟨n - 1, by omega⟩
    rw [pow_succ, Nat.mul_assoc] at hneeded hlt
    have hdouble : 2 * limit ≤ 2 ^ k * (2 * limit) := Nat.le_mul_of_pos_left _ (Nat.two_pow_pos k)
    rw [doubleLimit]
    split_ifs with hle hover
    · exact ⟨0, Nat.zero_le _, by rw [pow_zero, Nat.one_mul], by rwa [pow_zero, Nat.one_mul]⟩
    · omega
    · obtain ⟨j, hj, hok, hfits⟩ := ih (n := n) hneeded hlt (by omega)
      rw [← Nat.mul_assoc, ← pow_succ] at hok hfits
      exact ⟨j + 1, Nat.succ_le_succ hj, hok, hfits⟩

lemma double_of_doubleLimit {needed limit limit' : Nat} (hlt : limit < 2 ^ 31)
    (h : doubleLimit needed n limit = .ok limit') :
    ∃ j, limit' = 2 ^ j * limit ∧ needed ≤ limit' ∧ limit' < 2 ^ 31 := by
  induction n generalizing limit with
  | zero => cases h
  | succ n ih =>
    rw [doubleLimit] at h
    split_ifs at h with hle hover
    · cases h
      exact ⟨0, by rw [pow_zero, Nat.one_mul], hle, hlt⟩
    · obtain ⟨j, hj, hfits, hlt'⟩ := ih (not_le.mp hover) h
      rw [← Nat.mul_assoc, ← pow_succ] at hj
      exact ⟨j + 1, hj, hfits, hlt'⟩

/-- What has been written has its place. -/
structure Zbuf.Room (a : Zbuf) : Prop where
  zout_le : a.zout.length ≤ a.zout_end
  zout_end_lt : a.zout_end < 2 ^ 31

/-- `b` is `a` when the output has become `out`. -/
def WritesZout (out : List UInt8) (a b : Zbuf) : Prop :=
  ∃ j, b = { a with zout := out, zout_end := 2 ^ j * a.zout_end } ∧
    out.length ≤ 2 ^ j * a.zout_end ∧ 2 ^ j * a.zout_end < 2 ^ 31

namespace WritesZout

variable {out : List UInt8} (h : WritesZout out a b)

include h

lemma zout_eq : b.zout = out := by
  obtain ⟨j, rfl, -⟩ := h
  rfl

lemma stream_eq : b.stream = a.stream := by
  obtain ⟨j, rfl, -⟩ := h
  rfl

lemma uses : Uses 0 a b := by
  obtain ⟨j, rfl, -⟩ := h
  exact fun r hr => Nat.zero_add r ▸ hr

lemma hasRoom {total : Nat} (hb : HasRoom b.zout_end total) : HasRoom a.zout_end total := by
  obtain ⟨j, rfl, -⟩ := h
  exact hb.of_double

end WritesZout

/-- There is room for what is written next if there is for all of it. -/
lemma makeRoom_ok {total : Nat} (h : HasRoom a.zout_end total)
    (hle : a.zout.length + n ≤ total) : ∃ j, makeRoom a n =
        .ok { a with zout_end := 2 ^ j * a.zout_end } ∧
      a.zout.length + n ≤ 2 ^ j * a.zout_end ∧ 2 ^ j * a.zout_end < 2 ^ 31 ∧
      HasRoom (2 ^ j * a.zout_end) total := by
  obtain ⟨k, hk, hlt⟩ := h
  have hone : 2 ^ 0 * a.zout_end = a.zout_end := by rw [pow_zero, Nat.one_mul]
  have hself : a.zout_end ≤ 2 ^ k * a.zout_end := Nat.le_mul_of_pos_left _ (Nat.two_pow_pos k)
  rw [makeRoom]
  split_ifs with hless
  · have hrounds : k < 32 := by
      have hpow : 2 ^ k * 1 ≤ 2 ^ k * a.zout_end := Nat.mul_le_mul_left _ (by
        rcases Nat.eq_zero_or_pos a.zout_end with hzero | hpos
        · rw [hzero, Nat.mul_zero] at hk
          omega
        · exact hpos)
      have hlt' : 2 ^ k < 2 ^ 31 := by omega
      exact ((Nat.pow_lt_pow_iff_right (by decide)).mp hlt').trans (by decide)
    obtain ⟨j, hj, hok, hfits⟩ := doubleLimit_ok (hle.trans hk) hlt hrounds
    have hsplit : 2 ^ (k - j) * (2 ^ j * a.zout_end) = 2 ^ k * a.zout_end := by
      rw [← Nat.mul_assoc, ← pow_add, Nat.sub_add_cancel hj]
    refine ⟨j, ?_, hfits, ?_, k - j, hsplit.symm ▸ hk, hsplit.symm ▸ hlt⟩
    · rw [stbiZexpand, hok]
      rfl
    · exact (hsplit ▸ Nat.le_mul_of_pos_left _ (Nat.two_pow_pos (k - j))).trans_lt hlt
  · exact ⟨0, by rw [hone], by omega, by omega, hone.symm ▸ ⟨k, hk, hlt⟩⟩

lemma double_of_makeRoom (h : a.Room) (hb : makeRoom a n = .ok b) :
    ∃ j, b = { a with zout_end := 2 ^ j * a.zout_end } ∧
      a.zout.length + n ≤ 2 ^ j * a.zout_end ∧ 2 ^ j * a.zout_end < 2 ^ 31 := by
  rw [makeRoom] at hb
  split_ifs at hb with hless
  · rw [stbiZexpand] at hb
    cases hlimit : doubleLimit (a.zout.length + n) 32 a.zout_end with
    | error failure =>
      rw [hlimit] at hb
      cases hb
    | ok limit =>
      obtain ⟨j, rfl, hfits, hlt⟩ := double_of_doubleLimit h.zout_end_lt hlimit
      rw [hlimit] at hb
      cases hb
      exact ⟨j, rfl, hfits, hlt⟩
  · cases hb
    have hlt := h.zout_end_lt
    exact ⟨0, by rw [pow_zero, Nat.one_mul], by omega, by omega⟩

lemma writeLiteral_ok {total : Nat} (h : HasRoom a.zout_end total)
    (hle : a.zout.length + 1 ≤ total) (z : Nat) :
    ∃ b, writeLiteral a z = .ok b ∧ WritesZout (a.zout ++ [UInt8.ofNat z]) a b ∧
      HasRoom b.zout_end total := by
  obtain ⟨j, hj, hfits, hlt, hroom⟩ := makeRoom_ok h hle
  refine ⟨_, ?_, ⟨j, rfl, ?_, hlt⟩, hroom⟩
  · rw [writeLiteral, hj]
    rfl
  · rwa [List.length_append, List.length_singleton]

lemma writes_of_writeLiteral (h : a.Room) {z : Nat} (hb : writeLiteral a z = .ok b) :
    WritesZout (a.zout ++ [UInt8.ofNat z]) a b := by
  cases hroom : makeRoom a 1 with
  | error failure =>
    rw [writeLiteral, hroom] at hb
    cases hb
  | ok c =>
    obtain ⟨j, rfl, hfits, hlt⟩ := double_of_makeRoom h hroom
    rw [writeLiteral, hroom] at hb
    cases hb
    refine ⟨j, rfl, ?_, hlt⟩
    rwa [List.length_append, List.length_singleton]

/-! ### Copies -/

lemma zlength_eq {l : Nat} (hl : l < 29) :
    zlengthBase.getD l 0 = lengthBase.getD l 0 ∧ zlengthExtra.getD l 0 = lengthExtra.getD l 0 ∧
      lengthExtra.getD l 0 ≤ 24 := by
  revert l
  decide

lemma zdist_eq {d : Nat} (hd : d < 30) :
    zdistBase.getD d 0 = distBase.getD d 0 ∧ zdistExtra.getD d 0 = distExtra.getD d 0 ∧
      distExtra.getD d 0 ≤ 24 := by
  revert d
  decide

/-- The loop for runs of one byte does what the other one does. -/
lemma copyMatch_eq {out : List UInt8} {distance : Nat} (hpos : 0 < distance)
    (hle : distance ≤ out.length) (len : Nat) :
    copyMatch out len distance = .ok (copyBack distance len out) := by
  rw [copyMatch, if_neg hpos.ne']
  split_ifs with hzero hone
  · rw [hzero, copyBack_zero]
  · rw [hone, copyBack_one (List.ne_nil_of_length_pos (by omega))]
  · rfl

lemma writeCopy_ok {total distance len : Nat} (h : HasRoom a.zout_end total)
    (hpos : 0 < distance) (hle : distance ≤ a.zout.length) (htotal : a.zout.length + len ≤ total) :
    ∃ b, writeCopy a len distance = .ok b ∧ WritesZout (copyBack distance len a.zout) a b ∧
      HasRoom b.zout_end total := by
  obtain ⟨j, hj, hfits, hlt, hroom⟩ := makeRoom_ok h htotal
  refine ⟨_, ?_, ⟨j, rfl, ?_, hlt⟩, hroom⟩
  · rw [writeCopy, if_neg (not_lt.mpr hle), hj]
    simp only [bind, Except.bind, copyMatch_eq hpos hle]
    rfl
  · rwa [length_copyBack hpos hle]

lemma writes_of_writeCopy (h : a.Room) {distance len : Nat} (hpos : 0 < distance)
    (hb : writeCopy a len distance = .ok b) :
    distance ≤ a.zout.length ∧ WritesZout (copyBack distance len a.zout) a b := by
  rw [writeCopy] at hb
  split_ifs at hb with hlt
  have hle := not_lt.mp hlt
  cases hroom : makeRoom a len with
  | error failure =>
    rw [hroom] at hb
    cases hb
  | ok c =>
    obtain ⟨j, rfl, hfits, hlimit⟩ := double_of_makeRoom h hroom
    rw [hroom] at hb
    simp only [bind, Except.bind, copyMatch_eq hpos hle] at hb
    cases hb
    refine ⟨hle, j, rfl, ?_, hlimit⟩
    rwa [length_copyBack hpos hle]

/-- Between two symbols of a block. -/
structure Ready (lit dist : List Nat) (a : Zbuf) : Prop where
  good : a.Good
  length_table : TableFor lit a.z_length
  distance_table : TableFor dist a.z_distance
  room : a.Room

lemma Zbuf.Room.of_reads (h : a.Room) (hreads : Reads n a b) : b.Room :=
  ⟨hreads.zout_eq.symm ▸ hreads.zout_end_eq.symm ▸ h.zout_le,
    hreads.zout_end_eq.symm ▸ h.zout_end_lt⟩

lemma Ready.of_reads (h : Ready lit dist a) (hreads : Reads n a b) : Ready lit dist b :=
  ⟨hreads.good, hreads.z_length_eq ▸ h.length_table, hreads.z_distance_eq ▸ h.distance_table,
    h.room.of_reads hreads⟩

lemma Ready.of_writes (h : Ready lit dist a) {out : List UInt8} (hwrites : WritesZout out a b) :
    Ready lit dist b := by
  obtain ⟨j, rfl, hfits, hlt⟩ := hwrites
  exact ⟨⟨h.good.1, h.good.2⟩, h.length_table, h.distance_table, hfits, hlt⟩

/-- The bits behind the symbol for a length. -/
def copyBits (dist : List Nat) (l lextra d dextra : Nat) : List Bool :=
  natBits (lengthExtra.getD l 0) lextra ++ (wordBits dist d ++ natBits (distExtra.getD d 0) dextra)

lemma bits_copy (l lextra d dextra : Nat) : (Token.copy l lextra d dextra).bits lit dist =
    wordBits lit (257 + l) ++ copyBits dist l lextra d dextra := List.append_assoc _ _ _

lemma parseMatch_of_ahead (h : Ready lit dist a) {l lextra d dextra : Nat}
    (ht : (Token.copy l lextra d dextra).Valid) (hd : 0 < len dist d)
    (hv : a.stream = ahead (copyBits dist l lextra d dextra) v) {out : List UInt8}
    (hout : (Token.copy l lextra d dextra).apply a.zout = some out) {total : Nat}
    (hroom : HasRoom a.zout_end total) (hlength : out.length ≤ total) :
    ∃ b, parseMatch a l = .ok b ∧ Ready lit dist b ∧ HasRoom b.zout_end total ∧ b.zout = out ∧
      b.stream = v ∧ Uses (copyBits dist l lextra d dextra).length a b := by
  rw [length_apply ht hout] at hlength
  obtain ⟨hl, hlextra, hd30, hdextra⟩ := ht
  obtain ⟨hbase, hextra, hextra24⟩ := zlength_eq hl
  obtain ⟨hdbase, hdextra', hdextra24⟩ := zdist_eq hd30
  rw [copyBits, ahead_append, ahead_append] at hv
  obtain ⟨b1, hb1, hreads1, hv1⟩ := number_of_ahead (reads_receiveExtra h.good hextra24) hlextra hv
  have h1 := h.of_reads hreads1
  obtain ⟨b2, hb2, hreads2, hv2⟩ := decode_of_ahead h1.distance_table h1.good hd hv1
  have h2 := h1.of_reads hreads2
  obtain ⟨b3, hb3, hreads3, hv3⟩ :=
    number_of_ahead (reads_receiveExtra h2.good hdextra24) hdextra hv2
  have h3 := h2.of_reads hreads3
  have hzout : b3.zout = a.zout := by
    rw [hreads3.zout_eq, hreads2.zout_eq, hreads1.zout_eq]
  rw [Token.apply] at hout
  split_ifs at hout with hle
  rw [Option.some.injEq] at hout
  rw [← hzout] at hle hlength
  have hend : b3.zout_end = a.zout_end := by
    rw [hreads3.zout_end_eq, hreads2.zout_end_eq, hreads1.zout_end_eq]
  rw [← hend] at hroom
  have htotal : b3.zout.length + (lengthBase.getD l 0 + lextra) ≤ total := hlength
  obtain ⟨b4, hb4, hwrites, hroom'⟩ := writeCopy_ok hroom (distance_pos hd30) hle htotal
  refine ⟨b4, ?_, h3.of_writes hwrites, hroom', ?_, hwrites.stream_eq.trans hv3, ?_⟩
  · simp only [parseMatch, hbase, hextra, hdbase, hdextra', hb1, hb2, hb3]
    exact hb4
  · rw [hwrites.zout_eq, hzout]
    exact hout
  · simp only [copyBits, List.length_append, length_natBits, length_wordBits]
    exact hreads1.uses.trans (hreads2.uses.trans (hreads3.uses.trans hwrites.uses))

lemma ahead_of_parseMatch (h : Ready lit dist a) {l : Nat} (hl : l < 29) (hdist : dist.length ≤ 30)
    (hb : parseMatch a l = .ok b) :
    ∃ lextra d dextra, (Token.copy l lextra d dextra).Valid ∧ 0 < len dist d ∧
      a.stream = ahead (copyBits dist l lextra d dextra) b.stream ∧
      (Token.copy l lextra d dextra).apply a.zout = some b.zout ∧ Ready lit dist b ∧
      ∀ total, HasRoom b.zout_end total → HasRoom a.zout_end total := by
  obtain ⟨hbase, hextra, hextra24⟩ := zlength_eq hl
  obtain ⟨hlextra, hreads1, hv1⟩ := ahead_of_receiveExtra h.good hextra24
  simp only [parseMatch, hbase, hextra] at hb
  generalize receiveExtra a (lengthExtra.getD l 0) = r1 at hb hlextra hreads1 hv1
  obtain ⟨lextra, b1⟩ := r1
  have h1 := h.of_reads hreads1
  rcases hdecode : stbiZhuffmanDecode b1 b1.z_distance with failure | ⟨_ | d, b2⟩
  · simp only [hdecode, reduceCtorEq] at hb
  · simp only [hdecode, reduceCtorEq] at hb
  obtain ⟨hd, hreads2, hv2⟩ := ahead_of_decode h1.distance_table h1.good hdecode
  have hd30 : d < 30 := (lt_length_of_len_pos hd).trans_le hdist
  obtain ⟨hdbase, hdextra', hdextra24⟩ := zdist_eq hd30
  have h2 := h1.of_reads hreads2
  obtain ⟨hdextra, hreads3, hv3⟩ := ahead_of_receiveExtra h2.good hdextra24
  simp only [hdecode, hdbase, hdextra'] at hb
  generalize receiveExtra b2 (distExtra.getD d 0) = r3 at hb hdextra hreads3 hv3
  obtain ⟨dextra, b3⟩ := r3
  have h3 := h2.of_reads hreads3
  have hzout : b3.zout = a.zout := by
    rw [hreads3.zout_eq, hreads2.zout_eq, hreads1.zout_eq]
  obtain ⟨hle, hwrites⟩ := writes_of_writeCopy h3.room (distance_pos hd30) hb
  refine ⟨lextra, d, dextra, ⟨hl, hlextra, hd30, hdextra⟩, hd, ?_, ?_, h3.of_writes hwrites, ?_⟩
  · rw [copyBits, ahead_append, ahead_append, hwrites.stream_eq, hv1, hv2, hv3]
  · rw [hwrites.zout_eq, hzout]
    rw [hzout] at hle
    exact if_pos hle
  · intro total hroom
    rw [← hreads1.zout_end_eq, ← hreads2.zout_end_eq, ← hreads3.zout_end_eq]
    exact hwrites.hasRoom hroom

/-! ### Blocks -/

lemma parseHuffmanBlock_succ (hd : stbiZhuffmanDecode a a.z_length = .ok (some i, b)) (n : Nat) :
    stbiParseHuffmanBlock (n + 1) a =
      if i < 256 then (writeLiteral b i).bind (stbiParseHuffmanBlock n)
      else if i = 256 then .ok b
      else (parseMatch b (i - 257)).bind (stbiParseHuffmanBlock n) := by
  rw [stbiParseHuffmanBlock, parseSymbol, hd]
  simp only
  split_ifs
  · cases writeLiteral b i <;> rfl
  · rfl
  · cases parseMatch b (i - 257) <;> rfl

lemma parseHuffmanBlock_token (h : Ready lit dist a) {t : Token} (ht : t.Valid)
    (hcoded : t.Coded lit dist) (hv : a.stream = ahead (t.bits lit dist) v) {out : List UInt8}
    (hout : t.apply a.zout = some out) {total : Nat} (hroom : HasRoom a.zout_end total)
    (hlength : out.length ≤ total) :
    ∃ b, stbiParseHuffmanBlock (n + 1) a = stbiParseHuffmanBlock n b ∧ Ready lit dist b ∧
      HasRoom b.zout_end total ∧ b.zout = out ∧ b.stream = v ∧
      Uses (t.bits lit dist).length a b := by
  cases t with
  | literal x =>
    obtain ⟨b, hb, hreads, hbv⟩ := decode_of_ahead h.length_table h.good hcoded hv
    have hready := h.of_reads hreads
    rw [Token.apply, Option.some.injEq, ← hreads.zout_eq] at hout
    rw [← hout, List.length_append, List.length_singleton] at hlength
    rw [← hreads.zout_end_eq] at hroom
    obtain ⟨c, hc, hwrites, hroom'⟩ := writeLiteral_ok hroom hlength x.toNat
    refine ⟨c, ?_, hready.of_writes hwrites, hroom', ?_, hwrites.stream_eq.trans hbv, ?_⟩
    · have hbyte : x.toNat < 256 := x.toNat_lt
      rw [parseHuffmanBlock_succ hb, if_pos hbyte, hc]
      rfl
    · rw [hwrites.zout_eq, UInt8.ofNat_toNat, hout]
    · rw [Token.bits, length_wordBits]
      exact hreads.uses.trans hwrites.uses
  | copy l lextra d dextra =>
    rw [bits_copy, ahead_append] at hv
    obtain ⟨b, hb, hreads, hbv⟩ := decode_of_ahead h.length_table h.good hcoded.1 hv
    obtain ⟨c, hc, hready, hroom', hzout, hcv, huses⟩ := parseMatch_of_ahead (h.of_reads hreads) ht
      hcoded.2 hbv (by rwa [hreads.zout_eq]) (by rwa [hreads.zout_end_eq]) hlength
    refine ⟨c, ?_, hready, hroom', hzout, hcv, ?_⟩
    · have hsymbol : ¬ 257 + l < 256 ∧ 257 + l ≠ 256 ∧ 257 + l - 257 = l := by omega
      rw [parseHuffmanBlock_succ hb, if_neg hsymbol.1, if_neg hsymbol.2.1, hsymbol.2.2, hc]
      rfl
    · rw [bits_copy, List.length_append, length_wordBits]
      exact hreads.uses.trans huses

lemma parseHuffmanBlock_end (h : Ready lit dist a) (hend : 0 < len lit 256)
    (hv : a.stream = ahead (wordBits lit 256) v) :
    ∃ b, stbiParseHuffmanBlock (n + 1) a = .ok b ∧ Ready lit dist b ∧ b.zout_end = a.zout_end ∧
      b.zout = a.zout ∧ b.stream = v ∧ Uses (wordBits lit 256).length a b := by
  obtain ⟨b, hb, hreads, hbv⟩ := decode_of_ahead h.length_table h.good hend hv
  refine ⟨b, ?_, h.of_reads hreads, hreads.zout_end_eq, hreads.zout_eq, hbv, ?_⟩
  · rw [parseHuffmanBlock_succ hb, if_neg (by decide), if_pos rfl]
  · rw [length_wordBits]
    exact hreads.uses

/-- A block is read to its end, and what it stands for is written. -/
lemma parseHuffmanBlock_of_ahead {ts : List Token} {out : List UInt8} (h : Ready lit dist a)
    (hvalid : ∀ t ∈ ts, t.Valid) (hcoded : ∀ t ∈ ts, t.Coded lit dist) (hend : 0 < len lit 256)
    (hv : a.stream = ahead (blockBits lit dist ts) v) (hout : expand a.zout ts = some out)
    {total : Nat} (hroom : HasRoom a.zout_end total) (hlength : out.length ≤ total)
    (hn : ts.length < n) :
    ∃ b, stbiParseHuffmanBlock n a = .ok b ∧ Ready lit dist b ∧ HasRoom b.zout_end total ∧
      b.zout = out ∧ b.stream = v ∧ Uses (blockBits lit dist ts).length a b := by
  obtain ⟨n, rfl⟩ : ∃ k, n = k + 1 := ⟨n - 1, by omega⟩
  induction ts generalizing a n with
  | nil =>
    rw [expand_nil, Option.some.injEq] at hout
    rw [← hout]
    obtain ⟨b, hb, hready, hzout_end, hbs⟩ := parseHuffmanBlock_end (n := n) h hend hv
    exact ⟨b, hb, hready, hzout_end.symm ▸ hroom, hbs⟩
  | cons t ts ih =>
    obtain ⟨ys, ht, hts⟩ := expand_cons_eq_some.mp hout
    rw [blockBits, List.flatMap_cons, List.append_assoc, ahead_append] at hv
    have hts_valid := fun u hu => hvalid u (List.mem_cons_of_mem _ hu)
    have hmid := length_expand hts_valid hts
    obtain ⟨b, hb, hready, hroom', hzout, hbv, huses⟩ := parseHuffmanBlock_token (n := n) h
      (hvalid t List.mem_cons_self) (hcoded t List.mem_cons_self) hv ht hroom (by omega)
    rw [hb]
    obtain ⟨k, rfl⟩ : ∃ k, n = k + 1 := ⟨n - 1, by rw [List.length_cons] at hn; omega⟩
    obtain ⟨c, hc, hready, hroom', hzout, hcv, huses'⟩ := ih hready hts_valid
      (fun u hu => hcoded u (List.mem_cons_of_mem _ hu)) hbv (hzout ▸ hts) hroom' k
      (by rw [List.length_cons] at hn; omega)
    refine ⟨c, hc, hready, hroom', hzout, hcv, ?_⟩
    rw [blockBits, List.flatMap_cons, List.append_assoc, List.length_append]
    exact huses.trans huses'

/-- The token that is read from `a`, up to `b`. -/
structure ReadsToken (lit dist : List Nat) (a : Zbuf) (t : Token) (b : Zbuf) : Prop where
  valid : t.Valid
  coded : t.Coded lit dist
  ready : Ready lit dist b
  stream_eq : a.stream = ahead (t.bits lit dist) b.stream
  apply_eq : t.apply a.zout = some b.zout
  hasRoom : ∀ total, HasRoom b.zout_end total → HasRoom a.zout_end total

lemma readsToken_literal (h : Ready lit dist a)
    (hdecode : stbiZhuffmanDecode a a.z_length = .ok (some i, b)) (hliteral : i < 256)
    (hc : writeLiteral b i = .ok c) : ReadsToken lit dist a (.literal (UInt8.ofNat i)) c := by
  obtain ⟨hi, hreads, hv⟩ := ahead_of_decode h.length_table h.good hdecode
  have hready := h.of_reads hreads
  have hwrites := writes_of_writeLiteral hready.room hc
  have hbyte : (UInt8.ofNat i).toNat = i := by
    rw [UInt8.toNat_ofNat']
    exact Nat.mod_eq_of_lt hliteral
  refine ⟨trivial, ?_, hready.of_writes hwrites, ?_, ?_,
    fun total hroom => hreads.zout_end_eq ▸ hwrites.hasRoom hroom⟩
  · rw [Token.Coded, hbyte]
    exact hi
  · rw [Token.bits, hbyte, hwrites.stream_eq]
    exact hv
  · rw [Token.apply, hwrites.zout_eq, ← hreads.zout_eq]

lemma exists_readsToken_copy (hlit : lit.length ≤ 286) (hdist : dist.length ≤ 30)
    (h : Ready lit dist a) (hdecode : stbiZhuffmanDecode a a.z_length = .ok (some i, b))
    (hliteral : ¬ i < 256) (hend : i ≠ 256) (hc : parseMatch b (i - 257) = .ok c) :
    ∃ t, ReadsToken lit dist a t c := by
  obtain ⟨hi, hreads, hv⟩ := ahead_of_decode h.length_table h.good hdecode
  have hi286 := (lt_length_of_len_pos hi).trans_le hlit
  obtain ⟨lextra, d, dextra, ht, hd, hbits, happly, hready, hback⟩ :=
    ahead_of_parseMatch (h.of_reads hreads) (show i - 257 < 29 by omega) hdist hc
  have hsymbol : 257 + (i - 257) = i := by omega
  refine ⟨.copy (i - 257) lextra d dextra, ht, ?_, hready, ?_, ?_,
    fun total hroom => hreads.zout_end_eq ▸ hback total hroom⟩
  · rw [Token.Coded, hsymbol]
    exact ⟨hi, hd⟩
  · rw [bits_copy, hsymbol, ahead_append, hv, hbits]
  · rw [← hreads.zout_eq]
    exact happly

/-- A round reads the word for the end, or a token. -/
lemma parseHuffmanBlock_cases (hlit : lit.length ≤ 286) (hdist : dist.length ≤ 30)
    (h : Ready lit dist a) (hc : stbiParseHuffmanBlock (n + 1) a = .ok c) :
    (0 < len lit 256 ∧ a.stream = ahead (wordBits lit 256) c.stream ∧ c.zout = a.zout) ∨
      ∃ t b, ReadsToken lit dist a t b ∧ stbiParseHuffmanBlock n b = .ok c := by
  rcases hdecode : stbiZhuffmanDecode a a.z_length with failure | ⟨_ | i, b⟩
  · rw [stbiParseHuffmanBlock, parseSymbol, hdecode] at hc
    cases hc
  · rw [stbiParseHuffmanBlock, parseSymbol, hdecode] at hc
    cases hc
  rw [parseHuffmanBlock_succ hdecode] at hc
  split_ifs at hc with hliteral hend
  · obtain ⟨b', hb', hok⟩ := Runs.bind_ok.mp hc
    exact .inr ⟨_, b', readsToken_literal h hdecode hliteral hb', hok⟩
  · cases hc
    obtain ⟨hi, hreads, hv⟩ := ahead_of_decode h.length_table h.good hdecode
    exact .inl ⟨hend ▸ hi, hend ▸ hv, hreads.zout_eq⟩
  · obtain ⟨b', hb', hok⟩ := Runs.bind_ok.mp hc
    obtain ⟨t, ht⟩ := exists_readsToken_copy hlit hdist h hdecode hliteral hend hb'
    exact .inr ⟨t, b', ht, hok⟩

/-- What is accepted is a block. -/
lemma ahead_of_parseHuffmanBlock (hlit : lit.length ≤ 286) (hdist : dist.length ≤ 30)
    (h : Ready lit dist a) (hc : stbiParseHuffmanBlock n a = .ok c) :
    ∃ ts : List Token, (∀ t ∈ ts, t.Valid ∧ t.Coded lit dist) ∧ 0 < len lit 256 ∧
      a.stream = ahead (blockBits lit dist ts) c.stream ∧ expand a.zout ts = some c.zout ∧
      HasRoom a.zout_end c.zout.length ∧ ts.length < n := by
  induction n generalizing a with
  | zero => cases hc
  | succ n ih =>
    rcases parseHuffmanBlock_cases hlit hdist h hc with ⟨hend, hv, hzout⟩ | ⟨t, b, ht, hok⟩
    · refine ⟨[], fun t ht => absurd ht List.not_mem_nil, hend, hv, ?_, ?_, Nat.succ_pos n⟩
      · rw [expand_nil, hzout]
      · rw [hzout]
        exact hasRoom_of_le h.room.zout_le h.room.zout_end_lt
    · obtain ⟨ts, hts, hend, hstream, hexpand, hroom, hlength⟩ := ih ht.ready hok
      refine ⟨t :: ts, ?_, hend, ?_, ?_, ht.hasRoom _ hroom, ?_⟩
      · rintro u (_ | ⟨_, hu⟩)
        · exact ⟨ht.valid, ht.coded⟩
        · exact hts u hu
      · rw [ht.stream_eq, hstream, blockBits, blockBits, List.flatMap_cons, List.append_assoc,
          ahead_append (t.bits lit dist)]
      · exact expand_cons_eq_some.mpr ⟨b.zout, ht.apply_eq, hexpand⟩
      · rw [List.length_cons]
        omega

/-- With tables for two codes, and without symbols that stand for nothing, exactly the blocks that
are written in these codes and for which there is room are accepted, and the output is what they
stand for. -/
theorem stbiParseHuffmanBlock_ok_iff (a : Zbuf) (lit dist : List Nat) (out : List UInt8)
    (v : Nat) (h : Ready lit dist a) (hlit : lit.length ≤ 286) (hdist : dist.length ≤ 30) :
    (∃ n b, stbiParseHuffmanBlock n a = .ok b ∧ b.zout = out ∧ b.stream = v) ↔
      HasRoom a.zout_end out.length ∧
        ∃ ts : List Token, (∀ t ∈ ts, t.Valid ∧ t.Coded lit dist) ∧ 0 < len lit 256 ∧
          a.stream = ahead (blockBits lit dist ts) v ∧ expand a.zout ts = some out := by
  constructor
  · rintro ⟨n, b, hb, rfl, rfl⟩
    obtain ⟨ts, hts, hend, hstream, hexpand, hroom, -⟩ := ahead_of_parseHuffmanBlock hlit hdist h hb
    exact ⟨hroom, ts, hts, hend, hstream, hexpand⟩
  · rintro ⟨hroom, ts, hts, hend, hstream, hexpand⟩
    obtain ⟨b, hb, -, -, hzout, hbv, -⟩ := parseHuffmanBlock_of_ahead h (fun t ht => (hts t ht).1)
      (fun t ht => (hts t ht).2) hend hstream hexpand hroom le_rfl (Nat.lt_succ_self ts.length)
    exact ⟨ts.length + 1, b, hb, hzout, hbv⟩

/-- A code for the byte zero, for the end of the block and for copies of three bytes. -/
def zeroLit : List Nat := 1 :: (List.replicate 255 0 ++ [2, 2])

/-- A literal and a copy of it. -/
theorem stbiParseHuffmanBlock_ok_iff_zeros : ∃ a n b, a.zbuffer = [22] ∧ Ready zeroLit [1] a ∧
    stbiParseHuffmanBlock n a = .ok b ∧ b.zout = [0, 0, 0, 0] ∧ b.stream = 0 := by
  have htable : ∀ lens : List Nat, (∀ l ∈ lens, l ≤ 15) → kraft lens 15 ≤ 2 ^ 15 →
      lens.length ≤ 288 → ∃ z, TableFor lens z := by
    intro lens hle hroom hlength
    obtain ⟨z, hz⟩ := build_ok Zhuffman.zero hle ((fits_iff_kraft _ _).mpr hroom)
    exact ⟨z, tableFor_of_build hle hlength hz⟩
  obtain ⟨z_length, hlit⟩ := htable zeroLit (by decide +kernel) (by decide +kernel)
    (by decide +kernel)
  obtain ⟨z_distance, hdist⟩ := htable [1] (by decide) (by decide) (by decide)
  have hready : Ready zeroLit [1] ⟨[22], 0, 0, [], 2, z_length, z_distance⟩ :=
    ⟨⟨Nat.one_pos, Nat.zero_le _⟩, hlit, hdist, Nat.zero_le _, by norm_num⟩
  have hstream : Zbuf.stream ⟨[22], 0, 0, [], 2, z_length, z_distance⟩ =
      ahead (blockBits zeroLit [1] [.literal 0, .copy 0 0 0 0]) 0 := by
    rw [Zbuf.stream]
    change 0 + 2 ^ 0 * bitsNat (byteBits [22]) = _
    decide +kernel
  have hexpand : expand [] [.literal 0, .copy 0 0 0 0] = some [0, 0, 0, 0] := by decide +kernel
  obtain ⟨n, b, hb⟩ := (stbiParseHuffmanBlock_ok_iff _ _ _ [0, 0, 0, 0] 0 hready
    (by decide +kernel) (by decide)).mpr ⟨⟨1, by norm_num, by norm_num⟩,
      [.literal 0, .copy 0 0 0 0], by decide +kernel, by decide +kernel, hstream, hexpand⟩
  exact ⟨_, n, b, rfl, hready, hb⟩

end GifTools
