import GifTools.Core.LzwDict

/-!
# The decoder follows the encoder

What the decoder knows after the bits written so far is determined by what the encoder knows
(`Synced`). When all is read the decoder has learnt one word more than is written into the width of
the footer's clear code, which matters exactly when that word is the last of its width.
-/

namespace Lzw

open Bits

variable {m : Nat}

/-! ### Reading one code -/

namespace Decoder

variable {d : Decoder}

@[simp] lemma feedAll_nil (d : Decoder) : d.feedAll m [] = d := rfl

lemma feedAll_append (d : Decoder) (xs ys : List Bool) :
    d.feedAll m (xs ++ ys) = (d.feedAll m xs).feedAll m ys :=
  List.foldl_append

lemma feedAll_cons (d : Decoder) (b : Bool) (bits : List Bool) :
    d.feedAll m (b :: bits) = (d.feed m b).feedAll m bits := rfl

/-- Bits that do not complete a code are kept. -/
lemma feedAll_pending (hphase : d.phase = .reading) {bits : List Bool}
    (h : d.pending.length + bits.length < d.width) :
    d.feedAll m bits = { d with pending := d.pending ++ bits } := by
  induction bits generalizing d with
  | nil => simp
  | cons b bits ih =>
    rw [List.length_cons] at h
    have hfeed : d.feed m b = { d with pending := d.pending ++ [b] } := by
      simp only [feed, hphase]
      exact if_pos (by omega)
    rw [feedAll_cons, hfeed, ih (by exact hphase) (by simpa using by omega)]
    simp

lemma feedAll_code (hphase : d.phase = .reading) (hpending : d.pending = []) {bits : List Bool}
    (h : bits.length = d.width) (hne : bits ≠ []) :
    d.feedAll m bits = d.onCode m (bitsNat bits) := by
  obtain ⟨init, b, rfl⟩ : ∃ init b, bits = init ++ [b] :=
    ⟨bits.dropLast, bits.getLast hne, (List.dropLast_append_getLast hne).symm⟩
  rw [List.length_append, List.length_singleton] at h
  have hinit : d.feedAll m init = { d with pending := init } := by
    rw [feedAll_pending hphase (by rw [hpending, List.length_nil]; omega), hpending,
      List.nil_append]
  have hd : ({ d with pending := init } : Decoder).feed m b =
      ({ d with pending := [] } : Decoder).onCode m (bitsNat (init ++ [b])) := by
    simp only [feed, hphase]
    exact if_neg (by omega)
  rw [feedAll_append, hinit, feedAll_cons, hd, feedAll_nil]
  congr 1
  rw [← hpending]

lemma feedAll_natBits (hphase : d.phase = .reading) (hpending : d.pending = []) {c : Nat}
    (hwidth : 0 < d.width) (hc : c < 2 ^ d.width) :
    d.feedAll m (natBits d.width c) = d.onCode m c := by
  have hne : natBits d.width c ≠ [] := by
    intro h
    have := congrArg List.length h
    rw [length_natBits, List.length_nil] at this
    omega
  rw [feedAll_code hphase hpending (length_natBits ..) hne, bitsNat_natBits hc]

lemma onCode_clear (d : Decoder) :
    d.onCode m (clearCode m) = { d with table := [], width := m + 1, prev := none } :=
  if_pos rfl

lemma onCode_word {c : Nat} (hclear : c ≠ clearCode m) (hend : c ≠ endCode m) {w : List Nat}
    (hw : d.word m c = some w) : d.onCode m c = { d.learn m w with out := d.out ++ w } := by
  rw [onCode, if_neg hclear, if_neg hend, hw]

/-- No bit takes back symbols that are out. -/
lemma out_prefix_feed (d : Decoder) (b : Bool) : d.out <+: (d.feed m b).out := by
  rw [feed]
  split
  · split
    · exact List.prefix_rfl
    · rw [onCode]
      split
      · exact List.prefix_rfl
      · split
        · exact List.prefix_rfl
        · split
          · exact List.prefix_append ..
          · exact List.prefix_rfl
  · exact List.prefix_rfl

lemma out_prefix_feedAll (d : Decoder) (bits : List Bool) : d.out <+: (d.feedAll m bits).out := by
  induction bits generalizing d with
  | nil => exact List.prefix_rfl
  | cons b bits ih => exact (out_prefix_feed d b).trans (ih _)

lemma readUntil_of_le {n : Nat} (h : n ≤ d.out.length) (bits : List Bool) :
    readUntil m n d bits = (d, bits) := by
  cases bits with
  | nil => rfl
  | cons b bits => exact if_pos h

/-- Bits after which symbols are still missing are taken. -/
lemma readUntil_append {n : Nat} {bits : List Bool} (h : (d.feedAll m bits).out.length < n)
    (rest : List Bool) :
    readUntil m n d (bits ++ rest) = readUntil m n (d.feedAll m bits) rest := by
  induction bits generalizing d with
  | nil => rfl
  | cons b bits ih =>
    rw [feedAll_cons] at h
    have hlt : d.out.length < n :=
      ((out_prefix_feed d b).trans (out_prefix_feedAll _ bits)).length_le.trans_lt h
    rw [List.cons_append, readUntil, if_neg (by omega), ih h, feedAll_cons]

/-- The code that brings the last symbols is read to its end. -/
lemma readUntil_code {n : Nat} (hphase : d.phase = .reading) (hpending : d.pending = [])
    (hlt : d.out.length < n) {bits : List Bool} (h : bits.length = d.width) (hne : bits ≠ [])
    (hle : n ≤ (d.feedAll m bits).out.length) (rest : List Bool) :
    readUntil m n d (bits ++ rest) = (d.feedAll m bits, rest) := by
  obtain ⟨init, b, rfl⟩ : ∃ init b, bits = init ++ [b] :=
    ⟨bits.dropLast, bits.getLast hne, (List.dropLast_append_getLast hne).symm⟩
  rw [List.length_append, List.length_singleton] at h
  have hinit : d.feedAll m init = { d with pending := d.pending ++ init } :=
    feedAll_pending hphase (by rw [hpending, List.length_nil]; omega)
  have hlt' : (d.feedAll m init).out.length < n := by rwa [hinit]
  rw [List.append_assoc, readUntil_append hlt', List.singleton_append, readUntil,
    if_neg (by omega), feedAll_append, feedAll_cons, feedAll_nil]
  rw [feedAll_append, feedAll_cons, feedAll_nil] at hle
  exact readUntil_of_le hle rest

end Decoder

namespace Decoder

/-- Reading on after the stop is reading all. -/
lemma feedAll_readUntil (n : Nat) (d : Decoder) (bits : List Bool) :
    (readUntil m n d bits).1.feedAll m (readUntil m n d bits).2 = d.feedAll m bits := by
  induction bits generalizing d with
  | nil => rfl
  | cons b bits ih =>
    rw [readUntil]
    split
    · rfl
    · rw [ih, feedAll_cons]

end Decoder

/-! ### Synchrony -/

/-- A decoder that read `p` understands the codes of the words it knows and of `p` extended by the
first symbol of the word that follows. -/
lemma word_of_mem {d : Decoder} {p w : List Nat} (hp : p ≠ []) (hprev : d.prev = some p)
    (hlong : 2 ≤ w.length) (hw : w ∈ d.table ++ [p ++ w.take 1]) :
    d.word m (code m (d.table ++ [p ++ w.take 1]) w) = some w := by
  have hidx := List.idxOf_lt_length_of_mem hw
  have hget := List.getElem?_eq_getElem hidx
  rw [List.getElem_idxOf] at hget
  rw [List.length_append, List.length_singleton] at hidx
  rw [code_of_long hlong, Decoder.word, if_neg (by rw [firstCode]; omega), if_neg (by omega)]
  generalize List.idxOf w (d.table ++ [p ++ w.take 1]) = i at hidx hget
  by_cases hlast : i = d.table.length
  · -- the word the decoder is about to learn: it ends with the symbol it begins with
    subst hlast
    rw [List.getElem?_append_right le_rfl, Nat.sub_self, List.getElem?_cons_zero] at hget
    have hw : p ++ w.take 1 = w := Option.some.inj hget
    have hfirst : w.take 1 = p.take 1 :=
      (congrArg (List.take 1) hw).symm.trans
        (List.take_append_of_le_length (List.length_pos_iff.mpr hp))
    rw [if_pos rfl, hprev, Option.map_some, ← hfirst, hw]
  · rw [if_neg (by omega), Nat.add_sub_cancel_left, ← hget, List.getElem?_append_left (by omega)]

/-- What a decoder knows that has read what the encoder has written; the symbols taken are `xs`. -/
structure Synced (m : Nat) (xs : List Nat) (e : Encoder) (d : Decoder) : Prop where
  reading : d.phase = .reading
  pending : d.pending = []
  out : d.out ++ e.cur = xs
  width : d.width = e.width m
  /-- The decoder is one word behind: it does not know yet how the previous one is extended. -/
  table : d.prev = none ∧ d.table = [] ∧ e.dict = [] ∨
    ∃ p, p ≠ [] ∧ d.prev = some p ∧ e.dict = d.table ++ [p ++ e.cur.take 1]
  valid : e.Valid m

namespace Synced

variable {xs : List Nat} {e : Encoder} {d : Decoder}

lemma width_pos (h : Synced m xs e d) : 0 < d.width := by
  rw [h.width, Encoder.width, Nat.size_pos, lastCode, endCode]
  exact Nat.add_pos_left (Nat.succ_pos _) _

lemma code_lt (h : Synced m xs e d) : code m e.dict e.cur < 2 ^ d.width := by
  rw [h.width]
  exact (h.valid.known.code_le h.valid.dict.long).trans_lt (Nat.lt_size_self _)

/-- The decoder understands the code of the current word, learnt just now or before. -/
lemma word (h : Synced m xs e d) : d.word m (code m e.dict e.cur) = some e.cur := by
  rcases h.valid.known.cases with ⟨x, hx, hcur⟩ | hw
  · rw [hcur]
    exact if_pos hx
  · obtain ⟨-, -, hdict⟩ | ⟨p, hp, hprev, hdict⟩ := h.table
    · rw [hdict] at hw
      cases hw
    · rw [hdict] at hw ⊢
      exact word_of_mem hp hprev (h.valid.dict.long _ (hdict ▸ hw)) hw

/-- Having read the current word, the decoder has caught up with the dictionary. -/
lemma onCode (hm : 2 ≤ m) (h : Synced m xs e d) :
    d.onCode m (code m e.dict e.cur) =
      ⟨e.dict, (firstCode m + e.dict.length).size, some e.cur, [], xs, .reading⟩ := by
  obtain ⟨hclear, hend⟩ := h.valid.known.code_ne h.valid.dict.long
  rw [Decoder.onCode_word hclear hend h.word, h.out, Decoder.learn]
  have hwidth : d.width = (endCode m + e.dict.length).size := h.width
  obtain ⟨hprev, htable, hdict⟩ | ⟨p, hp, hprev, hdict⟩ := h.table
  · rw [hprev]
    simp only [hwidth, htable, hdict, List.length_nil, h.pending, h.reading, Nat.add_zero,
      size_endCode hm, size_firstCode hm]
  · have hlen : e.dict.length = d.table.length + 1 := by
      rw [hdict, List.length_append, List.length_singleton]
    have hroom : endCode m + e.dict.length < 4095 := by
      have := h.valid.room
      rw [capacity] at this
      omega
    have hfirst := firstCode_eq m
    have hsize := size_succ (endCode m + e.dict.length)
    have hnext : firstCode m + d.table.length + 1 = endCode m + e.dict.length + 1 := by omega
    rw [hprev]
    simp only [if_pos (show firstCode m + d.table.length < 4096 by omega), ← hdict, h.pending,
      h.reading, hnext, hwidth, show firstCode m + e.dict.length = endCode m + e.dict.length + 1
        by omega, hsize]
    congr 1
    by_cases hpow : endCode m + e.dict.length + 1 = 2 ^ (endCode m + e.dict.length).size
    · have h12 : (endCode m + e.dict.length).size < 12 := by
        by_contra hge
        have := Nat.pow_le_pow_right (n := 2) (by decide) (Nat.not_lt.mp hge)
        omega
      rw [if_pos hpow, if_pos ⟨hpow, h12⟩]
    · rw [if_neg hpow, if_neg fun hand => hpow hand.1]

lemma flush (hm : 2 ≤ m) (h : Synced m xs e d) :
    d.feedAll m (e.flush m) =
      ⟨e.dict, (firstCode m + e.dict.length).size, some e.cur, [], xs, .reading⟩ := by
  rw [Encoder.flush, ← h.width, Decoder.feedAll_natBits h.reading h.pending h.width_pos h.code_lt,
    h.onCode hm]

/-- The decoder stays in step when the encoder takes a symbol. -/
lemma push (hm : 2 ≤ m) (hm' : m < 12) (h : Synced m xs e d) {x : Nat} (hx : x < 2 ^ m) :
    Synced m (xs ++ [x]) (e.push m x).1 (d.feedAll m (e.push m x).2) := by
  have hcur := h.valid.cur_ne_nil
  have hvalid := h.valid.push hm' hx
  rcases Encoder.push_cases hcur x with ⟨hmem, heq⟩ | ⟨-, hfull, heq⟩ | ⟨-, -, heq⟩ <;>
    rw [heq] at hvalid ⊢
  · refine { h with out := ?_, width := h.width, table := ?_, valid := hvalid }
    · rw [Decoder.feedAll_nil, ← List.append_assoc, h.out]
    · have htake : (e.cur ++ [x]).take 1 = e.cur.take 1 :=
        List.take_append_of_le_length (List.length_pos_iff.mpr hcur)
      rw [Decoder.feedAll_nil, htake]
      exact h.table
  · -- the clear code empties the dictionary and the table
    have hclear : clearCode m < 2 ^ (firstCode m + e.dict.length).size := by
      refine lt_trans ?_ (Nat.lt_size_self _)
      rw [firstCode, clearCode]
      omega
    have hpos : 0 < (firstCode m + e.dict.length).size := Nat.size_pos.mpr (by
      rw [firstCode]
      omega)
    rw [Decoder.feedAll_append, h.flush hm, lastCode_append, Decoder.feedAll_natBits rfl rfl hpos
      hclear, Decoder.onCode_clear]
    exact
      { reading := rfl, pending := rfl, out := rfl
        width := (size_endCode hm).symm
        table := .inl ⟨rfl, rfl, rfl⟩
        valid := hvalid }
  · rw [h.flush hm]
    exact
      { reading := rfl, pending := rfl, out := rfl
        width := by rw [Encoder.width, lastCode_append]
        table := .inr ⟨e.cur, hcur, rfl, rfl⟩
        valid := hvalid }

lemma pushAll (hm : 2 ≤ m) (hm' : m < 12) (h : Synced m xs e d) {ys : List Nat}
    (hys : ∀ y ∈ ys, y < 2 ^ m) :
    Synced m (xs ++ ys) (e.pushAll m ys).1 (d.feedAll m (e.pushAll m ys).2) := by
  induction ys generalizing xs e d with
  | nil => rwa [Encoder.pushAll, Decoder.feedAll_nil, List.append_nil]
  | cons y ys ih =>
    have hpush := h.push hm hm' (hys y List.mem_cons_self)
    have := ih hpush fun y' hy' => hys y' (List.mem_cons_of_mem _ hy')
    rwa [List.append_assoc, List.singleton_append, ← Decoder.feedAll_append] at this

end Synced

/-- After the leading clear code and the first symbol. -/
lemma synced_first (hm : 2 ≤ m) (hm' : m < 12) {x : Nat} (hx : x < 2 ^ m) :
    Synced m [x] ⟨[], [x]⟩ (Decoder.start m) where
  reading := rfl
  pending := rfl
  out := rfl
  width := (size_endCode hm).symm
  table := .inl ⟨rfl, rfl, rfl⟩
  valid := valid_first hm' hx

/-- The encoder after all symbols. -/
def lastEncoder (m : Nat) (xs : List Nat) : Encoder := (Encoder.start.pushAll m xs).1

/-- The decoder after the code of the last symbol: it has learnt the whole dictionary, and reads
the next code as wide as the first code beyond it. -/
def lastDecoder (m : Nat) (xs : List Nat) : Decoder :=
  ⟨(lastEncoder m xs).dict, (firstCode m + (lastEncoder m xs).dict.length).size,
    some (lastEncoder m xs).cur, [], xs, .reading⟩

/-- What `encode` writes after the code of the last symbol. -/
def closing (m : Nat) (xs : List Nat) : List Bool :=
  natBits ((lastEncoder m xs).width m) (clearCode m) ++ natBits (m + 1) (endCode m)

/-- Reading until all symbols are out stops right behind the code of the last one. -/
theorem readUntil_encode (hm : 2 ≤ m) (hm' : m < 12) {xs : List Nat} (hne : xs ≠ [])
    (hxs : ∀ x ∈ xs, x < 2 ^ m) (rest : List Bool) :
    Decoder.readUntil m xs.length (Decoder.start m) (encode m xs ++ rest) =
      (lastDecoder m xs, closing m xs ++ rest) := by
  obtain ⟨x, ys, rfl⟩ := List.exists_cons_of_ne_nil hne
  have hsync := (synced_first hm hm' (hxs x List.mem_cons_self)).pushAll hm hm'
    fun y hy => hxs y (List.mem_cons_of_mem _ hy)
  obtain ⟨e, bits, hpush⟩ : ∃ e bits, Encoder.pushAll m ⟨[], [x]⟩ ys = (e, bits) := ⟨_, _, rfl⟩
  have hlast : lastEncoder m (x :: ys) = e := congrArg Prod.fst hpush
  rw [hpush] at hsync
  have hencode : encode m (x :: ys) ++ rest =
      natBits (m + 1) (clearCode m) ++ (bits ++ (e.flush m ++ (closing m (x :: ys) ++ rest))) := by
    have : Encoder.start.pushAll m (x :: ys) = (e, bits) := hpush
    simp only [encode, this, closing, hlast, Encoder.footer, List.append_assoc]
  have hclear : (Decoder.start m).feedAll m (natBits (m + 1) (clearCode m)) = Decoder.start m :=
    (Decoder.feedAll_natBits (d := Decoder.start m) rfl rfl (Nat.succ_pos m)
      (Nat.pow_lt_pow_right (by decide) (Nat.lt_succ_self m))).trans (Decoder.onCode_clear _)
  have hflush := hsync.flush hm
  have hshort : ((Decoder.start m).feedAll m bits).out.length < (x :: ys).length := by
    have hcur := List.length_pos_iff.mpr hsync.valid.cur_ne_nil
    have hout := congrArg List.length hsync.out
    rw [List.length_append, List.singleton_append] at hout
    simp only at hcur hout
    omega
  have hcode : (e.flush m).length = ((Decoder.start m).feedAll m bits).width := by
    rw [Encoder.flush, length_natBits, ← hsync.width]
  rw [hencode, Decoder.readUntil_append (by rw [hclear]; exact Nat.succ_pos _), hclear,
    Decoder.readUntil_append hshort,
    Decoder.readUntil_code hsync.reading hsync.pending hshort hcode ?_ ?_, hflush, lastDecoder,
    hlast]
  · rfl
  · intro h0
    have := hsync.width_pos
    rw [← hcode, h0] at this
    exact absurd this (by simp)
  · rw [hflush]
    exact le_rfl

/-- Decoding gives the symbols back, whatever follows them. -/
theorem take_decode_encode (hm : 2 ≤ m) (hm' : m < 12) {xs : List Nat} (hne : xs ≠ [])
    (hxs : ∀ x ∈ xs, x < 2 ^ m) (rest : List Bool) :
    (decode m (encode m xs ++ rest)).take xs.length = xs := by
  have hread := readUntil_encode hm hm' hne hxs rest
  have hall := Decoder.feedAll_readUntil (m := m) xs.length (Decoder.start m) (encode m xs ++ rest)
  have hprefix := Decoder.out_prefix_feedAll (m := m) (lastDecoder m xs) (closing m xs ++ rest)
  rw [hread] at hall
  rw [decode, ← hall]
  exact (List.prefix_iff_eq_take.mp hprefix).symm

/-! ### The width of the closing clear code -/

/-- The two codes of the closing show how wide the first was written. -/
lemma natBits_clear_inj (hm : 1 ≤ m) {w w' : Nat} (hw : m < w) (hle : w ≤ w') {r r' : List Bool}
    (h : natBits w (clearCode m) ++ (natBits (m + 1) (endCode m) ++ r) =
      natBits w' (clearCode m) ++ r') : w = w' := by
  obtain ⟨k, rfl⟩ := Nat.exists_eq_add_of_le hle
  cases k with
  | zero => rfl
  | succ k =>
    have hhigh : clearCode m / 2 ^ w = 0 :=
      Nat.div_eq_of_lt (Nat.pow_lt_pow_right (by decide) hw)
    have hodd : endCode m % 2 = 1 := by
      rw [endCode, Nat.add_mod, Nat.pow_mod, Nat.mod_self, Nat.zero_pow (by omega)]
    rw [natBits_add w, List.append_assoc, hhigh] at h
    -- behind the narrower code the end code begins with a one, the wider code goes on with a zero
    have hhead := congrArg List.head? (List.append_cancel_left h)
    rw [natBits, natBits, hodd] at hhead
    cases hhead

lemma width_le_lastDecoder (xs : List Nat) :
    (lastEncoder m xs).width m ≤ (lastDecoder m xs).width := by
  apply Nat.size_le_size
  rw [lastCode, firstCode_eq]
  omega

lemma lt_width (e : Encoder) : m < e.width m := by
  apply Nat.lt_size.mpr
  rw [lastCode, endCode]
  omega

/-- A closing that a decoder reads as a clear code and the end code was written with the width the
decoder expects. -/
theorem width_eq_of_closing (hm : 1 ≤ m) {xs : List Nat} {pad pad' : List Bool}
    (h : closing m xs ++ pad = natBits (lastDecoder m xs).width (clearCode m) ++
      (natBits (m + 1) (endCode m) ++ pad')) :
    (lastDecoder m xs).width = (lastEncoder m xs).width m := by
  rw [closing, List.append_assoc] at h
  exact (natBits_clear_inj hm (lt_width _) (width_le_lastDecoder xs) h).symm

/-! ### The size of the dictionary -/

lemma phrases_ne_nil (dict : List (List Nat)) (cur xs : List Nat) : phrases m dict cur xs ≠ [] := by
  induction xs generalizing dict cur with
  | nil => exact List.cons_ne_nil _ _
  | cons x xs ih =>
    rw [phrases]
    split
    · exact ih _ _
    · exact List.cons_ne_nil _ _

/-- Each phrase but the last one adds a word, and the dictionary is emptied when it is full. -/
lemma length_dict_pushAll {e : Encoder} (hcur : e.cur ≠ []) (hroom : e.dict.length < capacity m)
    (xs : List Nat) :
    (e.pushAll m xs).1.dict.length =
      (e.dict.length + ((phrases m e.dict e.cur xs).length - 1)) % capacity m := by
  induction xs generalizing e with
  | nil => exact (Nat.mod_eq_of_lt hroom).symm
  | cons x xs ih =>
    rw [Encoder.pushAll, Encoder.push, if_neg hcur, phrases]
    by_cases hmem : e.cur ++ [x] ∈ e.dict
    · simp only [if_pos hmem]
      exact ih (List.append_ne_nil_of_left_ne_nil hcur _) hroom
    · simp only [if_neg hmem, List.length_append, List.length_singleton]
      by_cases hfull : e.dict.length + 1 = capacity m
      · have hpos := List.length_pos_iff.mpr (phrases_ne_nil (m := m) [] [x] xs)
        have hih := ih (e := ⟨[], [x]⟩) (List.cons_ne_nil _ _) (hroom.trans_le' (Nat.zero_le _))
        simp only [if_pos hfull, List.length_cons]
        rw [hih, List.length_nil, Nat.zero_add, Nat.add_sub_cancel]
        obtain ⟨k, hk⟩ := Nat.exists_eq_add_of_lt hpos
        rw [hk, show e.dict.length + (0 + k + 1) = capacity m + k by omega, Nat.add_mod_left]
        congr 1
        omega
      · have hpos := List.length_pos_iff.mpr
          (phrases_ne_nil (m := m) (e.dict ++ [e.cur ++ [x]]) [x] xs)
        have hih := ih (e := ⟨e.dict ++ [e.cur ++ [x]], [x]⟩) (List.cons_ne_nil _ _) (by
          change (e.dict ++ [e.cur ++ [x]]).length < _
          rw [List.length_append, List.length_singleton]
          omega)
        simp only [if_neg hfull, List.length_cons]
        apply hih.trans
        change ((e.dict ++ [e.cur ++ [x]]).length +
          ((phrases m (e.dict ++ [e.cur ++ [x]]) [x] xs).length - 1)) % capacity m = _
        rw [List.length_append, List.length_singleton]
        congr 1
        omega

theorem length_dict_lastEncoder (hm : m < 12) {xs : List Nat} (hne : xs ≠ []) :
    (lastEncoder m xs).dict.length = (phraseCount m xs - 1) % capacity m := by
  obtain ⟨x, ys, rfl⟩ := List.exists_cons_of_ne_nil hne
  have h := length_dict_pushAll (e := ⟨[], [x]⟩) (List.cons_ne_nil _ _) (capacity_pos hm) ys
  rw [List.length_nil, Nat.zero_add] at h
  exact h

/-- The codes get wider with the last word learnt when its code is the last of their width. -/
lemma width_eq_iff (xs : List Nat) :
    (lastDecoder m xs).width = (lastEncoder m xs).width m ↔
      firstCode m + (lastEncoder m xs).dict.length ≠ 2 ^ (lastEncoder m xs).width m := by
  have hsize := size_succ (lastCode m (lastEncoder m xs).dict)
  have hsucc : firstCode m + (lastEncoder m xs).dict.length =
      lastCode m (lastEncoder m xs).dict + 1 := by
    rw [lastCode, firstCode_eq]
    omega
  rw [lastDecoder, hsucc, hsize, Encoder.width]
  split
  · next h => exact iff_of_false (Nat.succ_ne_self _) (not_not.mpr h)
  · next h => exact iff_of_true rfl h

/-! ### Runs of one symbol -/

/-- The words learnt from a run of `c`: the runs of length 2 to `j + 1`. -/
def powers (c j : Nat) : List (List Nat) := (List.range' 2 j).map fun i => List.replicate i c

lemma replicate_mem_powers {c i j : Nat} :
    List.replicate i c ∈ powers c j ↔ 2 ≤ i ∧ i ≤ j + 1 := by
  rw [powers, List.mem_map]
  constructor
  · rintro ⟨i', hi', heq⟩
    have hlen := congrArg List.length heq
    rw [List.length_replicate, List.length_replicate] at hlen
    have := List.mem_range'_1.mp hi'
    omega
  · intro h
    exact ⟨i, List.mem_range'_1.mpr (by omega), rfl⟩

/-- A run that is in the dictionary is read as one word. -/
lemma phrases_powers_known {c i j k : Nat} (hi : 1 ≤ i) (h : i + k ≤ j + 1) (xs : List Nat) :
    phrases m (powers c j) (List.replicate i c) (List.replicate k c ++ xs) =
      phrases m (powers c j) (List.replicate (i + k) c) xs := by
  induction k generalizing i with
  | zero => rfl
  | succ k ih =>
    have hmem : List.replicate i c ++ [c] ∈ powers c j := by
      rw [← List.replicate_succ', replicate_mem_powers]
      omega
    rw [List.replicate_succ, List.cons_append, phrases, if_pos hmem, ← List.replicate_succ',
      ih (by omega) (by omega)]
    congr 2
    omega

/-- The longest run in the dictionary is a phrase, and the next one is learnt. -/
lemma phrases_powers_learn {c j : Nat} (hj : j + 1 < capacity m) (xs : List Nat) :
    phrases m (powers c j) (List.replicate (j + 1) c) (c :: xs) =
      List.replicate (j + 1) c :: phrases m (powers c (j + 1)) [c] xs := by
  have hmem : List.replicate (j + 1) c ++ [c] ∉ powers c j := by
    rw [← List.replicate_succ', replicate_mem_powers]
    omega
  have hlen : (powers c j).length = j := by simp [powers]
  have hlearn : powers c j ++ [List.replicate (j + 1) c ++ [c]] = powers c (j + 1) := by
    rw [← List.replicate_succ', powers, powers, List.range'_1_concat, List.map_append,
      Nat.add_comm 2 j]
    rfl
  rw [phrases, if_neg hmem, hlen, if_neg hj.ne, hlearn]

lemma phrases_run {c n : Nat} (hn : n < capacity m) (xs : List Nat) :
    ∃ read : List (List Nat), read.length = n ∧
      phrases m [] [c] (List.replicate (n * (n + 1) / 2) c ++ xs) =
        read ++ phrases m (powers c n) [c] xs := by
  induction n generalizing xs with
  | zero => exact ⟨[], rfl, rfl⟩
  | succ n ih =>
    obtain ⟨read, hlen, hread⟩ := ih (by omega) (List.replicate n c ++ c :: xs)
    have htri : (n + 1) * (n + 1 + 1) / 2 = n * (n + 1) / 2 + (n + 1) := by
      have : (n + 1) * (n + 1 + 1) = n * (n + 1) + (n + 1) * 2 := by ring
      rw [this, Nat.add_mul_div_right _ _ (by decide)]
    have hknown := phrases_powers_known (m := m) (c := c) (j := n) le_rfl
      (Nat.add_comm 1 n).le (c :: xs)
    rw [Nat.add_comm 1 n, phrases_powers_learn hn] at hknown
    refine ⟨read ++ [List.replicate (n + 1) c], by simp [hlen], ?_⟩
    rw [htri, List.replicate_add, List.append_assoc, List.replicate_succ', List.append_assoc,
      List.singleton_append, hread, List.append_assoc, ← List.replicate_succ']
    exact congrArg (read ++ ·) hknown

/-- A run is cut into runs of length 1, 2, 3 and so on. -/
theorem phraseCount_replicate {n k : Nat} (hn : n < capacity m) (hk : k ≤ n) (c : Nat) :
    phraseCount m (List.replicate (n * (n + 1) / 2 + k + 1) c) = n + 1 := by
  obtain ⟨read, hlen, hread⟩ := phrases_run (c := c) hn (List.replicate k c)
  have hlast := phrases_powers_known (m := m) (c := c) le_rfl (by omega : 1 + k ≤ n + 1) []
  rw [List.append_nil] at hlast
  rw [List.replicate_succ, phraseCount, List.replicate_add, hread, List.length_append, hlen]
  exact congrArg (n + List.length ·) hlast

end Lzw
