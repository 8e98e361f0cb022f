import GifTools.Core.Deflate

/-!
# Streams of blocks

A deflated stream is a sequence of blocks: stored bytes, which begin at a byte, tokens in the fixed
codes, and tokens behind a header that gives the lengths of the words of their codes. These lengths
are written in a third code, with symbols for repetitions.
-/

namespace Deflate

open Bits Canonical

/-! ### Lengths of words -/

/-- The order in which the lengths of the third code are given. -/
def codelengthOrder : List Nat :=
  [16, 17, 18, 0, 8, 7, 9, 6, 10, 5, 11, 4, 12, 3, 13, 2, 14, 1, 15]

inductive Lencode where
  | length (l : Nat)
  /-- The last length, some times more. -/
  | again (extra : Nat)
  | zeros (extra : Nat)
  | manyZeros (extra : Nat)
  deriving DecidableEq

namespace Lencode

def symbol : Lencode → Nat
  | length l => l
  | again _ => 16
  | zeros _ => 17
  | manyZeros _ => 18

def extraBits : Lencode → List Bool
  | length _ => []
  | again extra => natBits 2 extra
  | zeros extra => natBits 3 extra
  | manyZeros extra => natBits 7 extra

def Valid : Lencode → Prop
  | length l => l < 16
  | again extra => extra < 2 ^ 2
  | zeros extra => extra < 2 ^ 3
  | manyZeros extra => extra < 2 ^ 7

instance (t : Lencode) : Decidable t.Valid := by
  cases t <;> unfold Valid <;> infer_instance

/-- The lengths with those of the symbol behind them. There is none before the first one to
repeat. -/
def apply (lens : List Nat) : Lencode → Option (List Nat)
  | length l => some (lens ++ [l])
  | again extra => lens.getLast?.map fun l => lens ++ List.replicate (extra + 3) l
  | zeros extra => some (lens ++ List.replicate (extra + 3) 0)
  | manyZeros extra => some (lens ++ List.replicate (extra + 11) 0)

def bits (codelengths : List Nat) (t : Lencode) : List Bool :=
  wordBits codelengths t.symbol ++ t.extraBits

end Lencode

/-- The lengths a sequence of symbols stands for, behind those that are there. -/
def expandLengths (lens : List Nat) (ts : List Lencode) : Option (List Nat) :=
  ts.foldlM Lencode.apply lens

variable {lens lens' : List Nat} {t : Lencode} {ts : List Lencode}

lemma expandLengths_cons_eq_some :
    expandLengths lens (t :: ts) = some lens' ↔
      ∃ mid, t.apply lens = some mid ∧ expandLengths mid ts = some lens' :=
  Option.bind_eq_some_iff

lemma length_lt_of_apply (h : t.apply lens = some lens') : lens.length < lens'.length := by
  cases t with
  | length l =>
    cases h
    rw [List.length_append]
    exact Nat.lt_succ_self _
  | again extra =>
    obtain ⟨l, -, rfl⟩ := Option.map_eq_some_iff.mp h
    rw [List.length_append, List.length_replicate]
    omega
  | zeros extra | manyZeros extra =>
    cases h
    rw [List.length_append, List.length_replicate]
    omega

lemma length_le_of_expandLengths (h : expandLengths lens ts = some lens') :
    lens.length ≤ lens'.length := by
  induction ts generalizing lens with
  | nil =>
    cases h
    exact le_rfl
  | cons t ts ih =>
    obtain ⟨mid, ht, hts⟩ := expandLengths_cons_eq_some.mp h
    exact (length_lt_of_apply ht).le.trans (ih hts)

/-- Only what a word can be long. -/
lemma le_of_apply (hlens : ∀ l ∈ lens, l ≤ 15) (hvalid : t.Valid)
    (h : t.apply lens = some lens') : ∀ l ∈ lens', l ≤ 15 := by
  have hmore : ∀ n k, k ≤ 15 → ∀ l ∈ lens ++ List.replicate n k, l ≤ 15 := by
    intro n k hk l hl
    rcases List.mem_append.mp hl with hl | hl
    · exact hlens l hl
    · exact (List.eq_of_mem_replicate hl).le.trans hk
  cases t with
  | length l =>
    cases h
    exact hmore 1 l (Nat.le_of_lt_succ hvalid)
  | again extra =>
    obtain ⟨l, hl, rfl⟩ := Option.map_eq_some_iff.mp h
    exact hmore _ l (hlens l (List.mem_of_getLast? hl))
  | zeros extra | manyZeros extra =>
    cases h
    exact hmore _ 0 (Nat.zero_le _)

lemma le_of_expandLengths (hlens : ∀ l ∈ lens, l ≤ 15) (hvalid : ∀ t ∈ ts, t.Valid)
    (h : expandLengths lens ts = some lens') : ∀ l ∈ lens', l ≤ 15 := by
  induction ts generalizing lens with
  | nil =>
    cases h
    exact hlens
  | cons t ts ih =>
    obtain ⟨mid, ht, hts⟩ := expandLengths_cons_eq_some.mp h
    exact ih (le_of_apply hlens (hvalid t List.mem_cons_self) ht)
      (fun t ht => hvalid t (List.mem_cons_of_mem _ ht)) hts

/-! ### Headers -/

/-- The codes of a block, and how they are written. -/
structure Codes where
  lit : List Nat
  dist : List Nat
  codelengths : List Nat
  /-- How many of the lengths of the third code are given. -/
  given : Nat
  lencodes : List Lencode
  lit_length : 257 ≤ lit.length ∧ lit.length ≤ 288
  dist_length : 1 ≤ dist.length ∧ dist.length ≤ 32
  codelengths_length : codelengths.length = 19
  given_range : 4 ≤ given ∧ given ≤ 19
  codelengths_lt : ∀ l ∈ codelengths, l < 2 ^ 3
  not_given : ∀ i ∈ codelengthOrder.drop given, len codelengths i = 0
  fits_codelengths : Fits codelengths 15
  coded : ∀ t ∈ lencodes, t.Valid ∧ 0 < len codelengths t.symbol
  expand_eq : expandLengths [] lencodes = some (lit ++ dist)
  fits_lit : Fits lit 15
  fits_dist : Fits dist 15

namespace Codes

variable (c : Codes)

def bits : List Bool :=
  natBits 5 (c.lit.length - 257) ++ natBits 5 (c.dist.length - 1) ++ natBits 4 (c.given - 4) ++
    ((codelengthOrder.take c.given).flatMap (fun i => natBits 3 (len c.codelengths i)) ++
      c.lencodes.flatMap (Lencode.bits c.codelengths))

lemma len_codelengths_lt (i : Nat) : len c.codelengths i < 2 ^ 3 := by
  rcases Nat.lt_or_ge i c.codelengths.length with hi | hi
  · rw [len_eq_getElem hi]
    exact c.codelengths_lt _ (List.getElem_mem hi)
  · rw [len, List.getD_eq_default _ _ hi]
    decide

lemma codelengths_le : ∀ l ∈ c.codelengths, l ≤ 15 :=
  fun l hl => (c.codelengths_lt l hl).le.trans (by decide)

lemma le_fifteen : ∀ l ∈ c.lit ++ c.dist, l ≤ 15 :=
  le_of_expandLengths (fun _ hl => absurd hl List.not_mem_nil) (fun t ht => (c.coded t ht).1)
    c.expand_eq

end Codes

/-! ### Blocks -/

inductive Block where
  /-- Bits up to a byte, and bytes as they are. -/
  | stored (pad : List Bool) (data : List UInt8)
  | fixed (ts : List Token)
  | dynamic (codes : Codes) (ts : List Token)

namespace Block

/-- The type and what lies behind it. -/
def bits : Block → List Bool
  | stored pad data =>
    natBits 2 0 ++ (pad ++ (natBits 16 data.length ++ natBits 16 (2 ^ 16 - 1 - data.length)) ++
      byteBits data)
  | fixed ts => natBits 2 1 ++ blockBits fixedLit fixedDist ts
  | dynamic codes ts => natBits 2 2 ++ (codes.bits ++ blockBits codes.lit codes.dist ts)

def apply (out : List UInt8) : Block → Option (List UInt8)
  | stored _ data => some (out ++ data)
  | fixed ts => expand out ts
  | dynamic _ ts => expand out ts

/-- A block whose type begins behind `pos` bits. -/
def Valid (pos : Nat) : Block → Prop
  | stored pad data => pad.length < 8 ∧ (pos + 2 + pad.length) % 8 = 0 ∧ data.length < 2 ^ 16
  | fixed ts => ∀ t ∈ ts, t.Valid
  | dynamic codes ts =>
    (∀ t ∈ ts, t.Valid ∧ t.Coded codes.lit codes.dist) ∧ 0 < len codes.lit 256

instance (pos : Nat) (b : Block) : Decidable (b.Valid pos) := by
  cases b <;> unfold Valid <;> infer_instance

def tokens : Block → List Token
  | stored _ _ => []
  | fixed ts => ts
  | dynamic _ ts => ts

end Block

/-- The bits of a sequence of blocks, each behind a bit that says whether it is the last one. -/
def streamBits : List Block → List Bool
  | [] => []
  | b :: bs => natBits 1 (if bs.isEmpty then 1 else 0) ++ b.bits ++ streamBits bs

/-- Every block is valid where it stands. -/
def Placed (pos : Nat) : List Block → Prop
  | [] => True
  | b :: bs => b.Valid (pos + 1) ∧ Placed (pos + 1 + b.bits.length) bs

instance decidablePlaced : (pos : Nat) → (bs : List Block) → Decidable (Placed pos bs)
  | _, [] => inferInstanceAs (Decidable True)
  | pos, b :: bs =>
    have := decidablePlaced (pos + 1 + b.bits.length) bs
    inferInstanceAs (Decidable (_ ∧ _))

/-- What the blocks stand for, behind what has been written. -/
def expandBlocks (out : List UInt8) (bs : List Block) : Option (List UInt8) :=
  bs.foldlM Block.apply out

/-- `bytes` are `data`, compressed in some blocks: a header in front, a check sum behind, and bits
up to a byte before it. -/
def IsStream (header checksum bytes data : List UInt8) (bs : List Block) : Prop :=
  bs ≠ [] ∧ Placed 0 bs ∧ expandBlocks [] bs = some data ∧
    ∃ pad : List Bool, pad.length < 8 ∧
      byteBits bytes = byteBits header ++ (streamBits bs ++ (pad ++ byteBits checksum))

lemma expandBlocks_cons_eq_some {b : Block} {bs : List Block} {out data : List UInt8} :
    expandBlocks out (b :: bs) = some data ↔
      ∃ mid, b.apply out = some mid ∧ expandBlocks mid bs = some data :=
  Option.bind_eq_some_iff

lemma length_le_of_expandBlocks {pos : Nat} {bs : List Block} {out data : List UInt8}
    (h : Placed pos bs) (hdata : expandBlocks out bs = some data) : out.length ≤ data.length := by
  induction bs generalizing pos out with
  | nil =>
    cases hdata
    exact le_rfl
  | cons b bs ih =>
    obtain ⟨mid, hmid, hrest⟩ := expandBlocks_cons_eq_some.mp hdata
    refine le_trans ?_ (ih h.2 hrest)
    cases b with
    | stored pad bytes =>
      cases hmid
      rw [List.length_append]
      exact Nat.le_add_right _ _
    | fixed ts =>
      rw [length_expand h.1 hmid]
      exact Nat.le_add_right _ _
    | dynamic codes ts =>
      rw [length_expand (fun t ht => (h.1.1 t ht).1) hmid]
      exact Nat.le_add_right _ _

/-- One block in the fixed codes. -/
lemma isStream_of_isFixedStream {header checksum bytes data : List UInt8}
    (h : IsFixedStream header checksum bytes data) :
    ∃ ts : List Token, ts.length ≤ data.length ∧
      IsStream header checksum bytes data [.fixed ts] := by
  obtain ⟨ts, pad, hts, hdata, hpad, hbits⟩ := h
  have hlength := length_expand hts hdata
  have hcount := length_le_sum_size hts
  rw [List.length_nil, Nat.zero_add] at hlength
  refine ⟨ts, by omega, List.cons_ne_nil _ _, ⟨hts, trivial⟩, ?_,
    List.replicate pad false, by rwa [List.length_replicate], ?_⟩
  · exact expandBlocks_cons_eq_some.mpr ⟨data, hdata, rfl⟩
  · rw [hbits]
    simp only [streamBits, Block.bits, List.isEmpty_nil, if_true, List.append_assoc,
      List.nil_append]

/-! ### How many blocks and tokens there are -/

lemma length_bits_pos {t : Token} {lit dist : List Nat} (h : t.Coded lit dist) :
    0 < (t.bits lit dist).length := by
  cases t with
  | literal b =>
    rw [Token.bits, length_wordBits]
    exact h
  | copy l lextra d dextra =>
    have hword := h.1
    simp only [Token.bits, List.length_append, length_wordBits]
    omega

lemma length_le_length_blockBits {ts : List Token} {lit dist : List Nat}
    (h : ∀ t ∈ ts, t.Coded lit dist) : ts.length ≤ (blockBits lit dist ts).length := by
  rw [blockBits, List.length_append]
  refine Nat.le_add_right_of_le ?_
  induction ts with
  | nil => exact Nat.zero_le _
  | cons t ts ih =>
    have hpos := length_bits_pos (h t List.mem_cons_self)
    have hrest := ih fun u hu => h u (List.mem_cons_of_mem _ hu)
    rw [List.flatMap_cons, List.length_append, List.length_cons]
    omega

lemma length_tokens_le {b : Block} {pos : Nat} (h : b.Valid pos) :
    b.tokens.length ≤ b.bits.length := by
  cases b with
  | stored pad data => exact Nat.zero_le _
  | fixed ts =>
    have hle := length_le_length_blockBits fun t ht => coded_fixed (h t ht)
    simp only [Block.tokens, Block.bits, List.length_append]
    omega
  | dynamic codes ts =>
    have hle := length_le_length_blockBits fun t ht => (h.1 t ht).2
    simp only [Block.tokens, Block.bits, List.length_append]
    omega

/-- There are less blocks than bits, and less tokens in each of them. -/
lemma length_le_length_streamBits {bs : List Block} {pos : Nat} (h : Placed pos bs) :
    bs.length ≤ (streamBits bs).length ∧
      ∀ b ∈ bs, b.tokens.length < (streamBits bs).length := by
  induction bs generalizing pos with
  | nil => exact ⟨le_rfl, fun b hb => absurd hb List.not_mem_nil⟩
  | cons b bs ih =>
    obtain ⟨hvalid, hplaced⟩ := h
    obtain ⟨hblocks, htokens⟩ := ih hplaced
    have hfirst := length_tokens_le hvalid
    simp only [streamBits, List.length_append, length_natBits, List.length_cons]
    refine ⟨by omega, ?_⟩
    rintro c (_ | ⟨_, hc⟩)
    · omega
    · have hc := htokens c hc
      omega

end Deflate
