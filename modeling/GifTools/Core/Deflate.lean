import GifTools.Core.Canonical
import GifTools.Core.Lz77

/-!
# Deflated data

The compressed blocks of the deflate format: literal bytes and copies of what lies before, written
as words of two prefix codes, with extra bits behind the words for lengths and distances. Which
codes these are is open; `fixedLit` and `fixedDist` are those every decoder knows.
-/

namespace Deflate

open Bits Radix Canonical Lz77

/-! ### Tokens -/

/-- The shortest length of each length symbol, the first of which is symbol 257. -/
def lengthBase : List Nat :=
  [3, 4, 5, 6, 7, 8, 9, 10, 11, 13, 15, 17, 19, 23, 27, 31, 35, 43, 51, 59, 67, 83, 99, 115, 131,
    163, 195, 227, 258]

def lengthExtra : List Nat :=
  [0, 0, 0, 0, 0, 0, 0, 0, 1, 1, 1, 1, 2, 2, 2, 2, 3, 3, 3, 3, 4, 4, 4, 4, 5, 5, 5, 5, 0]

/-- The shortest distance of each distance symbol. -/
def distBase : List Nat :=
  [1, 2, 3, 4, 5, 7, 9, 13, 17, 25, 33, 49, 65, 97, 129, 193, 257, 385, 513, 769, 1025, 1537, 2049,
    3073, 4097, 6145, 8193, 12289, 16385, 24577]

def distExtra : List Nat :=
  [0, 0, 0, 0, 1, 1, 2, 2, 3, 3, 4, 4, 5, 5, 6, 6, 7, 7, 8, 8, 9, 9, 10, 10, 11, 11, 12, 12, 13,
    13]

inductive Token where
  | literal (b : UInt8)
  /-- A length symbol and a distance symbol, each with the value of its extra bits. -/
  | copy (l lextra d dextra : Nat)
  deriving DecidableEq

namespace Token

/-- How much a copy copies. -/
def length (l lextra : Nat) : Nat := lengthBase.getD l 0 + lextra

def distance (d dextra : Nat) : Nat := distBase.getD d 0 + dextra

/-- A copy is not of what lies before the beginning. -/
def apply (out : List UInt8) : Token → Option (List UInt8)
  | literal b => some (out ++ [b])
  | copy l lextra d dextra =>
    if distance d dextra ≤ out.length then
      some (copyBack (distance d dextra) (length l lextra) out)
    else none

/-- The extra bits have the values they can have. -/
def Valid : Token → Prop
  | literal _ => True
  | copy l lextra d dextra =>
    l < 29 ∧ lextra < 2 ^ lengthExtra.getD l 0 ∧ d < 30 ∧ dextra < 2 ^ distExtra.getD d 0

instance (t : Token) : Decidable t.Valid := by
  cases t <;> unfold Valid <;> infer_instance

/-- What the two codes need words for. -/
def Coded (lit dist : List Nat) : Token → Prop
  | literal b => 0 < len lit b.toNat
  | copy l _ d _ => 0 < len lit (257 + l) ∧ 0 < len dist d

instance (lit dist : List Nat) (t : Token) : Decidable (t.Coded lit dist) := by
  cases t <;> unfold Coded <;> infer_instance

def bits (lit dist : List Nat) : Token → List Bool
  | literal b => wordBits lit b.toNat
  | copy l lextra d dextra =>
    wordBits lit (257 + l) ++ natBits (lengthExtra.getD l 0) lextra ++
      (wordBits dist d ++ natBits (distExtra.getD d 0) dextra)

end Token

/-- The bytes the tokens stand for, behind those that have been written. -/
def expand (out : List UInt8) (ts : List Token) : Option (List UInt8) := ts.foldlM Token.apply out

/-- The tokens, and the word that ends the block. -/
def blockBits (lit dist : List Nat) (ts : List Token) : List Bool :=
  ts.flatMap (Token.bits lit dist) ++ wordBits lit 256

@[simp] lemma expand_nil (out : List UInt8) : expand out [] = some out := rfl

lemma expand_cons (out : List UInt8) (t : Token) (ts : List Token) :
    expand out (t :: ts) = (t.apply out).bind fun out => expand out ts := rfl

lemma expand_append (out : List UInt8) (ts us : List Token) :
    expand out (ts ++ us) = (expand out ts).bind fun out => expand out us :=
  List.foldlM_append

/-! ### What the symbols stand for -/

lemma lengthBase_pos {l : Nat} (h : l < 29) : 3 ≤ lengthBase.getD l 0 := by
  revert l
  decide

lemma distBase_pos {d : Nat} (h : d < 30) : 0 < distBase.getD d 0 := by
  revert d
  decide

lemma distance_pos {d dextra : Nat} (h : d < 30) : 0 < Token.distance d dextra :=
  Nat.add_pos_left (distBase_pos h) dextra

lemma length_le {l lextra : Nat} (hl : l < 29) (hextra : lextra < 2 ^ lengthExtra.getD l 0) :
    Token.length l lextra ≤ 258 := by
  have htable : ∀ l < 29, lengthBase.getD l 0 + 2 ^ lengthExtra.getD l 0 ≤ 259 := by decide
  have h := htable l hl
  rw [Token.length]
  omega

/-- How many bytes a token stands for. -/
def Token.size : Token → Nat
  | literal _ => 1
  | copy l lextra _ _ => length l lextra

lemma size_pos {t : Token} (h : t.Valid) : 0 < t.size := by
  cases t with
  | literal b => exact Nat.one_pos
  | copy l lextra d dextra =>
    have hbase := lengthBase_pos h.1
    rw [Token.size, Token.length]
    omega

lemma length_apply {t : Token} {xs out : List UInt8} (h : t.Valid) (ht : t.apply xs = some out) :
    out.length = xs.length + t.size := by
  cases t with
  | literal b =>
    rw [Token.apply, Option.some.injEq] at ht
    rw [← ht, List.length_append]
    rfl
  | copy l lextra d dextra =>
    obtain ⟨-, -, hd, -⟩ := h
    rw [Token.apply] at ht
    split_ifs at ht with hle
    rw [Option.some.injEq] at ht
    rw [← ht, length_copyBack (distance_pos hd) hle]
    rfl

lemma expand_cons_eq_some {ts : List Token} {t : Token} {xs out : List UInt8} :
    expand xs (t :: ts) = some out ↔ ∃ ys, t.apply xs = some ys ∧ expand ys ts = some out := by
  rw [expand_cons, Option.bind_eq_some_iff]

lemma length_expand {ts : List Token} {xs out : List UInt8} (hts : ∀ t ∈ ts, t.Valid)
    (h : expand xs ts = some out) : out.length = xs.length + (ts.map Token.size).sum := by
  induction ts generalizing xs with
  | nil =>
    rw [expand_nil, Option.some.injEq] at h
    rw [← h]
    rfl
  | cons t ts ih =>
    obtain ⟨ys, ht, hys⟩ := expand_cons_eq_some.mp h
    rw [ih (fun u hu => hts u (List.mem_cons_of_mem _ hu)) hys,
      length_apply (hts t List.mem_cons_self) ht, List.map_cons, List.sum_cons, Nat.add_assoc]

/-- Every token stands for something. -/
lemma length_le_sum_size {ts : List Token} (hts : ∀ t ∈ ts, t.Valid) :
    ts.length ≤ (ts.map Token.size).sum := by
  induction ts with
  | nil => exact Nat.zero_le _
  | cons t ts ih =>
    have hpos := size_pos (hts t List.mem_cons_self)
    have hrest := ih fun u hu => hts u (List.mem_cons_of_mem _ hu)
    rw [List.map_cons, List.sum_cons, List.length_cons]
    omega

/-! ### The fixed codes -/

def fixedLit : List Nat :=
  List.replicate 144 8 ++ List.replicate 112 9 ++ List.replicate 24 7 ++ List.replicate 8 8

def fixedDist : List Nat := List.replicate 32 5

/-- `bytes` are `data`, compressed in one block with the fixed codes: two bytes in front, the check
sum behind, and zeros up to a byte before it. -/
def IsFixedStream (header checksum bytes data : List UInt8) : Prop :=
  ∃ (ts : List Token) (pad : Nat), (∀ t ∈ ts, t.Valid) ∧ expand [] ts = some data ∧ pad < 8 ∧
    byteBits bytes = byteBits header ++ (natBits 1 1 ++ natBits 2 1) ++
      blockBits fixedLit fixedDist ts ++ List.replicate pad false ++ byteBits checksum

lemma length_fixedLit : fixedLit.length = 288 := by
  simp only [fixedLit, List.length_append, List.length_replicate]

lemma fits_fixedLit : Fits fixedLit 15 := by
  rw [fits_iff_kraft, fixedLit]
  simp only [kraft_append]
  rw [kraft_replicate _ (by decide) (by decide), kraft_replicate _ (by decide) (by decide),
    kraft_replicate _ (by decide) (by decide), kraft_replicate _ (by decide) (by decide)]
  decide

lemma fits_fixedDist : Fits fixedDist 15 := by
  rw [fits_iff_kraft, fixedDist, kraft_replicate _ (by decide) (by decide)]
  decide

section

variable {i : Nat}

lemma fixedLit_first (h : i < 144) : len fixedLit i = 8 ∧ rank fixedLit i = i := by
  have hblock := len_rank_replicate (s := 8) (m := 144) []
    (List.replicate 112 9 ++ (List.replicate 24 7 ++ List.replicate 8 8)) (Nat.zero_le i)
    (by rwa [List.length_nil, Nat.zero_add])
  rw [List.nil_append, List.count_nil, List.length_nil, Nat.zero_add, Nat.sub_zero] at hblock
  rwa [fixedLit, List.append_assoc, List.append_assoc]

lemma fixedLit_second (hge : 144 ≤ i) (h : i < 256) :
    len fixedLit i = 9 ∧ rank fixedLit i = i - 144 := by
  have hblock := len_rank_replicate (s := 9) (m := 112) (i := i) (List.replicate 144 8)
    (List.replicate 24 7 ++ List.replicate 8 8) (by rwa [List.length_replicate])
    (by rwa [List.length_replicate])
  rw [List.count_replicate, List.length_replicate, if_neg (by decide), Nat.zero_add] at hblock
  rwa [fixedLit, List.append_assoc, List.append_assoc]

lemma fixedLit_third (hge : 256 ≤ i) (h : i < 280) :
    len fixedLit i = 7 ∧ rank fixedLit i = i - 256 := by
  have hlength : (List.replicate 144 8 ++ List.replicate 112 9).length = 256 := by
    rw [List.length_append, List.length_replicate, List.length_replicate]
  have hblock := len_rank_replicate (s := 7) (m := 24) (i := i)
    (List.replicate 144 8 ++ List.replicate 112 9) (List.replicate 8 8) (by rwa [hlength])
    (by rwa [hlength])
  rw [List.count_append, List.count_replicate, List.count_replicate, hlength, if_neg (by decide),
    if_neg (by decide), Nat.zero_add] at hblock
  rwa [fixedLit, List.append_assoc]

lemma fixedLit_fourth (hge : 280 ≤ i) (h : i < 288) :
    len fixedLit i = 8 ∧ rank fixedLit i = 144 + (i - 280) := by
  have hlength :
      (List.replicate 144 8 ++ List.replicate 112 9 ++ List.replicate 24 7).length = 280 := by
    rw [List.length_append, List.length_append, List.length_replicate, List.length_replicate,
      List.length_replicate]
  have hblock := len_rank_replicate (s := 8) (m := 8) (i := i)
    (List.replicate 144 8 ++ List.replicate 112 9 ++ List.replicate 24 7) [] (by rwa [hlength])
    (by rwa [hlength])
  rw [List.append_nil, List.count_append, List.count_append, List.count_replicate,
    List.count_replicate, List.count_replicate, hlength, if_pos (by decide), if_neg (by decide),
    if_neg (by decide)] at hblock
  exact hblock

lemma fixedDist_all (h : i < 32) : len fixedDist i = 5 ∧ rank fixedDist i = i := by
  have hblock := len_rank_replicate (s := 5) (m := 32) [] [] (Nat.zero_le i)
    (by rwa [List.length_nil, Nat.zero_add])
  rwa [List.nil_append, List.append_nil, List.count_nil, List.length_nil, Nat.zero_add,
    Nat.sub_zero] at hblock

lemma len_fixedLit (h : i < 288) : 7 ≤ len fixedLit i ∧ len fixedLit i ≤ 9 := by
  rcases Nat.lt_or_ge i 144 with h1 | h1
  · rw [(fixedLit_first h1).1]
    decide
  rcases Nat.lt_or_ge i 256 with h2 | h2
  · rw [(fixedLit_second h1 h2).1]
    decide
  rcases Nat.lt_or_ge i 280 with h3 | h3
  · rw [(fixedLit_third h2 h3).1]
    decide
  · rw [(fixedLit_fourth h3 h).1]
    decide

end

/-- No token takes up more than nine bits for each byte. -/
lemma length_bits_fixed {t : Token} (h : t.Valid) :
    (t.bits fixedLit fixedDist).length ≤ 9 * t.size := by
  cases t with
  | literal b =>
    have hb := b.toNat_lt
    have hlen := len_fixedLit (show b.toNat < 288 by omega)
    rw [Token.bits, length_wordBits]
    exact hlen.2
  | copy l lextra d dextra =>
    obtain ⟨hl, -, hd, -⟩ := h
    have hlen := len_fixedLit (show 257 + l < 288 by omega)
    have hdist := (fixedDist_all (show d < 32 by omega)).1
    have hextra : ∀ l < 29, lengthExtra.getD l 0 ≤ 2 * lengthBase.getD l 0 - 6 := by decide
    have hdextra : ∀ d < 30, distExtra.getD d 0 ≤ 13 := by decide
    have hbase := lengthBase_pos hl
    have h1 := hextra l hl
    have h2 := hdextra d hd
    simp only [Token.bits, List.length_append, length_wordBits, length_natBits, hdist,
      Token.size, Token.length]
    omega

lemma length_blockBits_fixed {ts : List Token} (hts : ∀ t ∈ ts, t.Valid) :
    (blockBits fixedLit fixedDist ts).length ≤ 9 * (ts.map Token.size).sum + 9 := by
  have hend : (wordBits fixedLit 256).length ≤ 9 := by
    rw [length_wordBits]
    exact (len_fixedLit (by decide)).2
  induction ts with
  | nil => simpa [blockBits] using hend
  | cons t ts ih =>
    have hfirst := length_bits_fixed (hts t List.mem_cons_self)
    have hrest := ih fun u hu => hts u (List.mem_cons_of_mem _ hu)
    rw [blockBits, List.length_append] at hrest ⊢
    rw [List.flatMap_cons, List.length_append, List.map_cons, List.sum_cons]
    omega

lemma coded_fixed {t : Token} (h : t.Valid) : t.Coded fixedLit fixedDist := by
  cases t with
  | literal b =>
    have hb := b.toNat_lt
    have hlen := len_fixedLit (show b.toNat < 288 by omega)
    exact Nat.lt_of_lt_of_le (by decide) hlen.1
  | copy l lextra d dextra =>
    obtain ⟨hl, -, hd, -⟩ := h
    have hlen := len_fixedLit (show 257 + l < 288 by omega)
    have hdist := (fixedDist_all (show d < 32 by omega)).1
    exact ⟨Nat.lt_of_lt_of_le (by decide) hlen.1, hdist.symm ▸ by decide⟩

end Deflate
