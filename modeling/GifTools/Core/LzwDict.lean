import GifTools.Core.Lzw

/-!
# Dictionaries

What holds of the dictionary of an encoder at all times, and of the codes and widths that follow
from it.
-/

namespace Lzw

variable {m : Nat}

/-! ### Widths -/

lemma firstCode_eq (m : Nat) : firstCode m = endCode m + 1 := rfl

lemma size_succ (n : Nat) :
    (n + 1).size = if n + 1 = 2 ^ n.size then n.size + 1 else n.size := by
  have hlt : n < 2 ^ n.size := Nat.lt_size_self n
  have hle : n.size ≤ (n + 1).size := Nat.size_le_size (Nat.le_succ n)
  by_cases h : n + 1 = 2 ^ n.size
  · rw [if_pos h]
    have h1 : n.size < (n + 1).size := Nat.lt_size.mpr h.ge
    have h2 : (n + 1).size ≤ n.size + 1 := Nat.size_le.mpr (by rw [pow_succ]; omega)
    omega
  · rw [if_neg h]
    have h2 : (n + 1).size ≤ n.size := Nat.size_le.mpr (by omega)
    omega

lemma size_endCode (hm : 2 ≤ m) : (endCode m).size = m + 1 := by
  have h4 : 2 ^ 2 ≤ 2 ^ m := Nat.pow_le_pow_right (by decide) hm
  have h1 : (endCode m).size ≤ m + 1 := Nat.size_le.mpr (by rw [endCode, pow_succ]; omega)
  have h2 : m < (endCode m).size := Nat.lt_size.mpr (by rw [endCode]; omega)
  omega

lemma size_firstCode (hm : 2 ≤ m) : (firstCode m).size = m + 1 := by
  have h4 : 2 ^ 2 ≤ 2 ^ m := Nat.pow_le_pow_right (by decide) hm
  have h1 : (firstCode m).size ≤ m + 1 := Nat.size_le.mpr (by rw [firstCode, pow_succ]; omega)
  have h2 : m < (firstCode m).size := Nat.lt_size.mpr (by rw [firstCode]; omega)
  omega

lemma capacity_pos (hm : m < 12) : 0 < capacity m := by
  have : 2 ^ m ≤ 2 ^ 11 := Nat.pow_le_pow_right (by decide) (by omega)
  rw [capacity, endCode]
  omega

/-! ### Words and their codes -/

/-- A word of the dictionary extends a symbol, so it is no symbol itself. -/
def Long (dict : List (List Nat)) : Prop := ∀ w ∈ dict, 2 ≤ w.length

/-- A word that has a code: a symbol or a word of the dictionary. -/
inductive Known (m : Nat) (dict : List (List Nat)) : List Nat → Prop where
  | symbol {x : Nat} : x < 2 ^ m → Known m dict [x]
  | word {w : List Nat} : w ∈ dict → Known m dict w

lemma Known.ne_nil {dict : List (List Nat)} {w : List Nat} (hlong : Long dict)
    (h : Known m dict w) : w ≠ [] := by
  cases h with
  | symbol _ => simp
  | word hw =>
    rintro rfl
    exact absurd (hlong _ hw) (by simp)

lemma code_of_long {dict : List (List Nat)} {w : List Nat} (h : 2 ≤ w.length) :
    code m dict w = firstCode m + dict.idxOf w := by
  match w, h with
  | _ :: _ :: _, _ => rfl

lemma Known.code_le {dict : List (List Nat)} {w : List Nat} (hlong : Long dict)
    (h : Known m dict w) : code m dict w ≤ lastCode m dict := by
  cases h with
  | symbol hx =>
    rw [lastCode, endCode]
    exact hx.le.trans (by omega)
  | word hw =>
    have := List.idxOf_lt_length_of_mem hw
    rw [code_of_long (hlong _ hw), lastCode, firstCode_eq]
    omega

lemma Known.code_ne {dict : List (List Nat)} {w : List Nat} (hlong : Long dict)
    (h : Known m dict w) : code m dict w ≠ clearCode m ∧ code m dict w ≠ endCode m := by
  cases h with
  | symbol hx =>
    constructor
    · exact hx.ne
    · exact (hx.trans (Nat.lt_succ_self _)).ne
  | word hw =>
    rw [code_of_long (hlong _ hw), firstCode_eq, endCode, clearCode]
    omega

lemma Known.cases {dict : List (List Nat)} {w : List Nat} (h : Known m dict w) :
    (∃ x < 2 ^ m, w = [x]) ∨ w ∈ dict := by
  cases h with
  | symbol hx => exact .inl ⟨_, hx, rfl⟩
  | word hw => exact .inr hw

lemma Known.append {dict : List (List Nat)} {w : List Nat} (h : Known m dict w)
    (new : List (List Nat)) : Known m (dict ++ new) w := by
  cases h with
  | symbol hx => exact .symbol hx
  | word hw => exact .word (List.mem_append_left _ hw)

/-- Different words have different codes. -/
lemma Known.code_inj {dict : List (List Nat)} {w w' : List Nat} (hlong : Long dict)
    (h : Known m dict w) (h' : Known m dict w') (hcode : code m dict w = code m dict w') :
    w = w' := by
  rcases h.cases with ⟨x, hx, rfl⟩ | hw <;> rcases h'.cases with ⟨y, hy, rfl⟩ | hw'
  · exact congrArg (fun x => [x]) hcode
  · rw [code_of_long (hlong _ hw'), firstCode] at hcode
    have : code m dict [x] = x := rfl
    omega
  · rw [code_of_long (hlong _ hw), firstCode] at hcode
    have : code m dict [y] = y := rfl
    omega
  · rw [code_of_long (hlong _ hw), code_of_long (hlong _ hw')] at hcode
    exact (List.idxOf_inj hw).mp (Nat.add_left_cancel hcode)

/-- Words are different, extend symbols, and begin with words known already. -/
structure Dictionary (m : Nat) (dict : List (List Nat)) : Prop where
  long : Long dict
  nodup : dict.Nodup
  closed : ∀ {w x}, w ++ [x] ∈ dict → Known m dict w

lemma dictionary_nil : Dictionary m [] where
  long _ hw := absurd hw List.not_mem_nil
  nodup := List.nodup_nil
  closed hw := absurd hw List.not_mem_nil

namespace Dictionary

variable {dict : List (List Nat)} {cur : List Nat} {x : Nat}

lemma extend (h : Dictionary m dict) (hcur : Known m dict cur) (hnew : cur ++ [x] ∉ dict) :
    Dictionary m (dict ++ [cur ++ [x]]) where
  long w hw := by
    rcases List.mem_append.mp hw with hw | hw
    · exact h.long w hw
    · rw [List.mem_singleton.mp hw, List.length_append, List.length_singleton]
      exact Nat.succ_le_succ (List.length_pos_iff.mpr (hcur.ne_nil h.long))
  nodup := List.nodup_append'.mpr ⟨h.nodup, List.nodup_singleton _,
    List.disjoint_singleton.mpr hnew⟩
  closed {w y} hw := by
    rcases List.mem_append.mp hw with hw | hw
    · exact (h.closed hw).append _
    · obtain ⟨rfl, -⟩ := List.append_inj' (List.mem_singleton.mp hw) rfl
      exact hcur.append _

/-- The codes of the words known stay, the new word gets the next code. -/
lemma code_append (h : Dictionary m dict) {w : List Nat} (hw : Known m dict w)
    (new : List (List Nat)) : code m (dict ++ new) w = code m dict w := by
  rcases hw.cases with ⟨y, -, rfl⟩ | hw
  · rfl
  · rw [code_of_long (h.long _ hw), code_of_long (h.long _ hw), List.idxOf_append_of_mem hw]

lemma code_new (h : Dictionary m dict) (hcur : Known m dict cur) (hnew : cur ++ [x] ∉ dict) :
    code m (dict ++ [cur ++ [x]]) (cur ++ [x]) = lastCode m dict + 1 := by
  have hlong := (h.extend hcur hnew).long (cur ++ [x]) (by simp)
  rw [code_of_long hlong, List.idxOf_append_of_notMem hnew, List.idxOf_cons_self, lastCode,
    firstCode_eq]
  omega

end Dictionary

lemma lastCode_append (m : Nat) (dict : List (List Nat)) (w : List Nat) :
    lastCode m (dict ++ [w]) = firstCode m + dict.length := by
  rw [lastCode, List.length_append, List.length_singleton, firstCode_eq]
  omega

namespace Encoder

variable {e : Encoder} {x : Nat}

/-- What holds of an encoder between two symbols. -/
structure Valid (m : Nat) (e : Encoder) : Prop where
  dict : Dictionary m e.dict
  known : Known m e.dict e.cur
  room : e.dict.length < capacity m

lemma Valid.cur_ne_nil (h : e.Valid m) : e.cur ≠ [] := h.known.ne_nil h.dict.long

/-- What taking a symbol does: extend the word, or write it and begin a new one, having filled the
dictionary or not. -/
lemma push_cases (hcur : e.cur ≠ []) (x : Nat) :
    (e.cur ++ [x] ∈ e.dict ∧ e.push m x = (⟨e.dict, e.cur ++ [x]⟩, [])) ∨
      (e.cur ++ [x] ∉ e.dict ∧ (e.dict ++ [e.cur ++ [x]]).length = capacity m ∧
        e.push m x = (⟨[], [x]⟩, e.flush m ++
          Bits.natBits (lastCode m (e.dict ++ [e.cur ++ [x]])).size (clearCode m))) ∨
      (e.cur ++ [x] ∉ e.dict ∧ (e.dict ++ [e.cur ++ [x]]).length ≠ capacity m ∧
        e.push m x = (⟨e.dict ++ [e.cur ++ [x]], [x]⟩, e.flush m)) := by
  rw [push, if_neg hcur]
  by_cases hmem : e.cur ++ [x] ∈ e.dict
  · exact .inl ⟨hmem, if_pos hmem⟩
  · right
    simp only [if_neg hmem]
    by_cases hfull : (e.dict ++ [e.cur ++ [x]]).length = capacity m
    · exact .inl ⟨hmem, hfull, if_pos hfull⟩
    · exact .inr ⟨hmem, hfull, if_neg hfull⟩

lemma Valid.push (hm : m < 12) (h : e.Valid m) (hx : x < 2 ^ m) : (e.push m x).1.Valid m := by
  rcases push_cases h.cur_ne_nil x with ⟨hmem, heq⟩ | ⟨-, -, heq⟩ | ⟨hmem, hfull, heq⟩ <;> rw [heq]
  · exact ⟨h.dict, .word hmem, h.room⟩
  · exact ⟨dictionary_nil, .symbol hx, capacity_pos hm⟩
  · have hroom := h.room
    rw [List.length_append, List.length_singleton] at hfull
    refine ⟨h.dict.extend h.known hmem, .symbol hx, ?_⟩
    change (e.dict ++ [e.cur ++ [x]]).length < capacity m
    rw [List.length_append, List.length_singleton]
    omega

end Encoder

/-- After the first symbol. -/
lemma valid_first (hm : m < 12) {x : Nat} (hx : x < 2 ^ m) : (⟨[], [x]⟩ : Encoder).Valid m :=
  ⟨dictionary_nil, .symbol hx, capacity_pos hm⟩

end Lzw
