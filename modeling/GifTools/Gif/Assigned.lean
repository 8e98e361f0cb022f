import GifTools.Gif.Split

/-!
# The palette after building

Each entry of the palette either keeps what was there, or gets a value that does not depend on it.
Which of the two depends on the number of pixels alone. `GifMakePalette` assigns two more entries,
node 128 and colour 0.
-/

namespace GifTools

open Select

/-! ### Entries -/

/-- What the functions of a palette access. -/
inductive PaletteEvent where
  /-- An entry of `r`, `g` and `b`. -/
  | color (ind : Nat)
  /-- An entry of `treeSplitElt` and `treeSplit`. -/
  | node (treeNode : Nat)
  /-- An entry of `comps`. -/
  | component (elt : Nat)
  deriving DecidableEq

namespace GifPalette

variable (pal : GifPalette)

/-- What is in an entry. -/
def read : PaletteEvent → List UInt8
  | .color ind => [pal.r ind, pal.g ind, pal.b ind]
  | .node treeNode => [pal.treeSplitElt treeNode, pal.treeSplit treeNode]
  | .component _ => []

@[simp] lemma read_setColor (ind : Nat) (r g b : UInt8) :
    (pal.setColor ind r g b).read (.color ind) = [r, g, b] := by
  simp [setColor, read]

@[simp] lemma read_setNode (treeNode : Nat) (splitElt split : UInt8) :
    (pal.setNode treeNode splitElt split).read (.node treeNode) = [splitElt, split] := by
  simp [setNode, read]

lemma read_setColor_of_ne {event : PaletteEvent} {ind : Nat} (h : event ≠ .color ind)
    (r g b : UInt8) : (pal.setColor ind r g b).read event = pal.read event := by
  cases event with
  | color e =>
    have hne : e ≠ ind := fun heq => h (congrArg _ heq)
    simp [setColor, read, Function.update_of_ne hne]
  | node _ => rfl
  | component _ => rfl

lemma read_setNode_of_ne {event : PaletteEvent} {treeNode : Nat} (h : event ≠ .node treeNode)
    (splitElt split : UInt8) : (pal.setNode treeNode splitElt split).read event =
      pal.read event := by
  cases event with
  | node j =>
    have hne : j ≠ treeNode := fun heq => h (congrArg _ heq)
    simp [setNode, read, Function.update_of_ne hne]
  | color _ => rfl
  | component _ => rfl

lemma read_bitDepth (bitDepth : Nat) (event : PaletteEvent) :
    { pal with bitDepth := bitDepth }.read event = pal.read event := by
  cases event <;> rfl

end GifPalette

/-! ### Kept and assigned -/

/-- The entry keeps what is in it. -/
def Keeps (assign : GifPalette → GifPalette) (event : PaletteEvent) : Prop :=
  ∀ pal, (assign pal).read event = pal.read event

/-- The entry gets what does not depend on the palette before. -/
def Assigns (assign : GifPalette → GifPalette) (event : PaletteEvent) : Prop :=
  ∀ pal pal', (assign pal).read event = (assign pal').read event

section

variable {assign assignA assignB : GifPalette → GifPalette} {event : PaletteEvent} {image : Pixels}
  {first numPixels subPixelsA ind treeNode : Nat}

lemma Keeps.comp (hB : Keeps assignB event) (hA : Keeps assignA event) :
    Keeps (assignB ∘ assignA) event := fun pal => (hB _).trans (hA pal)

lemma Assigns.comp (hB : Assigns assignB event) (assignA : GifPalette → GifPalette) :
    Assigns (assignB ∘ assignA) event := fun pal pal' => hB (assignA pal) (assignA pal')

lemma Keeps.comp_assigns (hB : Keeps assignB event) (hA : Assigns assignA event) :
    Assigns (assignB ∘ assignA) event :=
  fun pal pal' => (hB _).trans ((hA pal pal').trans (hB _).symm)

lemma keeps_leafColor (h : event ≠ .color ind) :
    Keeps (leafColor image first numPixels ind) event :=
  fun pal => pal.read_setColor_of_ne h _ _ _

lemma assigns_leafColor : Assigns (leafColor image first numPixels ind) (.color ind) := by
  intro pal pal'
  rw [leafColor, leafColor, GifPalette.read_setColor, GifPalette.read_setColor]

lemma keeps_splitNode (h : event ≠ .node treeNode) :
    Keeps (splitNode image first numPixels subPixelsA treeNode) event :=
  fun pal => pal.read_setNode_of_ne h _ _

lemma assigns_splitNode :
    Assigns (splitNode image first numPixels subPixelsA treeNode) (.node treeNode) := by
  intro pal pal'
  rw [splitNode, splitNode, GifPalette.read_setNode, GifPalette.read_setNode]

/-- No entry of the palette does both. -/
lemma Keeps.eq_component (h : Keeps assign event) (h' : Assigns assign event) :
    ∃ elt, event = .component elt := by
  have hsame (pal pal' : GifPalette) : pal.read event = pal'.read event :=
    (h pal).symm.trans ((h' pal pal').trans (h pal'))
  cases event with
  | color e =>
    have hread := hsame ((default : GifPalette).setColor e 0 0 0)
      ((default : GifPalette).setColor e 1 0 0)
    rw [GifPalette.read_setColor, GifPalette.read_setColor] at hread
    exact absurd hread (by decide)
  | node j =>
    have hread := hsame ((default : GifPalette).setNode j 0 0)
      ((default : GifPalette).setNode j 1 0)
    rw [GifPalette.read_setNode, GifPalette.read_setNode] at hread
    exact absurd hread (by decide)
  | component elt => exact ⟨elt, rfl⟩

end

/-! ### What the recursion assigns -/

namespace Splits

open KdTree

variable {k : Nat} {image : Pixels}
  {first numPixels firstElt lastElt splitElt splitDist treeNode : Nat} {image' : Pixels}
  {assign : GifPalette → GifPalette}

/-- Colours outside of the range of a call stay. -/
lemma keeps_color (h : Splits k image first numPixels firstElt lastElt splitElt splitDist treeNode
    image' assign) {e : Nat} (he : e < firstElt ∨ lastElt ≤ e) : Keeps assign (.color e) := by
  induction h using calls with
  | none => exact fun _ => rfl
  | leaf _ _ =>
    apply keeps_leafColor
    rintro heq
    cases heq
    omega
  | node _ hfirst hlast _ _ _ _ _ _ _ ihl ihr =>
    exact (ihr (by omega)).comp ((ihl (by omega)).comp (keeps_splitNode (by simp)))

/-- Nodes that are not below the one of a call stay, and node 128. -/
lemma keeps_node (h : Splits k image first numPixels firstElt lastElt splitElt splitDist treeNode
    image' assign) {j : Nat} (hj : ¬ (IsBelow treeNode j ∧ j ≠ 128)) :
    Keeps assign (.node j) := by
  induction h using calls with
  | none => exact fun _ => rfl
  | leaf _ _ => exact keeps_leafColor (by simp)
  | node _ _ _ _ _ _ hne _ _ _ ihl ihr =>
    apply (ihr fun hbelow => hj ⟨hbelow.1.of_right, hbelow.2⟩).comp
    apply (ihl fun hbelow => hj ⟨hbelow.1.of_left, hbelow.2⟩).comp
    apply keeps_splitNode
    rintro heq
    cases heq
    exact hj ⟨isBelow_self _, hne⟩

lemma keeps_above (h : Splits k image first numPixels firstElt lastElt splitElt splitDist treeNode
    image' assign) {j : Nat} (hj : j < treeNode) : Keeps assign (.node j) :=
  h.keeps_node fun hbelow => absurd hbelow.1.le (not_le.mpr hj)

lemma color_of_assigns (h : Splits k image first numPixels firstElt lastElt splitElt splitDist
    treeNode image' assign) {e : Nat} (he : Assigns assign (.color e)) :
    firstElt ≤ e ∧ e < lastElt := by
  by_contra hout
  obtain ⟨elt, helt⟩ := (h.keeps_color (by omega : e < firstElt ∨ lastElt ≤ e)).eq_component he
  cases helt

lemma node_of_assigns (h : Splits k image first numPixels firstElt lastElt splitElt splitDist
    treeNode image' assign) {j : Nat} (hj : Assigns assign (.node j)) :
    IsBelow treeNode j ∧ j ≠ 128 := by
  by_contra hout
  obtain ⟨elt, helt⟩ := (h.keeps_node hout).eq_component hj
  cases helt

/-- What is assigned on the left side is not assigned again on the right. -/
lemma keeps_right {image'' : Pixels} {assignA assignB : GifPalette → GifPalette}
    {k' first' numPixels' splitElt' splitElt'' splitDist' : Nat} {imageB : Pixels}
    (hnode : 0 < treeNode)
    (hleft : Splits k image first numPixels firstElt splitElt splitElt' splitDist (treeNode * 2)
      image' assignA)
    (hright : Splits k' imageB first' numPixels' splitElt lastElt splitElt'' splitDist'
      (treeNode * 2 + 1) image'' assignB) {event : PaletteEvent}
    (hevent : Assigns assignA event) : Keeps assignB event := by
  cases event with
  | component _ => exact fun _ => rfl
  | color e =>
    have hlt := (hleft.color_of_assigns hevent).2
    exact hright.keeps_color (.inl hlt)
  | node j =>
    have hbelow := (hleft.node_of_assigns hevent).1
    exact hright.keeps_node fun hbelow' => hbelow.not_right hnode hbelow'.1

/-- With a pixel for each colour, all colours are assigned. -/
lemma assigns_color (h : Splits k image first numPixels firstElt lastElt splitElt splitDist treeNode
    image' assign) (hsize : lastElt - firstElt ≤ numPixels) {e : Nat} (he : firstElt ≤ e)
    (he' : e < lastElt) : Assigns assign (.color e) := by
  induction h using calls with
  | none => omega
  | @leaf _ _ _ _ firstElt _ _ _ _ _ =>
    obtain rfl : e = firstElt := by omega
    exact assigns_leafColor
  | @node _ _ _ _ _ _ _ _ firstElt lastElt splitElt _ _ _ hpixels hfirst hlast _ hpart _ _ _ _
      hright ihl ihr =>
    obtain ⟨hl, hr⟩ := le_part (by omega : splitElt - firstElt ≤ lastElt - firstElt) (by omega)
      hsize
    rw [hpart] at hl hr
    by_cases hside : e < splitElt
    · exact (hright.keeps_color (.inl hside)).comp_assigns ((ihl hl he hside).comp _)
    · exact (ihr (by omega) (not_lt.mp hside) he').comp _

/-- And all nodes but the lowest one. -/
lemma assigns_node (h : Splits k image first numPixels firstElt lastElt splitElt splitDist treeNode
    image' assign) (hlt : firstElt < lastElt) (hsize : lastElt - firstElt ≤ numPixels) {j : Nat}
    (hj : IsBelow treeNode j) (hj' : j < 256) (hne : j ≠ 128) : Assigns assign (.node j) := by
  induction h with
  | none => omega
  | @leaf _ _ _ firstElt _ _ _ _ =>
    obtain ⟨d, hle, -⟩ := hj
    have := Nat.le_mul_of_pos_right (256 + firstElt) (Nat.two_pow_pos d)
    omega
  | lowest _ =>
    obtain ⟨d, hle, hlt'⟩ := hj
    cases d with
    | zero => omega
    | succ d =>
      have := Nat.two_pow_pos d
      rw [pow_succ] at hle
      omega
  | @node _ _ _ _ _ _ _ _ firstElt lastElt splitElt _ _ _ hpixels hfirst hlast _ hpart hnode _ _
      hleft hright ihl ihr =>
    obtain ⟨hl, hr⟩ := le_part (by omega : splitElt - firstElt ≤ lastElt - firstElt) (by omega)
      hsize
    rw [hpart] at hl hr
    rcases hj.cases with rfl | hj | hj
    · have hkeepsA := hleft.keeps_above (by omega : j < j * 2)
      have hkeepsB := hright.keeps_above (by omega : j < j * 2 + 1)
      exact hkeepsB.comp_assigns (hkeepsA.comp_assigns assigns_splitNode)
    · have hassigns := ihl hfirst hl hj
      exact (keeps_right hnode hleft hright hassigns).comp_assigns (hassigns.comp _)
    · exact (ihr hlast (by omega) hj).comp _

/-- With fewer pixels than colours, some colour is not assigned. -/
lemma exists_keeps_color (h : Splits k image first numPixels firstElt lastElt splitElt splitDist
    treeNode image' assign) (hsize : numPixels < lastElt - firstElt) :
    ∃ e, firstElt ≤ e ∧ e < lastElt ∧ Keeps assign (.color e) := by
  induction h using calls with
  | @none _ _ _ firstElt => exact ⟨firstElt, le_rfl, by omega, fun _ => rfl⟩
  | leaf hpixels _ => omega
  | @node _ _ _ _ _ _ _ numPixels firstElt lastElt splitElt _ _ subPixelsA hpixels hfirst hlast _
      hpart _ _ _ hleft hright ihl ihr =>
    by_cases hside : subPixelsA < splitElt - firstElt
    · obtain ⟨e, he, he', hkeeps⟩ := ihl hside
      refine ⟨e, he, by omega, ?_⟩
      exact (hright.keeps_color (.inl he')).comp (hkeeps.comp (keeps_splitNode (by simp)))
    · obtain ⟨e, he, he', hkeeps⟩ := ihr (by omega)
      refine ⟨e, by omega, he', ?_⟩
      exact hkeeps.comp ((hleft.keeps_color (.inr he)).comp (keeps_splitNode (by simp)))

end Splits

/-! ### The palette of a frame -/

section

variable {image image' : Pixels} {numPixels : Nat} {assign : GifPalette → GifPalette}
  {pPal : GifPalette} {event : PaletteEvent}

lemma read_madePalette (hnode : event ≠ .node 128) (hcolor : event ≠ .color 0) :
    (madePalette assign pPal).read event = (assign { pPal with bitDepth := 8 }).read event := by
  rw [madePalette, GifPalette.read_setColor_of_ne _ hcolor, GifPalette.read_setNode_of_ne _ hnode]

lemma read_madePalette_lowest : (madePalette assign pPal).read (.node 128) = [0, 0] := by
  rw [madePalette, GifPalette.read_setColor_of_ne _ (by simp), GifPalette.read_setNode]

lemma isBelow_one {j : Nat} (hj : 0 < j) : KdTree.IsBelow 1 j := by
  refine ⟨j.log2, ?_, ?_⟩
  · rw [Nat.one_mul]
    exact Nat.log2_self_le hj.ne'
  · rw [← pow_succ']
    exact Nat.lt_log2_self

namespace Splits

/-- With a pixel for each colour, every entry is assigned. -/
lemma madePalette_color (h : Splits 8 image 0 numPixels 1 256 128 64 1 image' assign)
    (hmany : 255 ≤ numPixels) {e : Nat} (he : e < 256) :
    Assigns (madePalette assign) (.color e) := by
  intro pal pal'
  rcases Nat.eq_zero_or_pos e with rfl | hpos
  · rw [madePalette, madePalette, GifPalette.read_setColor, GifPalette.read_setColor]
  · have hne : PaletteEvent.color e ≠ .color 0 := by simpa using hpos.ne'
    rw [read_madePalette (by simp) hne, read_madePalette (by simp) hne]
    exact h.assigns_color hmany hpos he _ _

lemma madePalette_node (h : Splits 8 image 0 numPixels 1 256 128 64 1 image' assign)
    (hmany : 255 ≤ numPixels) {j : Nat} (hj : 0 < j) (hj' : j < 256) :
    Assigns (madePalette assign) (.node j) := by
  intro pal pal'
  by_cases hne : j = 128
  · rw [hne, read_madePalette_lowest, read_madePalette_lowest]
  · have hne' : PaletteEvent.node j ≠ .node 128 := by simpa using hne
    rw [read_madePalette hne' (by simp), read_madePalette hne' (by simp)]
    exact h.assigns_node (by decide) hmany (isBelow_one hj) hj' hne _ _

/-- With fewer, some colour is not. -/
lemma exists_madePalette_keeps (h : Splits 8 image 0 numPixels 1 256 128 64 1 image' assign)
    (hfew : numPixels < 255) :
    ∃ e, 0 < e ∧ e < 256 ∧ Keeps (madePalette assign) (.color e) := by
  obtain ⟨e, he, he', hkeeps⟩ := h.exists_keeps_color hfew
  refine ⟨e, he, he', fun pal => ?_⟩
  have hne : PaletteEvent.color e ≠ .color 0 := by
    intro heq
    cases heq
    omega
  rw [read_madePalette (by simp) hne, hkeeps, GifPalette.read_bitDepth]

end Splits

end

end GifTools
