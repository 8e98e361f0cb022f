import GifTools.Gif.Determined

/-!
# The palette entries that are accessed

`treeSplitElt` and `treeSplit` have 255 entries, but the nodes above the leaves are 1 to 255, and
the last one is assigned whenever there is a pixel to split. Frames without a changed pixel do not
search the palette; all others access entries out of bounds.
-/

namespace GifTools

/-- The index is below the declared length. -/
def PaletteEvent.InBounds : PaletteEvent → Prop
  | .color ind => ind < 256
  | .node treeNode => treeNode < 255
  | .component elt => elt < 3

section

variable (lastFrame : Option Pixels) (nextFrame : Pixels) (width height : Nat)

/-- `GifMakePalette` assigns the entry for this frame: it has the same in all palettes that are
made, whatever was in their memory. -/
def Assigned (event : PaletteEvent) : Prop :=
  ∀ pPal pPal' pal pal', gifMakePalette lastFrame nextFrame width height 8 pPal = .ok pal →
    gifMakePalette lastFrame nextFrame width height 8 pPal' = .ok pal' →
    pal.read event = pal'.read event

/-- `GifThresholdImage` searches the palette for the pixel. -/
def Searched (ii : Nat) : Prop :=
  ii < uint32 (width * height) ∧ ∀ last ∈ lastFrame, (last ii).rgb ≠ (nextFrame ii).rgb

/-- A palette is made for the frame; whatever was in its memory, all entries that are changed are
in bounds; and so are all that are read for a pixel, which also have been assigned. -/
structure AccessesInBounds (env : Uninit) : Prop where
  made : ∃ pal, gifMakePalette lastFrame nextFrame width height 8 env.pal = .ok pal
  built : ∀ pPal pal, gifMakePalette lastFrame nextFrame width height 8 pPal = .ok pal →
    ∀ event, pal.read event ≠ pPal.read event → event.InBounds
  searched : ∀ pal, gifMakePalette lastFrame nextFrame width height 8 env.pal = .ok pal →
    ∀ ii, Searched lastFrame nextFrame width height ii →
    ∀ event ∈ closestEvents pal env.beyond (nextFrame ii),
      event.InBounds ∧ Assigned lastFrame nextFrame width height event

end

/-! ### The last node -/

section

variable {depth : Nat} {image image' : Pixels} {args : SplitArgs} {pal pal' pPal pPal' : GifPalette}

/-- Whether the recursion returns does not depend on the palette. -/
lemma exists_gifSplitPalette (h : gifSplitPalette depth image args pal = .ok (image', pal'))
    (pPal : GifPalette) : ∃ pPal', gifSplitPalette depth image args pPal = .ok (image', pPal') := by
  induction depth generalizing image args pal image' pal' pPal with
  | zero =>
    cases h
    exact ⟨pPal, rfl⟩
  | succ depth ih =>
    rcases args.done_or_leaf_or_inner with hdone | ⟨hpixels, hlast⟩ | hinner
    · rw [gifSplitPalette_done hdone] at h
      cases h
      exact ⟨_, gifSplitPalette_done hdone⟩
    · rw [gifSplitPalette_leaf hpixels hlast] at h
      cases h
      exact ⟨_, gifSplitPalette_leaf hpixels hlast⟩
    · obtain ⟨subPixelsA, subPixelsB, hparts, hpos, _, _, hleft, hright⟩ :=
        (gifSplitPalette_inner hinner).mp h
      obtain ⟨palA, hleft'⟩ := ih hleft
        (splitNode image args.first args.numPixels.toNat subPixelsA.toNat args.treeNode pPal)
      obtain ⟨palB, hright'⟩ := ih hright palA
      exact ⟨palB, (gifSplitPalette_inner hinner).mpr
        ⟨subPixelsA, subPixelsB, hparts, hpos, _, _, hleft', hright'⟩⟩

/-- A call for one colour leaves the nodes. -/
lemma read_node_of_leaf (h : gifSplitPalette depth image args pal = .ok (image', pal'))
    (hlast : args.lastElt = args.firstElt + 1) (j : Nat) :
    pal'.read (.node j) = pal.read (.node j) := by
  cases depth with
  | zero =>
    cases h
    rfl
  | succ depth =>
    by_cases hpixels : args.numPixels = 0
    · rw [gifSplitPalette_done (.inr hpixels)] at h
      cases h
      rfl
    · rw [gifSplitPalette_leaf hpixels hlast] at h
      cases h
      rfl

/-- The component of a node is one of the three. -/
lemma treeSplitElt_splitNode (image : Pixels) (first numPixels subPixelsA treeNode : Nat)
    (pal : GifPalette) :
    ((splitNode image first numPixels subPixelsA treeNode pal).treeSplitElt treeNode).toNat <
      3 := by
  have hcom := splitCom_lt image first numPixels
  have hset : (splitNode image first numPixels subPixelsA treeNode pal).treeSplitElt treeNode =
      UInt8.ofNat (splitCom image first numPixels) := Function.update_self ..
  rw [hset, UInt8.toNat_ofNat', Nat.mod_eq_of_lt (by omega)]
  exact hcom

/-- The right side of a split gets pixels. -/
lemma subPixelsB_ne_zero {subPixelsA subPixelsB : Int} (hinner : args.Inner)
    (hsplit : args.firstElt < args.splitElt) (hhalf : args.splitElt < args.lastElt)
    (h : args.subPixels = .ok (subPixelsA, subPixelsB)) : subPixelsB ≠ 0 := by
  obtain ⟨product, hproduct, h⟩ := Runs.bind_ok.mp h
  obtain ⟨rest, hrest, h⟩ := Runs.bind_ok.mp h
  cases h
  obtain ⟨rfl, -⟩ := intResult_ok hproduct
  obtain ⟨rfl, -⟩ := intResult_ok hrest
  intro hzero
  obtain ⟨c, hc⟩ : ∃ c : Int, (args.splitElt : Int) - args.firstElt = c := ⟨_, rfl⟩
  obtain ⟨d, hd⟩ : ∃ d : Int, (args.lastElt : Int) - args.firstElt = d := ⟨_, rfl⟩
  rw [hc, hd] at hzero
  -- the quotient would be the dividend without its factor
  have hpart : ((args.numPixels * c).tdiv d).natAbs * d.natAbs ≤ (args.numPixels * c).natAbs := by
    rw [Int.natAbs_tdiv]
    exact Nat.div_mul_le_self _ _
  have heq : args.numPixels = (args.numPixels * c).tdiv d := by omega
  rw [← heq, Int.natAbs_mul] at hpart
  have hle := Nat.le_of_mul_le_mul_left hpart (Int.natAbs_pos.mpr hinner.2)
  omega

/-- Along the right side of the tree, from a node `k` levels above the last one. -/
lemma treeSplitElt_last {k : Nat} (hk : k < depth) (hpixels : args.numPixels ≠ 0)
    (hfirst : args.firstElt = 256 - 2 ^ (k + 1)) (hlast : args.lastElt = 256)
    (hsplit : args.splitElt = 256 - 2 ^ k) (hdist : args.splitDist = 2 ^ k / 2)
    (hpos : 0 < args.treeNode) (hnode : (args.treeNode + 1) * 2 ^ k = 256)
    (h : gifSplitPalette depth image args pal = .ok (image', pal')) :
    (pal'.treeSplitElt 255).toNat < 3 := by
  induction k generalizing depth image args pal image' pal' with
  | zero =>
    obtain ⟨depth, rfl⟩ := Nat.exists_eq_add_one_of_ne_zero (Nat.ne_zero_of_lt hk)
    have htree : args.treeNode = 255 := by omega
    obtain ⟨_, _, -, -, _, _, hleft, hright⟩ :=
      (gifSplitPalette_inner ⟨by omega, hpixels⟩).mp h
    have hreadA := read_node_of_leaf hleft (by simp only [SplitArgs.left]; omega) 255
    have hread := read_node_of_leaf hright (by simp only [SplitArgs.right]; omega) 255
    rw [hreadA, GifPalette.read, GifPalette.read, List.cons.injEq] at hread
    rw [hread.1, ← htree]
    exact treeSplitElt_splitNode ..
  | succ k ih =>
    obtain ⟨depth, rfl⟩ := Nat.exists_eq_add_one_of_ne_zero (Nat.ne_zero_of_lt hk)
    have hpow := Nat.two_pow_pos k
    have hwidth : 2 ^ (k + 1) = 2 * 2 ^ k := pow_succ' 2 k
    have hwidth' : 2 ^ (k + 1 + 1) = 4 * 2 ^ k := by
      rw [pow_succ', hwidth, ← Nat.mul_assoc]
    have hchild : (args.treeNode * 2 + 1 + 1) * 2 ^ k = 256 := by
      rw [← hnode, pow_succ', ← Nat.mul_assoc, Nat.add_mul args.treeNode 1 2]
    have hle : 4 * 2 ^ k ≤ 256 := by
      rw [← hchild]
      exact Nat.mul_le_mul_right _ (by omega)
    have hinner : args.Inner := ⟨by omega, hpixels⟩
    obtain ⟨_, _, hparts, -, _, _, -, hright⟩ := (gifSplitPalette_inner hinner).mp h
    have hne := subPixelsB_ne_zero hinner (by omega) (by omega) hparts
    apply ih (by omega) hne _ _ _ _ _ hchild hright
    · exact hsplit
    · exact hlast
    · simp only [SplitArgs.right]
      omega
    · simp only [SplitArgs.right]
      omega
    · exact Nat.succ_pos _

/-- If there is a pixel to split, the last node is assigned. -/
lemma treeSplitElt_gifMakePalette {lastFrame : Option Pixels} {nextFrame : Pixels}
    {width height : Nat} (hpixels : changedPixels lastFrame nextFrame width height ≠ 0)
    (h : gifMakePalette lastFrame nextFrame width height 8 pPal = .ok pal) :
    (pal.treeSplitElt 255).toNat < 3 := by
  obtain ⟨_, made, hsplit, rfl⟩ := gifMakePalette_ok.mp h
  have hinner : (SplitArgs.root (splitInput lastFrame nextFrame width height).2 8).Inner :=
    ⟨show 1 + 1 < 256 by decide, hpixels⟩
  obtain ⟨subPixelsA, subPixelsB, hparts, -, _, _, -, hright⟩ :=
    (gifSplitPalette_inner hinner).mp hsplit
  have hne := subPixelsB_ne_zero hinner (show 1 < 128 by decide) (show 128 < 256 by decide) hparts
  generalize hargs : SplitArgs.right _ subPixelsA subPixelsB = args at hright
  have hlast : (made.treeSplitElt 255).toNat < 3 := by
    apply treeSplitElt_last (show 6 < 255 by decide) _ _ _ _ _ _ _ hright
    · rw [← hargs]
      exact hne
    · rw [← hargs]
      rfl
    · rw [← hargs]
      rfl
    · rw [← hargs]
      rfl
    · rw [← hargs]
      rfl
    · rw [← hargs]
      exact Nat.succ_pos _
    · rw [← hargs]
      exact (by decide : (1 * 2 + 1 + 1) * 2 ^ 6 = 256)
  have hkept : ((made.setNode 128 0 0).setColor 0 0 0 0).read (.node 255) =
      made.read (.node 255) :=
    (GifPalette.read_setColor_of_ne _ (by simp) ..).trans
      (GifPalette.read_setNode_of_ne _ (by simp) ..)
  exact (GifPalette.split_eq_of_read hkept).1 ▸ hlast

/-- Whether a palette is made does not depend on what was there. -/
lemma exists_gifMakePalette_of_ok {lastFrame : Option Pixels} {nextFrame : Pixels}
    {width height : Nat} (h : gifMakePalette lastFrame nextFrame width height 8 pPal = .ok pal)
    (pPal' : GifPalette) :
    ∃ pal', gifMakePalette lastFrame nextFrame width height 8 pPal' = .ok pal' := by
  obtain ⟨_, _, hsplit, -⟩ := gifMakePalette_ok.mp h
  obtain ⟨made, hsplit'⟩ := exists_gifSplitPalette hsplit { pPal' with bitDepth := 8 }
  exact ⟨_, gifMakePalette_ok.mpr ⟨_, made, hsplit', rfl⟩⟩

end

/-! ### Frames without a changed pixel -/

section

variable {lastFrame : Option Pixels} {last frame nextFrame : Pixels} {width height : Nat}

/-- The loop writes in front of what it reads. -/
lemma gifPickChangedPixels_spec (last frame : Pixels) (n : Nat) :
    (gifPickChangedPixels last frame n).2 =
        ((List.range n).countP fun ii => (last ii).rgb ≠ (frame ii).rgb) ∧
      (gifPickChangedPixels last frame n).2 ≤ n ∧
      ∀ ii, n ≤ ii → (gifPickChangedPixels last frame n).1 ii = frame ii := by
  rw [gifPickChangedPixels]
  induction n with
  | zero => exact ⟨rfl, le_rfl, fun _ _ => rfl⟩
  | succ n ih =>
    rw [List.range_succ, List.foldl_append, List.foldl_cons, List.foldl_nil, List.countP_append,
      List.countP_singleton]
    generalize (List.range n).foldl _ (frame, 0) = picked at ih ⊢
    obtain ⟨frame', numChanged⟩ := picked
    simp only at ih ⊢
    obtain ⟨hcount, hle, hrest⟩ := ih
    rw [hrest n le_rfl, ← hcount]
    by_cases hchanged : (last n).rgb ≠ (frame n).rgb
    · rw [if_pos hchanged, if_pos (decide_eq_true hchanged)]
      refine ⟨rfl, Nat.succ_le_succ hle, fun ii hii => ?_⟩
      exact (Function.update_of_ne (by omega) ..).trans (hrest ii (by omega))
    · rw [if_neg hchanged, if_neg (by simpa using hchanged)]
      exact ⟨rfl, Nat.le_succ_of_le hle, fun ii hii => hrest ii (by omega)⟩

lemma gifPickChangedPixels_of_eq {n : Nat} (h : ∀ ii < n, (last ii).rgb = (frame ii).rgb) :
    gifPickChangedPixels last frame n = (frame, 0) := by
  rw [gifPickChangedPixels]
  induction n with
  | zero => rfl
  | succ n ih =>
    rw [List.range_succ, List.foldl_append, List.foldl_cons, List.foldl_nil,
      ih fun ii hii => h ii (by omega)]
    exact if_neg (not_not.mpr (h n (by omega)))

/-- No pixel is searched, so none is changed. -/
lemma changedPixels_eq_zero (h : ∀ ii, ¬ Searched lastFrame nextFrame width height ii) :
    changedPixels lastFrame nextFrame width height = 0 := by
  cases lastFrame with
  | none =>
    have hnone : ¬ 0 < uint32 (width * height) := fun hpos => h 0 ⟨hpos, by simp⟩
    have hzero : width * height % 2 ^ 32 = 0 := Nat.eq_zero_of_not_pos hnone
    have hint : int32 (width * height : Nat) = (width * height % 2 ^ 32 : Nat) :=
      Bits.toInt_ofInt_of_mod_lt (by rw [hzero]; decide)
    exact hint.trans (congrArg _ hzero)
  | some last =>
    have hint := int32_le_uint32 (width * height)
    have hsame : ∀ ii < (int32 (width * height : Nat)).toNat,
        (last ii).rgb = (nextFrame ii).rgb := by
      intro ii hii
      by_contra hne
      exact h ii ⟨by omega, by simpa using hne⟩
    simp only [changedPixels, splitInput, gifPickChangedPixels_of_eq hsame, Nat.cast_zero]

/-- Then only node 128 and colour 0 are assigned. -/
lemma gifMakePalette_zero (h : changedPixels lastFrame nextFrame width height = 0)
    (pPal : GifPalette) : gifMakePalette lastFrame nextFrame width height 8 pPal =
      .ok (madePalette id pPal) :=
  gifMakePalette_ok.mpr ⟨_, _, gifSplitPalette_done (.inr h), rfl⟩

lemma node_mem_closestEvents {pal : GifPalette} (hdepth : pal.bitDepth = 8)
    (beyond : Nat → Int) (p : GifPixel) : .node 1 ∈ closestEvents pal beyond p := by
  rw [closestEvents, searchEvents, hdepth, if_neg (by decide)]
  exact List.mem_cons_self

/-- The search of a frame with nothing assigned starts at a node that is not assigned. -/
lemma not_assigned_zero (h : changedPixels lastFrame nextFrame width height = 0) :
    ¬ Assigned lastFrame nextFrame width height (.node 1) := by
  intro hassigned
  have hread := hassigned ((default : GifPalette).setNode 1 0 0)
    ((default : GifPalette).setNode 1 1 0) _ _ (gifMakePalette_zero h _) (gifMakePalette_zero h _)
  rw [read_madePalette (by decide) (by decide), read_madePalette (by decide) (by decide)] at hread
  exact absurd hread (by decide)

/-- Exactly the frames whose pixels are all as displayed access the palette in bounds. -/
lemma accessesInBounds_iff {env : Uninit} :
    AccessesInBounds lastFrame nextFrame width height env ↔
      ∀ ii, ¬ Searched lastFrame nextFrame width height ii := by
  constructor
  · intro h ii hsearched
    obtain ⟨pal, hpal⟩ := h.made
    by_cases hzero : changedPixels lastFrame nextFrame width height = 0
    · have hroot := h.searched pal hpal ii hsearched (.node 1)
        (node_mem_closestEvents (gifMakePalette_bitDepth hpal) _ _)
      exact not_assigned_zero hzero hroot.2
    · -- node 255 gets a component, whatever was there
      obtain ⟨pal', hpal'⟩ := exists_gifMakePalette_of_ok hpal (env.pal.setNode 255 3 0)
      have hlast := treeSplitElt_gifMakePalette hzero hpal'
      refine absurd (h.built _ _ hpal' (.node 255) ?_) (lt_irrefl 255)
      intro hread
      rw [GifPalette.read_setNode, GifPalette.read, List.cons.injEq] at hread
      rw [hread.1] at hlast
      exact absurd hlast (by decide)
  · intro h
    have hmade := gifMakePalette_zero (changedPixels_eq_zero h)
    refine ⟨⟨_, hmade env.pal⟩, ?_, ?_⟩
    · intro pPal pal hpal event hne
      obtain rfl := Except.ok.inj ((hmade pPal).symm.trans hpal)
      by_cases hnode : event = .node 128
      · rw [hnode]
        exact (by decide : 128 < 255)
      · by_cases hcolor : event = .color 0
        · rw [hcolor]
          exact (by decide : 0 < 256)
        · rw [read_madePalette hnode hcolor] at hne
          exact absurd (pPal.read_bitDepth 8 event) hne
    · intro pal _ ii hsearched
      exact absurd hsearched (h ii)

/-! ### Frames with a changed pixel for each colour -/

/-- The components of nodes stay among the three. -/
lemma Splits.treeSplitElt_lt {k : Nat} {image : Pixels}
    {first numPixels firstElt lastElt splitElt splitDist treeNode : Nat} {image' : Pixels}
    {assign : GifPalette → GifPalette}
    (h : Splits k image first numPixels firstElt lastElt splitElt splitDist treeNode image' assign)
    {j : Nat} {pal : GifPalette} (hpal : (pal.treeSplitElt j).toNat < 3) :
    ((assign pal).treeSplitElt j).toNat < 3 := by
  induction h using calls generalizing pal with
  | none => exact hpal
  | leaf _ _ => exact hpal
  | @node _ image _ _ _ _ first numPixels _ _ _ _ treeNode subPixelsA _ _ _ _ _ _ _ _ _ _ ihl
      ihr =>
    apply ihr
    apply ihl
    by_cases heq : j = treeNode
    · rw [heq]
      exact treeSplitElt_splitNode ..
    · have hne : PaletteEvent.node j ≠ .node treeNode := by simpa using heq
      have hkeeps : (splitNode image first numPixels subPixelsA treeNode pal).read (.node j) =
          pal.read (.node j) := keeps_splitNode hne pal
      rw [(GifPalette.split_eq_of_read hkeeps).1]
      exact hpal

lemma Splits.treeSplitElt_madePalette {image image' : Pixels} {numPixels : Nat}
    {assign : GifPalette → GifPalette}
    (h : Splits 8 image 0 numPixels 1 256 128 64 1 image' assign) (hmany : 255 ≤ numPixels)
    (pPal : GifPalette) {j : Nat} (hj : 0 < j) (hj' : j < 256) :
    ((madePalette assign pPal).treeSplitElt j).toNat < 3 := by
  by_cases hlowest : j = 128
  · rw [hlowest, (splitElt_eq_of_read read_madePalette_lowest).1]
    decide
  · have hread : (madePalette assign pPal).read (.node j) =
        (assign { pPal with bitDepth := 8 }).read (.node j) :=
      read_madePalette (by simpa using hlowest) (by simp)
    have hassigns := h.assigns_node (by decide) hmany (isBelow_one hj) hj' hlowest
    rw [(GifPalette.split_eq_of_read hread).1,
      (GifPalette.split_eq_of_read (hassigns _ ((default : GifPalette).setNode j 0 0))).1]
    apply h.treeSplitElt_lt
    rw [(splitElt_eq_of_read (GifPalette.read_setNode ..)).1]
    decide

/-- With a changed pixel for each colour, node 255 is all that is out of bounds, and what is read
has been assigned. -/
theorem closestEvents_assigned (h : 255 ≤ changedPixels lastFrame nextFrame width height)
    (h' : changedPixels lastFrame nextFrame width height * 127 < 2 ^ 31) (env : Uninit)
    (p : GifPixel) :
    ∃ pal, gifMakePalette lastFrame nextFrame width height 8 env.pal = .ok pal ∧
      ∀ event ∈ closestEvents pal env.beyond p, (event.InBounds ∨ event = .node 255) ∧
        Assigned lastFrame nextFrame width height event := by
  have hpos : 0 ≤ changedPixels lastFrame nextFrame width height := by omega
  obtain ⟨_, assign, hsplits, hmade⟩ := exists_gifMakePalette hpos h'
  have hassigned {event : PaletteEvent} (hassigns : Assigns (madePalette assign) event) :
      Assigned lastFrame nextFrame width height event := by
    intro pPal pPal' pal pal' hpal hpal'
    obtain rfl := Except.ok.inj ((hmade pPal).symm.trans hpal)
    obtain rfl := Except.ok.inj ((hmade pPal').symm.trans hpal')
    exact hassigns pPal pPal'
  refine ⟨_, hmade env.pal, fun event hevent => ?_⟩
  rcases mem_searchEvents (gifMakePalette_bitDepth (hmade env.pal)) (by decide) (by decide)
    hevent with ⟨e, he, rfl⟩ | ⟨j, hj, hj', rfl | rfl⟩
  · exact ⟨.inl he, hassigned (hsplits.madePalette_color (by omega) he)⟩
  · refine ⟨?_, hassigned (hsplits.madePalette_node (by omega) hj hj')⟩
    rcases Nat.lt_or_ge j 255 with hlt | hge
    · exact .inl hlt
    · exact .inr (congrArg _ (by omega))
  · exact ⟨.inl (hsplits.treeSplitElt_madePalette (by omega) env.pal hj hj'),
      fun _ _ _ _ _ _ => rfl⟩

end

/-! ### Calls -/

namespace AddImageCall

/-- The accesses to the palette of the frame that is written. -/
def PaletteInBounds (builder : GifBuilderGIFH) (call : AddImageCall) : Prop :=
  ∀ image, call.Accepts builder image →
    AccessesInBounds builder.writer.lastFrame (pixelsOf image.pixels) (uint32 image.width)
      (uint32 image.height) call.env

/-- A call accesses the palette in bounds exactly if it accepts no frame with a pixel to search:
splitting any pixel assigns node 255. -/
theorem paletteInBounds_iff (builder : GifBuilderGIFH) (call : AddImageCall) :
    PaletteInBounds builder call ↔ ∀ image, call.Accepts builder image → ∀ ii,
      ¬ Searched builder.writer.lastFrame (pixelsOf image.pixels) (uint32 image.width)
        (uint32 image.height) ii := by
  constructor
  · intro h image haccepts
    exact accessesInBounds_iff.mp (h image haccepts)
  · intro h image haccepts
    exact accessesInBounds_iff.mpr (h image haccepts)

/-- A first frame of one pixel. -/
theorem not_paletteInBounds_addRow :
    ¬ PaletteInBounds (gifBuilderInitialize (fun _ => default) 1 1 10) (addRow 1) := by
  intro h
  have hbounds := h _ ⟨rfl, rfl, by decide, rfl⟩
  exact accessesInBounds_iff.mp hbounds 0 ⟨by decide, by simp [GifWriter.lastFrame,
    gifBuilderInitialize, gifBegin]⟩

end AddImageCall

end GifTools
