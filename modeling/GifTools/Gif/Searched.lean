import GifTools.Gif.Assigned

/-!
# What a search reads

Which entries of the palette `GifGetClosestPaletteColor` reads depends on the entries:
`searchEvents` is its recursion with the entries it reads. The result depends on no other entries.
-/

namespace GifTools

/-- `GifGetClosestPaletteColor`: the entries it reads. -/
def searchEvents (pPal : GifPalette) (beyond : Nat → Int) (r g b : Int) :
    Nat → Nat → Nat × Int → List PaletteEvent
  | 0, _, _ => []
  | depth + 1, treeRoot, best =>
    if treeRoot > 2 ^ pPal.bitDepth - 1 then
      let ind := treeRoot - 2 ^ pPal.bitDepth
      if ind = kGifTransIndex then [] else [.color ind]
    else
      let elt := (pPal.treeSplitElt treeRoot).toNat
      let splitComp := comps r g b beyond elt
      let splitPos : Int := (pPal.treeSplit treeRoot).toNat
      .node treeRoot :: .component elt ::
        if splitPos > splitComp then
          let first := gifGetClosestPaletteColor pPal beyond r g b depth (treeRoot * 2) best
          searchEvents pPal beyond r g b depth (treeRoot * 2) best ++
            if first.2 > splitPos - splitComp then
              searchEvents pPal beyond r g b depth (treeRoot * 2 + 1) first
            else []
        else
          let first := gifGetClosestPaletteColor pPal beyond r g b depth (treeRoot * 2 + 1) best
          searchEvents pPal beyond r g b depth (treeRoot * 2 + 1) best ++
            if first.2 > splitComp - splitPos then
              searchEvents pPal beyond r g b depth (treeRoot * 2) first
            else []

/-- The call of the search for one pixel. -/
def closestEvents (pPal : GifPalette) (beyond : Nat → Int) (p : GifPixel) : List PaletteEvent :=
  searchEvents pPal beyond p.r.toNat p.g.toNat p.b.toNat (pPal.bitDepth + 1) 1 (1, 1000000)

/-! ### What the search depends on -/

section

variable {pal pal' : GifPalette} {beyond : Nat → Int} {r g b : Int} {depth treeRoot : Nat}

namespace GifPalette

lemma rgb_eq_of_read {e : Nat} (h : pal.read (.color e) = pal'.read (.color e)) :
    pal.r e = pal'.r e ∧ pal.g e = pal'.g e ∧ pal.b e = pal'.b e := by
  simpa [read] using h

lemma split_eq_of_read {j : Nat} (h : pal.read (.node j) = pal'.read (.node j)) :
    pal.treeSplitElt j = pal'.treeSplitElt j ∧ pal.treeSplit j = pal'.treeSplit j := by
  simpa [read] using h

end GifPalette

lemma gifGetClosestPaletteColor_congr (hdepth : pal.bitDepth = pal'.bitDepth) {best : Nat × Int}
    (h : ∀ event ∈ searchEvents pal beyond r g b depth treeRoot best,
      pal.read event = pal'.read event) :
    gifGetClosestPaletteColor pal beyond r g b depth treeRoot best =
      gifGetClosestPaletteColor pal' beyond r g b depth treeRoot best := by
  induction depth generalizing treeRoot best with
  | zero => rfl
  | succ depth ih =>
    rw [searchEvents] at h
    rw [gifGetClosestPaletteColor, gifGetClosestPaletteColor, ← hdepth]
    by_cases hleaf : treeRoot > 2 ^ pal.bitDepth - 1
    · rw [if_pos hleaf] at h ⊢
      rw [if_pos hleaf]
      by_cases htrans : treeRoot - 2 ^ pal.bitDepth = kGifTransIndex
      · simp only [if_pos htrans]
      · simp only [if_neg htrans] at h ⊢
        obtain ⟨hr, hg, hb⟩ := GifPalette.rgb_eq_of_read (h _ (List.mem_singleton.mpr rfl))
        rw [hr, hg, hb]
    · rw [if_neg hleaf] at h ⊢
      rw [if_neg hleaf]
      obtain ⟨helt, hsplit⟩ := GifPalette.split_eq_of_read (h _ List.mem_cons_self)
      simp only [List.mem_cons, forall_eq_or_imp] at h
      obtain ⟨-, -, h⟩ := h
      simp only [← helt, ← hsplit]
      split at h
      case isTrue hside =>
        simp only [List.mem_append] at h
        have hfirst := ih fun event hevent => h event (.inl hevent)
        rw [if_pos hside, if_pos hside, ← hfirst]
        split
        case isTrue hfar =>
          rw [if_pos hfar] at h
          exact ih fun event hevent => h event (.inr hevent)
        case isFalse => rfl
      case isFalse hside =>
        simp only [List.mem_append] at h
        have hfirst := ih fun event hevent => h event (.inl hevent)
        rw [if_neg hside, if_neg hside, ← hfirst]
        split
        case isTrue hfar =>
          rw [if_pos hfar] at h
          exact ih fun event hevent => h event (.inr hevent)
        case isFalse => rfl

lemma closestIndex_congr (hdepth : pal.bitDepth = pal'.bitDepth) {p : GifPixel}
    (h : ∀ event ∈ closestEvents pal beyond p, pal.read event = pal'.read event) :
    closestIndex pal beyond p = closestIndex pal' beyond p := by
  rw [closestIndex, closestIndex, ← hdepth]
  exact congrArg Prod.fst (gifGetClosestPaletteColor_congr hdepth h)

/-- Only nodes and colours of the tree are read. -/
lemma mem_searchEvents (hdepth : pal.bitDepth = 8) (hpos : 0 < treeRoot) (hroot : treeRoot < 512)
    {best : Nat × Int} {event : PaletteEvent}
    (h : event ∈ searchEvents pal beyond r g b depth treeRoot best) :
    (∃ e, e < 256 ∧ event = .color e) ∨
      ∃ j, 0 < j ∧ j < 256 ∧
        (event = .node j ∨ event = .component (pal.treeSplitElt j).toNat) := by
  induction depth generalizing treeRoot best with
  | zero => cases h
  | succ depth ih =>
    rw [searchEvents, hdepth] at h
    by_cases hleaf : treeRoot > 2 ^ 8 - 1
    · rw [if_pos hleaf] at h
      simp only at h
      split at h
      · cases h
      · exact .inl ⟨_, by omega, List.mem_singleton.mp h⟩
    · rw [if_neg hleaf] at h
      simp only [List.mem_cons] at h
      have hl (best) := @ih (treeRoot * 2) (by omega) (by omega) best
      have hr (best) := @ih (treeRoot * 2 + 1) (by omega) (by omega) best
      rcases h with h | h | h
      · exact .inr ⟨treeRoot, hpos, by omega, .inl h⟩
      · exact .inr ⟨treeRoot, hpos, by omega, .inr h⟩
      · split at h
        · rcases List.mem_append.mp h with h | h
          · exact hl _ h
          · split at h
            · exact hr _ h
            · cases h
        · rcases List.mem_append.mp h with h | h
          · exact hr _ h
          · split at h
            · exact hl _ h
            · cases h

end

end GifTools
