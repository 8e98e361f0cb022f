import GifTools.Core.Runs
import Mathlib.Data.List.Forall2

/-!
# Runs that do not depend on secrets

Operations that are `alike` differ in what is secret in them. An output that only grows is the same
in any two runs on operations that are alike exactly if at every operation performed the secret is
not used: a run on which one is used can be told from another one.
-/

namespace Secrets

open Runs

variable {S Op E B : Type*}

/-- What a system must obey: `I` is an invariant, `W` holds of operations that are well formed, `P`
of those that are defined, and `C` says that an operation does not use its secret. -/
structure Rules (step : S → Op → Except E S) (alike : Op → Op → Prop) (out : S → List B)
    (I : S → Prop) (W : Op → Prop) (P C : S → Op → Prop) : Prop where
  trans : ∀ {a b c}, alike a b → alike b c → alike a c
  refl : ∀ a, alike a a
  wellFormed : ∀ {a b}, alike a b → W a → W b
  step_ok : ∀ {s a}, I s → W a → P s a → ∃ t, step s a = .ok t
  keeps : ∀ {s a t}, I s → step s a = .ok t → I t
  grows : ∀ {s a t}, I s → step s a = .ok t → out s <+: out t
  isDefined : ∀ {s a}, I s → W a → C s a → P s a
  same : ∀ {s a b}, I s → W a → C s a → alike a b → step s a = step s b
  reveals : ∀ {s a t}, I s → W a → P s a → ¬ C s a → step s a = .ok t →
    ∃ b, alike a b ∧ ∀ t', step s b = .ok t' → ∀ xs, out t <+: xs → ¬ out t' <+: xs

/-- Runs on operations alike to these. -/
def Always (step : S → Op → Except E S) (alike : Op → Op → Prop) (P : S → Op → Prop) (s : S)
    (ops : List Op) : Prop :=
  ∀ ops', List.Forall₂ alike ops ops' → Along step P s ops'

/-- The output of two runs on operations alike to these is the same. -/
def SameOutput (step : S → Op → Except E S) (alike : Op → Op → Prop) (out : S → List B) (s : S)
    (ops : List Op) : Prop :=
  ∀ xs ys t t', List.Forall₂ alike ops xs → List.Forall₂ alike ops ys →
    run step s xs = .ok t → run step s ys = .ok t' → out t = out t'

lemma always_singleton {step : S → Op → Except E S} {alike : Op → Op → Prop}
    {P : S → Op → Prop} {s : S} {a : Op} :
    Always step alike P s [a] ↔ ∀ b, alike a b → P s b := by
  constructor
  · intro h b hab
    exact (along_cons.mp (h [b] (.cons hab .nil))).1
  · intro h ops' halike
    obtain ⟨b, _, hab, hnil, rfl⟩ := List.forall₂_cons_left_iff.mp halike
    obtain rfl := List.forall₂_nil_left_iff.mp hnil
    rw [along_cons]
    exact ⟨h b hab, fun u _ => along_nil⟩

namespace Rules

variable {step : S → Op → Except E S} {alike : Op → Op → Prop} {out : S → List B} {I : S → Prop}
  {W : Op → Prop} {P C : S → Op → Prop} {s t : S} {ops : List Op}

lemma forall₂_trans (h : Rules step alike out I W P C) {xs ys : List Op}
    (hxs : List.Forall₂ alike ops xs) (hys : List.Forall₂ alike xs ys) :
    List.Forall₂ alike ops ys := by
  induction hxs generalizing ys with
  | nil => exact hys
  | cons hab _ ih =>
    cases hys with
    | cons hbc hys => exact .cons (h.trans hab hbc) (ih hys)

lemma forall_wellFormed (h : Rules step alike out I W P C) {ops' : List Op}
    (halike : List.Forall₂ alike ops ops') (hW : ∀ a ∈ ops, W a) : ∀ a ∈ ops', W a := by
  induction halike with
  | nil => exact hW
  | cons hab _ ih =>
    obtain ⟨ha, hW⟩ := List.forall_mem_cons.mp hW
    exact List.forall_mem_cons.mpr ⟨h.wellFormed hab ha, ih hW⟩

/-- Runs of defined operations come to their end. -/
lemma run_ok (h : Rules step alike out I W P C) (hs : I s) (hW : ∀ a ∈ ops, W a)
    (hP : Along step P s ops) : ∃ t, run step s ops = .ok t := by
  induction ops generalizing s with
  | nil => exact ⟨s, rfl⟩
  | cons a ops ih =>
    obtain ⟨ha, hW⟩ := List.forall_mem_cons.mp hW
    obtain ⟨hPa, hP⟩ := along_cons.mp hP
    obtain ⟨u, hu⟩ := h.step_ok hs ha hPa
    obtain ⟨t, ht⟩ := ih (h.keeps hs hu) hW (hP u hu)
    exact ⟨t, run_cons_ok.mpr ⟨u, hu, ht⟩⟩

lemma run_grows (h : Rules step alike out I W P C) (hs : I s) (hrun : run step s ops = .ok t) :
    out s <+: out t := by
  induction ops generalizing s with
  | nil =>
    cases hrun
    exact List.prefix_rfl
  | cons a ops ih =>
    obtain ⟨u, hu, ht⟩ := run_cons_ok.mp hrun
    exact (h.grows hs hu).trans (ih (h.keeps hs hu) ht)

lemma always_isDefined (h : Rules step alike out I W P C) (hs : I s) (hW : ∀ a ∈ ops, W a)
    (hC : Along step C s ops) : Along step P s ops := by
  induction ops generalizing s with
  | nil => simp
  | cons a ops ih =>
    obtain ⟨ha, hW⟩ := List.forall_mem_cons.mp hW
    obtain ⟨hCa, hC⟩ := along_cons.mp hC
    exact along_cons.mpr ⟨h.isDefined hs ha hCa, fun u hu => ih (h.keeps hs hu) hW (hC u hu)⟩

/-- If no secret is used, runs on operations that are alike are the same. -/
lemma run_eq (h : Rules step alike out I W P C) (hs : I s) (hW : ∀ a ∈ ops, W a)
    (hC : Along step C s ops) {ops' : List Op} (halike : List.Forall₂ alike ops ops') :
    run step s ops = run step s ops' := by
  induction halike generalizing s with
  | nil => rfl
  | @cons a b ops ops' hab _ ih =>
    obtain ⟨ha, hW⟩ := List.forall_mem_cons.mp hW
    obtain ⟨hCa, hC⟩ := along_cons.mp hC
    have heq := h.same hs ha hCa hab
    rw [run, run, ← heq]
    cases hu : step s a with
    | error e => rfl
    | ok u => exact ih (h.keeps hs hu) hW (hC u hu)

/-- If the output is the same, no secret is used. -/
lemma along_of_sameOutput (h : Rules step alike out I W P C) (hs : I s) (hW : ∀ a ∈ ops, W a)
    (hP : Always step alike P s ops) (hsame : SameOutput step alike out s ops) :
    Along step C s ops := by
  induction ops generalizing s with
  | nil => simp
  | cons a ops ih =>
    have hrefl : List.Forall₂ alike (a :: ops) (a :: ops) :=
      List.forall₂_same.mpr fun x _ => h.refl x
    obtain ⟨ha, hW'⟩ := List.forall_mem_cons.mp hW
    obtain ⟨haa, hrefl'⟩ := List.forall₂_cons.mp hrefl
    obtain ⟨hPa, hPops⟩ := along_cons.mp (hP _ hrefl)
    rw [along_cons]
    constructor
    · by_contra hused
      obtain ⟨u, hu⟩ := h.step_ok hs ha hPa
      obtain ⟨b, hab, hdiffer⟩ := h.reveals hs ha hPa hused hu
      have halike : List.Forall₂ alike (a :: ops) (b :: ops) := .cons hab hrefl'
      have hWb := List.forall_mem_cons.mpr ⟨h.wellFormed hab ha, hW'⟩
      obtain ⟨t, ht⟩ := h.run_ok hs hW (hP _ hrefl)
      obtain ⟨t', ht'⟩ := h.run_ok hs hWb (hP _ halike)
      have hout := hsame _ _ _ _ hrefl halike ht ht'
      obtain ⟨v, hv, hvt⟩ := run_cons_ok.mp ht
      obtain ⟨v', hv', hvt'⟩ := run_cons_ok.mp ht'
      obtain rfl : u = v := Except.ok.inj (hu.symm.trans hv)
      have hgrown := h.run_grows (h.keeps hs hv) hvt
      have hgrown' := h.run_grows (h.keeps hs hv') hvt'
      rw [← hout] at hgrown'
      exact hdiffer v' hv' _ hgrown hgrown'
    · intro u hu
      apply ih (h.keeps hs hu) hW'
      · intro ops' halike
        exact (along_cons.mp (hP _ (.cons haa halike))).2 u hu
      · intro xs ys t t' hxs hys ht ht'
        exact hsame _ _ _ _ (.cons haa hxs) (.cons haa hys) (run_cons_ok.mpr ⟨u, hu, ht⟩)
          (run_cons_ok.mpr ⟨u, hu, ht'⟩)

/-- The output of all runs is the same exactly if no secret is used in any. -/
theorem always_iff (h : Rules step alike out I W P C) (hs : I s) (hW : ∀ a ∈ ops, W a) :
    Always step alike P s ops ∧ SameOutput step alike out s ops ↔
      Always step alike C s ops := by
  constructor
  · rintro ⟨hP, hsame⟩ ops' halike
    have htrans {xs : List Op} (hxs : List.Forall₂ alike ops' xs) : List.Forall₂ alike ops xs :=
      h.forall₂_trans halike hxs
    apply h.along_of_sameOutput hs (h.forall_wellFormed halike hW)
    · intro xs hxs
      exact hP _ (htrans hxs)
    · intro xs ys t t' hxs hys
      exact hsame _ _ _ _ (htrans hxs) (htrans hys)
  · intro hC
    have hrefl : List.Forall₂ alike ops ops := List.forall₂_same.mpr fun x _ => h.refl x
    constructor
    · intro ops' halike
      exact h.always_isDefined hs (h.forall_wellFormed halike hW) (hC _ halike)
    · intro xs ys t t' hxs hys ht ht'
      rw [← h.run_eq hs hW (hC _ hrefl) hxs] at ht
      rw [← h.run_eq hs hW (hC _ hrefl) hys, ht] at ht'
      exact congrArg out (Except.ok.inj ht')

end Rules

end Secrets
