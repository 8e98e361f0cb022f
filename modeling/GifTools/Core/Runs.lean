import Mathlib.Tactic.Common

/-!
# Runs of a fallible step function

A system is a partial step function `step : S → Op → Except E S`: an operation either leads to a
new state or ends in a fault. A run performs a list of operations and stops at the first fault.

`Throughout` speaks of every state a run reaches, `Along` of every operation it performs, at the
state in which it performs it. Both are defined over the prefixes of the run and computed one
operation at a time; `Throughout.of_invariant` is the induction rule.
-/

namespace Runs

variable {S Op E : Type*} (step : S → Op → Except E S)

/-- Perform the operations in order, stopping at the first fault. -/
def run : S → List Op → Except E S
  | s, [] => .ok s
  | s, op :: ops =>
    match step s op with
    | .ok s' => run s' ops
    | .error e => .error e

/-- `Q` holds in every state reached. -/
def Throughout (Q : S → Prop) (s : S) (ops : List Op) : Prop :=
  ∀ pre t, pre <+: ops → run step s pre = .ok t → Q t

/-- `P` holds of every operation performed, at the state it is performed in. -/
def Along (P : S → Op → Prop) (s : S) (ops : List Op) : Prop :=
  ∀ pre op t, pre ++ [op] <+: ops → run step s pre = .ok t → P t op

variable {step}

@[simp] lemma run_nil (s : S) : run step s [] = .ok s := rfl

lemma run_cons_ok {s t : S} {op : Op} {ops : List Op} :
    run step s (op :: ops) = .ok t ↔ ∃ u, step s op = .ok u ∧ run step u ops = .ok t := by
  rw [run]
  cases step s op <;> simp

lemma run_append_ok {s t : S} {xs ys : List Op} :
    run step s (xs ++ ys) = .ok t ↔ ∃ u, run step s xs = .ok u ∧ run step u ys = .ok t := by
  induction xs generalizing s with
  | nil => simp
  | cons op xs ih =>
    simp only [List.cons_append, run_cons_ok, ih]
    constructor
    · rintro ⟨u, hu, v, hv, hw⟩
      exact ⟨v, ⟨u, hu, hv⟩, hw⟩
    · rintro ⟨v, ⟨u, hu, hv⟩, hw⟩
      exact ⟨u, hu, v, hv, hw⟩

lemma run_singleton_ok {s t : S} {op : Op} :
    run step s [op] = .ok t ↔ step s op = .ok t := by
  simp [run_cons_ok]

lemma bind_ok.{u} {A B : Type u} {x : Except E A} {f : A → Except E B} {b : B} :
    (x >>= f) = .ok b ↔ ∃ a, x = .ok a ∧ f a = .ok b := by
  cases x with
  | error e => simp [bind, Except.bind]
  | ok a => simp [bind, Except.bind]

lemma bind_error.{u} {A B : Type u} {x : Except E A} {f : A → Except E B} {e : E} :
    (x >>= f) = .error e ↔ x = .error e ∨ ∃ a, x = .ok a ∧ f a = .error e := by
  cases x with
  | error e' => simp [bind, Except.bind]
  | ok a => simp [bind, Except.bind]

lemma exists_of_mem_mapM_ok.{u, v} {A : Type v} {B : Type u} {f : A → Except E B} {xs : List A}
    {ys : List B} {y : B} (h : xs.mapM f = .ok ys) (hy : y ∈ ys) : ∃ x ∈ xs, f x = .ok y := by
  induction xs generalizing ys with
  | nil =>
    cases h
    cases hy
  | cons x xs ih =>
    rw [List.mapM_cons] at h
    obtain ⟨first, hfirst, h⟩ := bind_ok.mp h
    obtain ⟨rest, hrest, h⟩ := bind_ok.mp h
    cases h
    rcases List.mem_cons.mp hy with rfl | hy
    · exact ⟨x, List.mem_cons_self, hfirst⟩
    · obtain ⟨x', hx', hf⟩ := ih hrest hy
      exact ⟨x', List.mem_cons_of_mem x hx', hf⟩

/-! ### Invariants and relations along a run -/

/-- A relation that is reflexive, transitive and contains every step relates the ends of a run. -/
lemma run_induction {R : S → S → Prop} (hrefl : ∀ s, R s s)
    (htrans : ∀ s t u, R s t → R t u → R s u)
    (hstep : ∀ s op t, step s op = .ok t → R s t) {s t : S} {ops : List Op}
    (h : run step s ops = .ok t) : R s t := by
  induction ops generalizing s with
  | nil =>
    cases h
    exact hrefl _
  | cons op ops ih =>
    obtain ⟨u, hu, ht⟩ := run_cons_ok.mp h
    exact htrans s u t (hstep s op u hu) (ih ht)

lemma run_eq_foldlM (s : S) (ops : List Op) : run step s ops = ops.foldlM step s := by
  induction ops generalizing s with
  | nil => rfl
  | cons op ops ih =>
    rw [run, List.foldlM_cons]
    cases step s op with
    | error e => rfl
    | ok u => exact ih u

/-- An invariant of the step function holds at the end of every run. -/
lemma run_invariant {I : S → Prop} (hstep : ∀ s op t, I s → step s op = .ok t → I t)
    {s t : S} {ops : List Op} (hs : I s) (h : run step s ops = .ok t) : I t :=
  run_induction (R := fun s t => I s → I t) (fun _ => id) (fun _ _ _ hst htu => htu ∘ hst)
    (fun s op t hst hs => hstep s op t hs hst) h hs

@[simp] lemma throughout_nil {Q : S → Prop} {s : S} : Throughout step Q s [] ↔ Q s := by
  constructor
  · intro h
    exact h [] s (List.prefix_rfl) rfl
  · intro hs pre t hpre ht
    rw [List.prefix_nil.mp hpre] at ht
    cases ht
    exact hs

lemma throughout_cons {Q : S → Prop} {s : S} {op : Op} {ops : List Op} :
    Throughout step Q s (op :: ops) ↔
      Q s ∧ ∀ u, step s op = .ok u → Throughout step Q u ops := by
  constructor
  · intro h
    refine ⟨h [] s (List.nil_prefix) rfl, fun u hu pre t hpre ht => ?_⟩
    exact h (op :: pre) t (List.cons_prefix_cons.mpr ⟨rfl, hpre⟩) (run_cons_ok.mpr ⟨u, hu, ht⟩)
  · rintro ⟨hs, h⟩ pre t hpre ht
    cases pre with
    | nil =>
      cases ht
      exact hs
    | cons op' pre =>
      obtain ⟨rfl, hpre'⟩ := List.cons_prefix_cons.mp hpre
      obtain ⟨u, hu, ht⟩ := run_cons_ok.mp ht
      exact h u hu pre t hpre' ht

@[simp] lemma along_nil {P : S → Op → Prop} {s : S} : Along step P s [] := by
  intro pre op t hpre
  simp at hpre

lemma along_cons {P : S → Op → Prop} {s : S} {op : Op} {ops : List Op} :
    Along step P s (op :: ops) ↔ P s op ∧ ∀ u, step s op = .ok u → Along step P u ops := by
  constructor
  · intro h
    refine ⟨h [] op s (by simp) rfl, fun u hu pre op' t hpre ht => ?_⟩
    exact h (op :: pre) op' t (List.cons_prefix_cons.mpr ⟨rfl, hpre⟩)
      (run_cons_ok.mpr ⟨u, hu, ht⟩)
  · rintro ⟨hs, h⟩ pre op' t hpre ht
    cases pre with
    | nil =>
      obtain ⟨rfl, -⟩ := List.cons_prefix_cons.mp hpre
      cases ht
      exact hs
    | cons op'' pre =>
      obtain ⟨rfl, hpre'⟩ := List.cons_prefix_cons.mp hpre
      obtain ⟨u, hu, ht⟩ := run_cons_ok.mp ht
      exact h u hu pre op' t hpre' ht

/-- Where an invariant holds, one thing may be asked for another. -/
lemma along_congr {I : S → Prop} {P C : S → Op → Prop}
    (hstep : ∀ s op t, I s → step s op = .ok t → I t) (hiff : ∀ s op, I s → (P s op ↔ C s op))
    {s : S} {ops : List Op} (hs : I s) : Along step P s ops ↔ Along step C s ops := by
  induction ops generalizing s with
  | nil => simp
  | cons op ops ih =>
    rw [along_cons, along_cons, hiff s op hs]
    constructor
    · rintro ⟨hop, h⟩
      exact ⟨hop, fun u hu => (ih (hstep s op u hs hu)).mp (h u hu)⟩
    · rintro ⟨hop, h⟩
      exact ⟨hop, fun u hu => (ih (hstep s op u hs hu)).mpr (h u hu)⟩

lemma throughout_cons_of_ok {Q : S → Prop} {s t : S} {op : Op} {ops : List Op}
    (h : step s op = .ok t) : Throughout step Q s (op :: ops) ↔ Q s ∧ Throughout step Q t ops := by
  simp [throughout_cons, h]

/-- The state at the end of a run is one of the states it reaches. -/
lemma Throughout.last {Q : S → Prop} {s t : S} {ops : List Op}
    (h : Throughout step Q s ops) (ht : run step s ops = .ok t) : Q t :=
  h ops t List.prefix_rfl ht

/-- The induction rule: an invariant `I` that every operation satisfying `P` keeps, and that
implies `Q`, gives `Q` throughout every run whose operations all satisfy `P`. -/
lemma Throughout.of_invariant {I Q : S → Prop} {P : S → Op → Prop}
    (hstep : ∀ s op t, I s → P s op → step s op = .ok t → I t) (hQ : ∀ s, I s → Q s)
    {s : S} {ops : List Op} (hs : I s) (hP : Along step P s ops) : Throughout step Q s ops := by
  induction ops generalizing s with
  | nil => exact throughout_nil.mpr (hQ s hs)
  | cons op ops ih =>
    obtain ⟨hop, hrest⟩ := along_cons.mp hP
    exact throughout_cons.mpr
      ⟨hQ s hs, fun u hu => ih (hstep s op u hs hop hu) (hrest u hu)⟩

/-- The rule for an exact condition on runs: `P` keeps the invariant and implies what is asked of
each operation (`C`), and an operation that fails `P` is not as asked or leads to a state that is
not as asked (`Q`). -/
lemma throughout_and_along_iff {I Q : S → Prop} {P C : S → Op → Prop}
    (hstep : ∀ s op t, I s → P s op → step s op = .ok t → I t) (hQ : ∀ s, I s → Q s)
    (hC : ∀ s op, I s → P s op → C s op)
    (hbad : ∀ s op, I s → ¬ P s op → ¬ C s op ∨ ∃ t, step s op = .ok t ∧ ¬ Q t)
    {s : S} {ops : List Op} (hs : I s) :
    Throughout step Q s ops ∧ Along step C s ops ↔ Along step P s ops := by
  induction ops generalizing s with
  | nil => simp [hQ s hs]
  | cons op ops ih =>
    rw [throughout_cons, along_cons, along_cons]
    constructor
    · rintro ⟨⟨-, hthroughout⟩, hop, halong⟩
      have hP : P s op := by
        by_contra hnot
        rcases hbad s op hs hnot with hC' | ⟨t, ht, hQ'⟩
        · exact hC' hop
        · exact hQ' (hthroughout t ht [] t List.nil_prefix rfl)
      exact ⟨hP, fun u hu => (ih (hstep s op u hs hP hu)).mp ⟨hthroughout u hu, halong u hu⟩⟩
    · rintro ⟨hP, halong⟩
      have hrest := fun u hu => (ih (hstep s op u hs hP hu)).mpr (halong u hu)
      exact ⟨⟨hQ s hs, fun u hu => (hrest u hu).1⟩, hC s op hs hP, fun u hu => (hrest u hu).2⟩

/-- The same rule where nothing is asked of the operations. -/
lemma throughout_iff_along {I Q : S → Prop} {P : S → Op → Prop}
    (hstep : ∀ s op t, I s → P s op → step s op = .ok t → I t) (hQ : ∀ s, I s → Q s)
    (hbad : ∀ s op, I s → ¬ P s op → ∃ t, step s op = .ok t ∧ ¬ Q t)
    {s : S} {ops : List Op} (hs : I s) : Throughout step Q s ops ↔ Along step P s ops := by
  have h : _ ↔ Along step P s ops := throughout_and_along_iff (C := fun _ _ => True) hstep hQ
    (fun _ _ _ _ => trivial) (fun s op hs hnot => .inr (hbad s op hs hnot)) hs
  have htrue : Along step (fun _ _ => True) s ops := fun _ _ _ _ _ => trivial
  exact ⟨fun hthroughout => h.mp ⟨hthroughout, htrue⟩, fun halong => (h.mpr halong).1⟩

/-! ### Runs that come to an end -/

/-- Some of the operations, from the first on, lead to a final state, and these and the state
satisfy `Q`. -/
def Stops (step : S → Op → Except E S) (final : S → Prop) (Q : List Op → S → Prop) (s : S)
    (ops : List Op) : Prop :=
  ∃ pre t, pre <+: ops ∧ run step s pre = .ok t ∧ final t ∧ Q pre t

section

variable {final : S → Prop} {Q R : List Op → S → Prop} {s t : S} {op : Op} {ops : List Op}

lemma stops_of_final (hs : final s) (hQ : Q [] s) : Stops step final Q s ops :=
  ⟨[], s, List.nil_prefix, rfl, hs, hQ⟩

lemma Stops.cons (h : step s op = .ok t) (ht : Stops step final (fun pre => Q (op :: pre)) t ops) :
    Stops step final Q s (op :: ops) := by
  obtain ⟨pre, u, hpre, hu, hfinal, hQ⟩ := ht
  exact ⟨op :: pre, u, List.cons_prefix_cons.mpr ⟨rfl, hpre⟩, run_cons_ok.mpr ⟨t, h, hu⟩,
    hfinal, hQ⟩

/-- If a final state takes no more operations, there is only one in which the run stops. -/
lemma Stops.and (hfinal : ∀ s op t, final s → step s op ≠ .ok t) (h : Stops step final Q s ops)
    (h' : Stops step final R s ops) :
    Stops step final (fun pre t => Q pre t ∧ R pre t) s ops := by
  have hsame : ∀ {pre pre' : List Op} {t t' : S}, pre <+: pre' → final t →
      run step s pre = .ok t → run step s pre' = .ok t' → pre = pre' ∧ t = t' := by
    rintro pre pre' t t' ⟨rest, rfl⟩ hfinalt ht ht'
    obtain ⟨u, hu, hrest⟩ := run_append_ok.mp ht'
    obtain rfl : t = u := Except.ok.inj (ht.symm.trans hu)
    cases rest with
    | nil =>
      cases hrest
      exact ⟨(List.append_nil pre).symm, rfl⟩
    | cons op rest =>
      obtain ⟨v, hv, -⟩ := run_cons_ok.mp hrest
      exact absurd hv (hfinal t op v hfinalt)
  obtain ⟨pre, t, hpre, ht, hfinalt, hQ⟩ := h
  obtain ⟨pre', t', hpre', ht', hfinalt', hR⟩ := h'
  obtain ⟨rfl, rfl⟩ : pre = pre' ∧ t = t' := by
    rcases List.prefix_or_prefix_of_prefix hpre hpre' with hle | hle
    · exact hsame hle hfinalt ht ht'
    · obtain ⟨hpre, ht⟩ := hsame hle hfinalt' ht' ht
      exact ⟨hpre.symm, ht.symm⟩
  exact ⟨pre, t, hpre, ht, hfinalt, hQ, hR⟩

end

end Runs
