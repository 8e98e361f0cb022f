import Mathlib.Tactic.Common

/-!
# Methods that change a state and may throw

A method is a computation in `EStateM`: it returns or throws, and either way it leaves a state.
What was done before a `throw` stays done.

`Ends m s Q E` says how `m` ends when it is started in `s`: `Q` holds if it returns, `E` if it
throws. There is one rule for each way to build a method, so that rewriting with the rules
executes it; `Preserves` is the special case of an invariant, whichever way the method ends.
-/

namespace Throws

universe u

variable {E S A B : Type u}

/-- Started in `s`, the method returns a value satisfying `Q` or throws an error satisfying `X`. -/
def Ends (m : EStateM E S A) (s : S) (Q : A → S → Prop) (X : E → S → Prop) : Prop :=
  match m.run s with
  | .ok a t => Q a t
  | .error e t => X e t

/-- The state a method leaves. -/
def after (m : EStateM E S A) (s : S) : S :=
  match m.run s with
  | .ok _ t => t
  | .error _ t => t

variable {m : EStateM E S A} {f : A → EStateM E S B} {s : S}
  {Q Q' : A → S → Prop} {X X' : E → S → Prop}

lemma Ends.imp (h : Ends m s Q X) (hQ : ∀ a t, Q a t → Q' a t) (hX : ∀ e t, X e t → X' e t) :
    Ends m s Q' X' := by
  unfold Ends at *
  cases hm : m.run s with
  | ok a t =>
    rw [hm] at h
    exact hQ a t h
  | error e t =>
    rw [hm] at h
    exact hX e t h

lemma Ends.of_ok (h : Ends m s Q X) {a : A} {t : S} (hm : m.run s = .ok a t) : Q a t := by
  simpa [Ends, hm] using h

lemma Ends.of_error (h : Ends m s Q X) {e : E} {t : S} (hm : m.run s = .error e t) : X e t := by
  simpa [Ends, hm] using h

lemma Ends.after {I : S → Prop} (h : Ends m s (fun _ => I) (fun _ => I)) :
    I (after m s) := by
  unfold Throws.after
  cases hm : m.run s with
  | ok a t => exact h.of_ok hm
  | error e t => exact h.of_error hm

/-! ### One rule for each way to build a method -/

@[simp] lemma ends_pure {a : A} : Ends (pure a : EStateM E S A) s Q X ↔ Q a s := Iff.rfl

@[simp] lemma ends_throw {e : E} : Ends (throw e : EStateM E S A) s Q X ↔ X e s := Iff.rfl

@[simp] lemma ends_get {Q : S → S → Prop} : Ends (get : EStateM E S S) s Q X ↔ Q s s := Iff.rfl

@[simp] lemma ends_modify {Q : PUnit → S → Prop} {g : S → S} :
    Ends (modify g : EStateM E S PUnit) s Q X ↔ Q ⟨⟩ (g s) := Iff.rfl

@[simp] lemma ends_bind {Q : B → S → Prop} :
    Ends (m >>= f) s Q X ↔ Ends m s (fun a t => Ends (f a) t Q X) X := by
  unfold Ends
  rw [EStateM.run_bind]
  cases m.run s <;> rfl

lemma ends_get_bind {f : S → EStateM E S A} :
    Ends ((get : EStateM E S S) >>= f) s Q X ↔ Ends (f s) s Q X := by
  rw [ends_bind, ends_get]

@[simp] lemma ends_map {Q : B → S → Prop} {g : A → B} :
    Ends (g <$> m) s Q X ↔ Ends m s (fun a t => Q (g a) t) X := by
  simp only [Ends, EStateM.run, Functor.map, EStateM.map]
  cases m s <;> rfl

lemma ends_ite {c : Prop} [Decidable c] {n : EStateM E S A} :
    Ends (if c then m else n) s Q X ↔ (c → Ends m s Q X) ∧ (¬ c → Ends n s Q X) := by
  by_cases h : c <;> simp [h]

/-- The handler starts in the state in which the body threw. -/
@[simp] lemma ends_tryCatch {handler : E → EStateM E S A} :
    Ends (tryCatch m handler) s Q X ↔ Ends m s Q (fun e t => Ends (handler e) t Q X) := by
  simp only [Ends, EStateM.run, tryCatch, tryCatchThe, MonadExceptOf.tryCatch, EStateM.tryCatch]
  cases m s <;> rfl

/-! ### Invariants -/

/-- However the method ends, it leaves `I` as it was. -/
def Preserves (I : S → Prop) (m : EStateM E S A) : Prop :=
  ∀ s, I s → Ends m s (fun _ => I) (fun _ => I)

namespace Preserves

variable {I : S → Prop}

lemma after (h : Preserves I m) (hs : I s) : I (Throws.after m s) := (h s hs).after

lemma pure {a : A} : Preserves I (Pure.pure a : EStateM E S A) := fun _ hs => hs

lemma throw {e : E} : Preserves I (MonadExcept.throw e : EStateM E S A) := fun _ hs => hs

lemma modify {g : S → S} (h : ∀ s, I s → I (g s)) :
    Preserves I (MonadState.modifyGet fun s => (PUnit.unit, g s) : EStateM E S PUnit) :=
  fun s hs => h s hs

lemma bind (hm : Preserves I m) (hf : ∀ a, Preserves I (f a)) : Preserves I (m >>= f) := by
  intro s hs
  rw [ends_bind]
  exact (hm s hs).imp (fun a t ht => hf a t ht) fun _ _ ht => ht

lemma modify_bind {g : S → S} {f : PUnit → EStateM E S B} (hg : ∀ s, I s → I (g s))
    (hf : Preserves I (f ⟨⟩)) :
    Preserves I (MonadState.modifyGet (fun s => (PUnit.unit, g s)) >>= f) :=
  bind (modify hg) fun _ => hf

/-- What is read is the state the rest starts in. -/
lemma get_bind {f : S → EStateM E S B} (hf : ∀ s, I s → Preserves I (f s)) :
    Preserves I (MonadState.get >>= f) := by
  intro s hs
  rw [ends_bind]
  exact hf s hs s hs

lemma map {g : A → B} (hm : Preserves I m) : Preserves I (g <$> m) := by
  intro s hs
  rw [ends_map]
  exact hm s hs

lemma ite {c : Prop} [Decidable c] {n : EStateM E S A} (hm : c → Preserves I m)
    (hn : ¬ c → Preserves I n) : Preserves I (if c then m else n) := by
  intro s hs
  rw [ends_ite]
  exact ⟨fun h => hm h s hs, fun h => hn h s hs⟩

lemma tryCatch {handler : E → EStateM E S A} (hm : Preserves I m)
    (hh : ∀ e, Preserves I (handler e)) : Preserves I (tryCatch m handler) := by
  intro s hs
  rw [ends_tryCatch]
  exact (hm s hs).imp (fun _ _ ht => ht) fun e t ht => hh e t ht

lemma forM {C : Type u} {xs : List C} {f : C → EStateM E S PUnit}
    (h : ∀ x ∈ xs, Preserves I (f x)) : Preserves I (xs.forM f) := by
  induction xs with
  | nil => exact pure
  | cons x xs ih =>
    change Preserves I (f x >>= fun _ => xs.forM f)
    apply bind
    · exact h x (by simp)
    · intro _
      apply ih
      intro y hy
      exact h y (by simp [hy])

end Preserves

end Throws
