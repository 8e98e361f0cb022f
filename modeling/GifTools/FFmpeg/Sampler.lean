import GifTools.FFmpeg.Decode
import Mathlib.Tactic.Linarith

/-!
# Sampling times

What `ffmpegVideoStreamPrepareFrames` does with a picture depends on nothing but times: its own, the
time of the sample that comes next, and that of the previous staging frame. A `Sampler` keeps the
last two, so the timestamps of a stream and the distance of the samples say which branch is taken
for each picture.
-/

namespace GifTools

/-! ### Branches -/

namespace Branch

variable {branch : Branch} {frameDurationSeconds sampleTime prevTime time : ℚ}

lemma emits_eq_none : branch.emits = none ↔ branch = .nextFrame := by
  cases branch <;> simp [emits]

/-- When a branch is taken. -/
lemma of_cases (frameDurationSeconds sampleTime prevTime time : ℚ) :
    (of frameDurationSeconds sampleTime prevTime time = .currentGood ∧
        |time - sampleTime| < frameDurationSeconds) ∨
      frameDurationSeconds ≤ |time - sampleTime| ∧
        ((of frameDurationSeconds sampleTime prevTime time = .previousOnly ∧ time < 0) ∨
          (of frameDurationSeconds sampleTime prevTime time = .previousCloser ∧ 0 ≤ time ∧
            sampleTime < time ∧ |prevTime - sampleTime| < |time - sampleTime|) ∨
          (of frameDurationSeconds sampleTime prevTime time = .currentCloser ∧ 0 ≤ time ∧
            sampleTime < time ∧ |time - sampleTime| ≤ |prevTime - sampleTime|) ∨
          (of frameDurationSeconds sampleTime prevTime time = .nextFrame ∧ 0 ≤ time ∧
            time ≤ sampleTime)) := by
  simp only [of]
  split
  · rename_i hdiff
    exact .inl ⟨rfl, hdiff⟩
  rename_i hdiff
  refine .inr ⟨not_lt.mp hdiff, ?_⟩
  split
  · rename_i h0
    exact .inl ⟨rfl, h0⟩
  rename_i h0
  split
  · rename_i hafter
    split
    · rename_i hprev
      exact .inr (.inl ⟨rfl, not_lt.mp h0, hafter, hprev⟩)
    · rename_i hprev
      exact .inr (.inr (.inl ⟨rfl, not_lt.mp h0, hafter, not_lt.mp hprev⟩))
  · rename_i hafter
    exact .inr (.inr (.inr ⟨rfl, not_lt.mp h0, not_lt.mp hafter⟩))

/-- A picture is passed over only if its time is not negative. -/
lemma nonneg_of_nextFrame (h : of frameDurationSeconds sampleTime prevTime time = .nextFrame) :
    0 ≤ time := by
  obtain ⟨hbranch, -⟩ | ⟨-, ⟨hbranch, -⟩ | ⟨-, h0, -⟩ | ⟨-, h0, -⟩ | ⟨-, h0, -⟩⟩ :=
    of_cases frameDurationSeconds sampleTime prevTime time
  · cases h.symm.trans hbranch
  · cases h.symm.trans hbranch
  · exact h0
  · exact h0
  · exact h0

lemma neg_of_previousOnly (h : of frameDurationSeconds sampleTime prevTime time = .previousOnly) :
    time < 0 := by
  obtain ⟨hbranch, -⟩ | ⟨-, ⟨-, hneg⟩ | ⟨hbranch, -⟩ | ⟨hbranch, -⟩ | ⟨hbranch, -⟩⟩ :=
    of_cases frameDurationSeconds sampleTime prevTime time
  · cases h.symm.trans hbranch
  · exact hneg
  · cases h.symm.trans hbranch
  · cases h.symm.trans hbranch
  · cases h.symm.trans hbranch

lemma of_neg (hneg : time < 0) : of frameDurationSeconds sampleTime prevTime time = .currentGood ∨
    of frameDurationSeconds sampleTime prevTime time = .previousOnly := by
  obtain ⟨hgood, -⟩ | ⟨-, ⟨honly, -⟩ | ⟨-, h0, -⟩ | ⟨-, h0, -⟩ | ⟨-, h0, -⟩⟩ :=
    of_cases frameDurationSeconds sampleTime prevTime time
  · exact .inl hgood
  · exact .inr honly
  all_goals exact absurd hneg (not_lt.mpr h0)

/-- A negative time that is not less than a frame away is taken for the end of the stream. -/
lemma of_eq_previousOnly (hneg : time < 0) (hsample : 0 ≤ sampleTime)
    (hfar : frameDurationSeconds ≤ sampleTime - time) :
    of frameDurationSeconds sampleTime prevTime time = .previousOnly := by
  have hdiff : ¬ |time - sampleTime| < frameDurationSeconds := by
    rw [not_lt, abs_of_neg (by linarith)]
    linarith
  simp only [of, if_neg hdiff, if_pos hneg]

/-- The picture is kept in the previous staging frame, and was not made into a frame. -/
def Keeps (branch : Branch) : Prop := branch.emits ≠ some .current

instance (branch : Branch) : Decidable branch.Keeps := inferInstanceAs (Decidable (_ ≠ _))

end Branch

/-! ### Samplers -/

structure Sampler where
  sampleTime : ℚ
  prevTime : ℚ

namespace Sampler

/-- Before the first picture. -/
def start : Sampler := ⟨0, 0⟩

variable (frameDurationSeconds desiredFrameTimeSeconds : ℚ) (sampler : Sampler)

def branch (time : ℚ) : Branch :=
  .of frameDurationSeconds sampler.sampleTime sampler.prevTime time

/-- The sampler after a picture. -/
def next (time : ℚ) : Sampler :=
  match sampler.branch frameDurationSeconds time with
  | .currentGood => { sampler with sampleTime := sampler.sampleTime + desiredFrameTimeSeconds }
  | .nextFrame => { sampler with prevTime := time }
  | _ => ⟨sampler.sampleTime + desiredFrameTimeSeconds, time⟩

/-- The branches that are taken for these times. -/
def branches : Sampler → List ℚ → List Branch
  | _, [] => []
  | sampler, time :: times =>
    sampler.branch frameDurationSeconds time ::
      branches (sampler.next frameDurationSeconds desiredFrameTimeSeconds time) times

variable {frameDurationSeconds desiredFrameTimeSeconds} {sampler}

lemma branches_ne_nil (times : List ℚ) (time : ℚ) :
    sampler.branches frameDurationSeconds desiredFrameTimeSeconds (times ++ [time]) ≠ [] := by
  cases times with
  | nil => exact List.cons_ne_nil _ _
  | cons first times => exact List.cons_ne_nil _ _

/-- The branch for the last time comes last. -/
lemma getLast?_cons_branches (branch : Branch) (times : List ℚ) (time : ℚ) :
    (branch :: sampler.branches frameDurationSeconds desiredFrameTimeSeconds
        (times ++ [time])).getLast? =
      (sampler.branches frameDurationSeconds desiredFrameTimeSeconds
        (times ++ [time])).getLast? := by
  cases times with
  | nil => rfl
  | cons first times => exact List.getLast?_cons_cons

end Sampler

end GifTools
