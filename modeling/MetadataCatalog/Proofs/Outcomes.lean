import MetadataCatalog.Fault

/-!
# Outcomes apart from wording

A fault is worded for people, and the wording repeats what they have given. What is left of a fault
without its wording is its kind and the row that it names (`Fault.outline`). Two pieces of work are
alike when from every state they lead to the same state with outcomes that differ in wording at
most (`Work.Alike`), and work `FailsOnly` with some faults when no other fault ever comes out. Both
are kept when pieces of work are put together.
-/

namespace MetadataCatalog

/-! ## §1 Outlines -/

/-- The row of a sheet that a fault names. -/
def Fault.row? : Fault → Option Nat
  | .malformedRow row _ => some row
  | _ => none

/-- A fault without its wording. -/
def Fault.outline (f : Fault) : Fault.Kind × Option Nat :=
  (f.kind, f.row?)

/-- An outcome in which a fault has lost its wording. -/
def outline {α : Type} (outcome : Except Fault α) : Except (Fault.Kind × Option Nat) α :=
  outcome.mapError Fault.outline

section Outline

variable {α : Type}

@[simp]
theorem outline_ok (a : α) : outline (.ok a) = .ok a := rfl

@[simp]
theorem outline_error (f : Fault) : outline (.error f : Except Fault α) = .error f.outline := rfl

theorem outline_eq_ok_iff {outcome : Except Fault α} {a : α} :
    outline outcome = .ok a ↔ outcome = .ok a := by
  cases outcome <;> simp

/-- What comes after two outcomes that differ in wording differs in wording at most. -/
theorem outline_bind_congr {β : Type} {outcome outcome' : Except Fault α}
    (h : outline outcome = outline outcome') (next : α → Except Fault β) :
    outline (outcome >>= next) = outline (outcome' >>= next) := by
  cases outcome with
  | error fault =>
    cases outcome' with
    | error fault' => exact congrArg Except.error (Except.error.inj h)
    | ok a => cases h
  | ok a =>
    obtain rfl := outline_eq_ok_iff.mp h.symm
    rfl

end Outline

/-! ## §2 Alike work -/

namespace Work

variable {σ α β : Type}

/-- From every state both lead to the same state, with the same outcome up to wording. -/
def Alike (m m' : Work σ α) : Prop :=
  ∀ s, outline (m.run s).1 = outline (m'.run s).1 ∧ (m.run s).2 = (m'.run s).2

namespace Alike

theorem refl (m : Work σ α) : Alike m m :=
  fun _ => ⟨rfl, rfl⟩

theorem ofExcept {outcome outcome' : Except Fault α} (h : outline outcome = outline outcome') :
    Alike (ofExcept outcome : Work σ α) (ofExcept outcome') :=
  fun _ => ⟨h, rfl⟩

/-- The second pieces need only be alike for the values that the first piece can give. -/
theorem bind_of_run {m m' : Work σ α} {f f' : α → Work σ β} (hm : Alike m m')
    (hf : ∀ s a s', m.run s = (.ok a, s') → Alike (f a) (f' a)) :
    Alike (m >>= f) (m' >>= f') := by
  intro s
  obtain ⟨houtcome, hstate⟩ := hm s
  rcases hrun : m.run s with ⟨outcome, s₁⟩
  rcases hrun' : m'.run s with ⟨outcome', s₁'⟩
  rw [hrun, hrun'] at houtcome hstate
  dsimp only at houtcome hstate
  subst hstate
  -- either both have failed, or both go on with the same value in the same state
  cases outcome with
  | error fault =>
    cases outcome' with
    | error fault' =>
      rw [run_bind_error hrun, run_bind_error hrun']
      exact ⟨by simpa using houtcome, rfl⟩
    | ok a => cases houtcome
  | ok a =>
    obtain rfl := outline_eq_ok_iff.mp houtcome.symm
    rw [run_bind_ok hrun, run_bind_ok hrun']
    exact hf s a s₁ hrun s₁

theorem bind {m m' : Work σ α} {f f' : α → Work σ β} (hm : Alike m m')
    (hf : ∀ a, Alike (f a) (f' a)) : Alike (m >>= f) (m' >>= f') :=
  hm.bind_of_run fun _ a _ _ => hf a

end Alike

/-! ## §3 Faults that can come out -/

/-- When the work fails, then with a fault of the given sort. -/
def FailsOnly (allowed : Fault → Prop) (m : Work σ α) : Prop :=
  ∀ s fault s', m.run s = (.error fault, s') → allowed fault

namespace FailsOnly

variable {allowed : Fault → Prop}

theorem ofExcept {outcome : Except Fault α} (h : ∀ fault, outcome = .error fault → allowed fault) :
    FailsOnly allowed (ofExcept outcome : Work σ α) := by
  intro s fault s' hrun
  rw [run_ofExcept] at hrun
  exact h fault (Prod.mk.inj hrun).1

theorem pure (a : α) : FailsOnly allowed (pure a : Work σ α) :=
  ofExcept fun _ h => nomatch h

theorem bind {m : Work σ α} {f : α → Work σ β} (hm : FailsOnly allowed m)
    (hf : ∀ a, FailsOnly allowed (f a)) : FailsOnly allowed (m >>= f) := by
  intro s fault s' h
  rcases hrun : m.run s with ⟨outcome, s₁⟩
  -- the fault is that of the first piece, or that of the second where the first has led
  cases outcome with
  | error first =>
    rw [run_bind_error hrun] at h
    cases h
    exact hm s fault s' hrun
  | ok a =>
    rw [run_bind_ok hrun] at h
    exact hf a s₁ fault s' h

theorem get : FailsOnly allowed (get : Work σ σ) := by
  intro s fault s' h
  cases h

theorem set (s : σ) : FailsOnly allowed (set s : Work σ PUnit) := by
  intro s₁ fault s' h
  cases h

theorem modify (f : σ → σ) : FailsOnly allowed (modify f : Work σ PUnit) := by
  intro s fault s' h
  cases h

theorem throw {fault : Fault} (h : allowed fault) : FailsOnly allowed (throw fault : Work σ α) := by
  intro s fault' s' hrun
  cases hrun
  exact h

end FailsOnly

end Work

end MetadataCatalog
