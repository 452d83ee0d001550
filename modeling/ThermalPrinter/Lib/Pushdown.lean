import Mathlib.Logic.Relation

/-!
# Tasks with a call stack

A task runs with a stack of calls. The call on top makes a step: it changes the state and is
replaced by the calls that are left of it, the next one first. Between two steps an interrupt may
change the state (`Run`). A run in which some calls return is a run in which the first of them
returns, followed by a run of the others (`Run.split`), so what a call does is proved call by call.
-/

namespace Pushdown

open Relation

/-- The step of a call: in a state, the next state and the calls that are left of the call, or none
if the call is stuck. -/
structure Task (σ φ : Type*) where
  step : φ → σ → Option (σ × List φ)

namespace Task

variable {σ φ : Type*} (T : Task σ φ) (interrupt : σ → σ → Prop)

/-- So many steps and interrupts, from a state and a stack of calls to another. -/
inductive Run : Nat → σ → List φ → σ → List φ → Prop
  | refl {s : σ} {calls : List φ} : Run 0 s calls s calls
  | step {n : Nat} {s s₁ s' : σ} {call : φ} {new calls calls' : List φ} :
      T.step call s = some (s₁, new) → Run n s₁ (new ++ calls) s' calls' →
      Run (n + 1) s (call :: calls) s' calls'
  | interrupt {n : Nat} {s s₁ s' : σ} {calls calls' : List φ} :
      interrupt s s₁ → Run n s₁ calls s' calls' → Run (n + 1) s calls s' calls'

variable {T} {interrupt} {n m : Nat} {s s₁ s' : σ} {call : φ} {new calls calls' calls₁ : List φ}

/-- Runs compose. -/
theorem Run.trans (h₁ : T.Run interrupt n s calls s₁ calls₁)
    (h₂ : T.Run interrupt m s₁ calls₁ s' calls') : T.Run interrupt (n + m) s calls s' calls' := by
  induction h₁ with
  | refl => rwa [Nat.zero_add]
  | step hstep _ ih => rw [Nat.add_right_comm]; exact .step hstep (ih h₂)
  | interrupt hint _ ih => rw [Nat.add_right_comm]; exact .interrupt hint (ih h₂)

/-- A run goes on with a step. -/
theorem Run.tail (h : T.Run interrupt n s calls s₁ (call :: calls₁))
    (hstep : T.step call s₁ = some (s', new)) :
    T.Run interrupt (n + 1) s calls s' (new ++ calls₁) :=
  h.trans (.step hstep .refl)

/-- A run goes on with an interrupt. -/
theorem Run.tail_interrupt (h : T.Run interrupt n s calls s₁ calls₁) (hint : interrupt s₁ s') :
    T.Run interrupt (n + 1) s calls s' calls₁ :=
  h.trans (.interrupt hint .refl)

/-- **A run in which calls return splits where the first of them has returned.** -/
theorem Run.split (calls : List φ) (h : T.Run interrupt n s (calls ++ calls₁) s' []) :
    ∃ m k s₁, m + k = n ∧ T.Run interrupt m s calls s₁ [] ∧ T.Run interrupt k s₁ calls₁ s' [] := by
  generalize hall : calls ++ calls₁ = all at h
  generalize hend : ([] : List φ) = none at h
  induction h generalizing calls with
  | refl =>
    subst hend
    obtain ⟨rfl, rfl⟩ := List.append_eq_nil_iff.1 hall
    exact ⟨0, 0, _, rfl, .refl, .refl⟩
  | @step n s s₁ s' call new rest _ hstep hrest ih =>
    subst hend
    cases calls with
    | nil =>
      rw [List.nil_append] at hall
      exact ⟨0, n + 1, s, Nat.zero_add _, .refl, hall ▸ .step hstep hrest⟩
    | cons c calls =>
      obtain ⟨rfl, rfl⟩ := List.cons.inj hall
      obtain ⟨m, k, s₂, hmk, hfirst, hlast⟩ := ih _ (List.append_assoc ..) rfl
      exact ⟨m + 1, k, s₂, by omega, .step hstep hfirst, hlast⟩
  | interrupt hint _ ih =>
    obtain ⟨m, k, s₂, hmk, hfirst, hlast⟩ := ih _ hall hend
    exact ⟨m + 1, k, s₂, by omega, .interrupt hint hfirst, hlast⟩

/-- A run in which a call returns makes its step, after some interrupts. -/
theorem Run.top (h : T.Run interrupt n s (call :: calls) s' []) :
    ∃ m s₀ s₁ new, m < n ∧ ReflTransGen interrupt s s₀ ∧ T.step call s₀ = some (s₁, new) ∧
      T.Run interrupt m s₁ (new ++ calls) s' [] := by
  generalize hall : call :: calls = all at h
  generalize hend : ([] : List φ) = none at h
  induction h with
  | refl => subst hend; cases hall
  | step hstep hrest =>
    subst hend
    obtain ⟨rfl, rfl⟩ := List.cons.inj hall
    exact ⟨_, _, _, _, Nat.lt_succ_self _, .refl, hstep, hrest⟩
  | interrupt hint _ ih =>
    obtain ⟨m, s₀, s₁, new, hm, hints, hstep, hrest⟩ := ih hall hend
    exact ⟨m, s₀, s₁, new, by omega, .head hint hints, hstep, hrest⟩

/-- After the last call has returned there are only interrupts. -/
theorem Run.returned (h : T.Run interrupt n s [] s' calls') :
    calls' = [] ∧ ReflTransGen interrupt s s' := by
  generalize hall : ([] : List φ) = all at h
  induction h with
  | refl =>
    subst hall
    exact ⟨rfl, .refl⟩
  | step => cases hall
  | interrupt hint _ ih =>
    obtain ⟨hend, hints⟩ := ih hall
    exact ⟨hend, .head hint hints⟩

end Task

end Pushdown
