import Mathlib.Data.List.Infix
import Mathlib.Logic.Relation
import Mathlib.Order.OrderIsoNat

/-!
# Invariants of runs

A transition system is a relation between states, and a run is its reflexive transitive closure
(`Relation.ReflTransGen`). A property that one step preserves holds in every state of a run
(`invariant`); a property that only the steps allowed by a guard preserve holds in every state of a
run of allowed steps (`Guarded`), and a list of actions, each allowed where it is taken, is such a
run (`Along.run`). A run that leaves a property passes through the states to which one step can
leave it (`leaves`). A run that lowers a measure at every step comes to an end
(`exists_of_measure`). What a run guarantees at each of its steps may be asked of the states before
them (`foldl_iff`).
-/

namespace Runs

open Relation

variable {σ : Type*} {step guard : σ → σ → Prop} {I : σ → Prop} {s t : σ}

/-- The steps of a system that the guard allows. -/
def Guarded (step guard : σ → σ → Prop) (s t : σ) : Prop := step s t ∧ guard s t

/-- What a step preserves, a run preserves. -/
theorem invariant (hstep : ∀ s t, I s → step s t → I t) (h : ReflTransGen step s t) (hs : I s) :
    I t := by
  induction h with
  | refl => exact hs
  | tail _ hlast ih => exact hstep _ _ ih hlast

/-- A run that leaves `I` does so by a step to `J`, and up to that step `I` holds. -/
theorem leaves {J : σ → Prop} (hstep : ∀ s t, I s → step s t → I t ∨ J t)
    (h : ReflTransGen step s t) (hs : I s) (ht : ¬ I t) :
    ∃ mid, ReflTransGen (Guarded step fun s _ => I s) s mid ∧ J mid ∧ ReflTransGen step mid t := by
  induction h using ReflTransGen.head_induction_on with
  | refl => exact absurd hs ht
  | @head s s' hfirst hrest ih =>
    rcases hstep s s' hs hfirst with hI | hJ
    · obtain ⟨mid, hbefore, hJ, hafter⟩ := ih hI
      exact ⟨mid, .head ⟨hfirst, hs⟩ hbefore, hJ, hafter⟩
    · exact ⟨s', .single ⟨hfirst, hs⟩, hJ, hrest⟩

/-- Steps taken one after another are a run. -/
theorem foldl {α : Type*} {f : σ → α → σ} (hstep : ∀ s a, step s (f s a)) :
    ∀ (s : σ) (as : List α), ReflTransGen step s (as.foldl f s)
  | _, [] => .refl
  | s, a :: as => (ReflTransGen.single (hstep s a)).trans (foldl hstep (f s a) as)

/-- Each action of the sequence is allowed in the state in which it is taken. -/
def Along {α : Type*} (P : σ → α → Prop) (f : σ → α → σ) : σ → List α → Prop
  | _, [] => True
  | s, a :: as => P s a ∧ Along P f (f s a) as

instance Along.decidable {α : Type*} {P : σ → α → Prop} {f : σ → α → σ}
    [∀ s a, Decidable (P s a)] : (s : σ) → (as : List α) → Decidable (Along P f s as)
  | _, [] => .isTrue trivial
  | s, a :: as =>
    have := Along.decidable (P := P) (f := f) (f s a) as
    inferInstanceAs (Decidable (_ ∧ _))

/-- Allowed actions taken one after another are a run of allowed steps. -/
theorem Along.run {α : Type*} {P : σ → α → Prop} {f : σ → α → σ}
    (hstep : ∀ s a, P s a → step s (f s a)) :
    ∀ {as : List α} {s : σ}, Along P f s as → ReflTransGen step s (as.foldl f s)
  | [], _, _ => .refl
  | a :: _, s, ⟨ha, has⟩ => .head (hstep s a ha) (has.run hstep)

/-- What the allowed steps preserve, a run of allowed steps preserves. -/
theorem guarded_invariant (hstep : ∀ s t, I s → guard s t → step s t → I t)
    (h : ReflTransGen (Guarded step guard) s t) (hs : I s) : I t :=
  invariant (fun s t hI hst => hstep s t hI hst.2 hst.1) h hs

/-- Two conditions on a step mean the same for all steps of a run if they do where an invariant
holds, and the second one keeps the invariant. -/
theorem foldl_iff {α : Type*} {f : σ → α → σ} {P Q : σ → α → Prop}
    (hiff : ∀ s a, I s → (P s a ↔ Q s a)) (hstep : ∀ s a, I s → Q s a → I (f s a)) (hs : I s)
    (as : List α) :
    (∀ done a, done ++ [a] <+: as → P (done.foldl f s) a) ↔
      ∀ done a, done ++ [a] <+: as → Q (done.foldl f s) a := by
  have hkept (done : List α) (hQ : ∀ d a, d ++ [a] <+: done → Q (d.foldl f s) a) :
      I (done.foldl f s) := by
    induction done using List.reverseRecOn with
    | nil => exact hs
    | append_singleton done a ih =>
      rw [List.foldl_concat]
      refine hstep _ a (ih fun d b hd => hQ d b (hd.trans (List.prefix_append _ _))) ?_
      exact hQ done a (List.prefix_refl _)
  have hupto (done : List α) (hP : ∀ d a, d ++ [a] <+: done → P (d.foldl f s) a) :
      ∀ d a, d ++ [a] <+: done → Q (d.foldl f s) a := by
    induction done using List.reverseRecOn with
    | nil => exact fun d a hd => absurd (List.prefix_nil.1 hd) (by simp)
    | append_singleton done b ih =>
      have hQ := ih fun d a hd => hP d a (hd.trans (List.prefix_append _ _))
      intro d a hd
      obtain heq | hd := List.prefix_concat_iff.1 hd
      · obtain ⟨rfl, hab⟩ := List.append_inj' heq rfl
        cases hab
        exact (hiff _ b (hkept d hQ)).1 (hP d b (List.prefix_refl _))
      · exact hQ d a hd
  refine ⟨hupto as, fun hQ done a hdone => ?_⟩
  have hI := hkept done fun d b hd => hQ d b (hd.trans ((List.prefix_append _ _).trans hdone))
  exact (hiff _ a hI).2 (hQ done a hdone)

/-- A sequence of states with a measure that every state before the goal lowers comes to the
goal. -/
theorem exists_of_measure {f : Nat → σ} (goal : σ → Prop) (μ : σ → Nat)
    (h : ∀ k, ¬ goal (f k) → μ (f (k + 1)) < μ (f k)) : ∃ k, goal (f k) := by
  by_contra hnever
  rw [not_exists] at hnever
  exact not_strictAnti_of_wellFoundedLT (fun k => μ (f k))
    (strictAnti_nat_of_succ_lt fun k => h k (hnever k))

end Runs
