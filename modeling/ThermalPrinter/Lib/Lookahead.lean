import Mathlib.Data.List.Basic
import Mathlib.Order.Basic

/-!
# Readers with look-ahead

A reader keeps a control state and a stretch of unread input. It either reacts, which changes the
state, drops some input and emits some output, or it is blocked, which for a reader of a live
stream means that it waits for more input. How far a reaction looks ahead is up to the reader; what
makes the cutting of the stream into packets invisible is that a reaction, once possible, stays the
same when more input follows (`Stable`). `Feeds.whole` is that statement: feeding packets one after
another ends where feeding their concatenation does, with the same output.

Stability may depend on the state and on what is still to come, so it is relative to an invariant
of the state and of all the input that is not read yet.
-/

namespace Lookahead

variable {σ β ε : Type*}

/-- A reader: in a state and on unread input, either a reaction, with the next state, the input it
leaves and the output it emits, or none. -/
structure Reader (σ β ε : Type*) where
  react : σ → List β → Option (σ × List β × List ε)

namespace Reader

variable (R : Reader σ β ε)

/-- The reader has no reaction. -/
def Blocked (s : σ) (u : List β) : Prop := R.react s u = none

/-- A run of reactions and the output it emits. -/
inductive Steps : σ → List β → List ε → σ → List β → Prop
  | refl {s : σ} {u : List β} : Steps s u [] s u
  | head {s s' s'' : σ} {u u' u'' : List β} {es es' : List ε} :
      R.react s u = some (s', u', es) → Steps s' u' es' s'' u'' → Steps s u (es ++ es') s'' u''

/-- Feeding packets one after another: every packet is appended to what the reader left unread, and
the reader reacts until it is blocked. -/
inductive Feeds : σ → List β → List (List β) → List ε → σ → List β → Prop
  | nil {s : σ} {u : List β} : Feeds s u [] [] s u
  | cons {s s' s'' : σ} {u u' u'' p : List β} {ps : List (List β)} {es es' : List ε} :
      R.Steps s (u ++ p) es s' u' → R.Blocked s' u' → Feeds s' u' ps es' s'' u'' →
      Feeds s u (p :: ps) (es ++ es') s'' u''

/-- More input changes no reaction, as long as the invariant `I` holds of the state and of all the
input to come; and reactions keep the invariant. -/
structure Stable (I : σ → List β → Prop) : Prop where
  react : ∀ {s s' : σ} {u u' : List β} (v : List β) {es : List ε}, I s (u ++ v) →
    R.react s u = some (s', u', es) → R.react s (u ++ v) = some (s', u' ++ v, es)
  inv : ∀ {s s' : σ} {u u' : List β} {es : List ε}, I s u →
    R.react s u = some (s', u', es) → I s' u'

variable {R} {s s' s₁ s₂ : σ} {u u' u₁ u₂ : List β} {es es₁ es₂ : List ε}

/-- A single reaction is a run. -/
theorem Steps.single (h : R.react s u = some (s', u', es)) : R.Steps s u es s' u' := by
  simpa using Steps.head h .refl

/-- Runs compose, and so does their output. -/
theorem Steps.trans (h₁ : R.Steps s u es s₁ u₁) (h₂ : R.Steps s₁ u₁ es₁ s₂ u₂) :
    R.Steps s u (es ++ es₁) s₂ u₂ := by
  induction h₁ with
  | refl => exact h₂
  | head h _ ih => rw [List.append_assoc]; exact .head h (ih h₂)

/-- A run is a prefix of every run to a blocked configuration. -/
theorem Steps.extend (h₁ : R.Steps s u es₁ s₁ u₁) (h₂ : R.Steps s u es₂ s₂ u₂)
    (hb : R.Blocked s₂ u₂) : ∃ es, es₂ = es₁ ++ es ∧ R.Steps s₁ u₁ es s₂ u₂ := by
  induction h₁ generalizing es₂ with
  | refl => exact ⟨es₂, rfl, h₂⟩
  | head h _ ih =>
    cases h₂ with
    | refl => rw [Blocked, h] at hb; cases hb
    | head h' hrest =>
      rw [h, Option.some.injEq, Prod.mk.injEq, Prod.mk.injEq] at h'
      obtain ⟨rfl, rfl, rfl⟩ := h'
      obtain ⟨es, rfl, hs⟩ := ih hrest
      exact ⟨es, (List.append_assoc ..).symm, hs⟩

/-- Of two runs from one configuration, one goes on from where the other ends. -/
theorem Steps.linear (h₁ : R.Steps s u es₁ s₁ u₁) (h₂ : R.Steps s u es₂ s₂ u₂) :
    (∃ es, R.Steps s₁ u₁ es s₂ u₂) ∨ ∃ es, R.Steps s₂ u₂ es s₁ u₁ := by
  induction h₁ generalizing es₂ with
  | refl => exact .inl ⟨es₂, h₂⟩
  | head h hrest ih =>
    cases h₂ with
    | refl => exact .inr ⟨_, .head h hrest⟩
    | head h' hrest' =>
      rw [h, Option.some.injEq, Prod.mk.injEq, Prod.mk.injEq] at h'
      obtain ⟨rfl, rfl, rfl⟩ := h'
      exact ih hrest'

/-- A blocked configuration has no run but the empty one. -/
theorem Steps.of_blocked (h : R.Steps s u es s' u') (hb : R.Blocked s u) :
    s' = s ∧ u' = u ∧ es = [] := by
  cases h with
  | refl => exact ⟨rfl, rfl, rfl⟩
  | head h' _ => rw [Blocked, h'] at hb; cases hb

/-- The blocked configuration a reader ends in, and what it emits on the way, are determined. -/
theorem Steps.unique (h₁ : R.Steps s u es₁ s₁ u₁) (hb₁ : R.Blocked s₁ u₁)
    (h₂ : R.Steps s u es₂ s₂ u₂) (hb₂ : R.Blocked s₂ u₂) :
    s₁ = s₂ ∧ u₁ = u₂ ∧ es₁ = es₂ := by
  obtain ⟨es, rfl, h⟩ := h₁.extend h₂ hb₂
  obtain ⟨rfl, rfl, rfl⟩ := h.of_blocked hb₁
  simp

/-- What no reaction raises bounds a run: if the input that a reaction drops, with what the state
has saved up, pays for what it emits, so it is for a run. -/
theorem Steps.pays {cost : List ε → Nat} {saved : σ → Nat} (hnil : cost [] = 0)
    (happend : ∀ es es', cost (es ++ es') = cost es + cost es')
    (hreact : ∀ {s s' : σ} {u u' : List β} {es : List ε}, R.react s u = some (s', u', es) →
      cost es + saved s' + u'.length ≤ saved s + u.length)
    (h : R.Steps s u es s' u') : cost es + saved s' + u'.length ≤ saved s + u.length := by
  induction h with
  | refl => omega
  | head h _ ih =>
    have hr := hreact h
    rw [happend]
    omega

/-- **A run is the same run when more input follows, until a stop.** Each reaction before the stop
is the same with the input that follows, and keeps the invariant. -/
theorem Steps.append_until {J Q : σ → List β → Prop} {v : List β}
    (hreact : ∀ s u s' u' es, J s u → R.react s u = some (s', u', es) →
      Q s u ∨ R.react s (u ++ v) = some (s', u' ++ v, es) ∧ J s' u')
    (h : R.Steps s u es s' u') (hJ : J s u) :
    (R.Steps s (u ++ v) es s' (u' ++ v) ∧ J s' u') ∨
      ∃ es₁ es₂ s₁ u₁, es = es₁ ++ es₂ ∧ Q s₁ u₁ ∧ R.Steps s (u ++ v) es₁ s₁ (u₁ ++ v) ∧
        R.Steps s₁ u₁ es₂ s' u' := by
  induction h with
  | refl => exact .inl ⟨.refl, hJ⟩
  | @head s s' s'' u u' u'' es es' h hrest ih =>
    rcases hreact _ _ _ _ _ hJ h with hstop | ⟨hsame, hJ'⟩
    · exact .inr ⟨[], es ++ es', s, u, rfl, hstop, .refl, .head h hrest⟩
    · rcases ih hJ' with ⟨hall, hend⟩ | ⟨es₁, es₂, s₁, u₁, rfl, hstop, h₁, h₂⟩
      · exact .inl ⟨.head hsame hall, hend⟩
      · exact .inr ⟨es ++ es₁, es₂, s₁, u₁, (List.append_assoc ..).symm, hstop, .head hsame h₁, h₂⟩

section
variable {I : σ → List β → Prop}

/-- A run keeps the invariant. -/
theorem Stable.steps (hR : R.Stable I) (h : R.Steps s u es s' u') (hI : I s u) : I s' u' := by
  induction h with
  | refl => exact hI
  | head h _ ih => exact ih (hR.inv hI h)

/-- A run is the same run when more input follows. -/
theorem Steps.append (hR : R.Stable I) (h : R.Steps s u es s' u') (v : List β)
    (hI : I s (u ++ v)) : R.Steps s (u ++ v) es s' (u' ++ v) := by
  induction h with
  | refl => exact .refl
  | head h _ ih =>
    have hr := hR.react v hI h
    exact .head hr (ih (hR.inv hI hr))

/-- Packets are a run on their concatenation, if each of them is read as it is with the packets to
come already there. `P` is what the packets keep. -/
theorem Feeds.steps_of {P : σ → List β → List (List β) → Prop}
    (hP : ∀ s u p ps es s' u', P s u (p :: ps) → R.Steps s (u ++ p) es s' u' → R.Blocked s' u' →
      R.Steps s (u ++ p ++ ps.flatten) es s' (u' ++ ps.flatten) ∧ P s' u' ps)
    {ps : List (List β)} (h : R.Feeds s u ps es s' u') (hs : P s u ps) :
    R.Steps s (u ++ ps.flatten) es s' u' := by
  induction h with
  | nil => rw [List.flatten_nil, List.append_nil]; exact .refl
  | cons h hb _ ih =>
    obtain ⟨hsame, hnext⟩ := hP _ _ _ _ _ _ _ hs h hb
    rw [List.flatten_cons, ← List.append_assoc]
    exact hsame.trans (ih hnext)

/-- Feeding packets one after another is a run on their concatenation. -/
theorem Feeds.steps (hR : R.Stable I) {ps : List (List β)} (h : R.Feeds s u ps es s' u')
    (hI : I s (u ++ ps.flatten)) : R.Steps s (u ++ ps.flatten) es s' u' := by
  refine h.steps_of (P := fun s u ps => I s (u ++ ps.flatten)) ?_ hI
  intro s u p ps es s' u' hI h _
  rw [List.flatten_cons, ← List.append_assoc] at hI
  have hsame := h.append hR ps.flatten hI
  exact ⟨hsame, hR.steps hsame hI⟩

/-- Feeding at least one packet ends blocked. -/
theorem Feeds.blocked {ps : List (List β)} (h : R.Feeds s u ps es s' u') (hps : ps ≠ []) :
    R.Blocked s' u' := by
  induction h with
  | nil => exact absurd rfl hps
  | @cons s s₁ s₂ u u₁ u₂ p ps es es' h hb hrest ih =>
    cases ps with
    | nil => cases hrest; exact hb
    | cons q qs => exact ih (by simp)

/-- **The cutting of a stream into packets is invisible.** Feeding at least one packet and one
packet after another is a run on their concatenation, and it ends blocked. -/
theorem Feeds.whole (hR : R.Stable I) {ps : List (List β)} (h : R.Feeds s u ps es s' u')
    (hps : ps ≠ []) (hI : I s (u ++ ps.flatten)) :
    R.Steps s (u ++ ps.flatten) es s' u' ∧ R.Blocked s' u' :=
  ⟨h.steps hR hI, h.blocked hps⟩

end

/-! ## Maps of readers -/

section
variable {σ' ε' : Type*} {R' : Reader σ' β ε'} {f : σ → σ'} {g : ε → ε'} {t : σ'} {es' : List ε'}

/-- A map of the states and of the output that carries every reaction of one reader to the reaction
of the other, on the same input. -/
def Hom (R : Reader σ β ε) (R' : Reader σ' β ε') (f : σ → σ') (g : ε → ε') : Prop :=
  ∀ s u, R'.react (f s) u = (R.react s u).map fun r => (f r.1, r.2.1, r.2.2.map g)

/-- A map of readers blocks what is blocked, and nothing else. -/
theorem Hom.blocked (hom : Hom R R' f g) : R'.Blocked (f s) u ↔ R.Blocked s u := by
  rw [Blocked, Blocked, hom, Option.map_eq_none_iff]

/-- A map of readers carries runs to runs. -/
theorem Hom.steps (hom : Hom R R' f g) (h : R.Steps s u es s' u') :
    R'.Steps (f s) u (es.map g) (f s') u' := by
  induction h with
  | refl => exact .refl
  | head h _ ih =>
    rw [List.map_append]
    refine .head ?_ ih
    rw [hom, h, Option.map_some]

/-- A run from an image is the image of a run. -/
theorem Hom.of_steps (hom : Hom R R' f g) (h : R'.Steps (f s) u es' t u') :
    ∃ es s', es' = es.map g ∧ t = f s' ∧ R.Steps s u es s' u' := by
  generalize hs : f s = s₀ at h
  induction h generalizing s with
  | refl => exact ⟨[], s, rfl, hs.symm, .refl⟩
  | head h _ ih =>
    subst hs
    rw [hom, Option.map_eq_some_iff] at h
    obtain ⟨⟨s₁, u₁, es₁⟩, hr, heq⟩ := h
    cases heq
    obtain ⟨es₂, s', rfl, rfl, hrest⟩ := ih rfl
    exact ⟨es₁ ++ es₂, s', (List.map_append ..).symm, rfl, .head hr hrest⟩

/-- Packets fed to an image are the image of packets fed. -/
theorem Hom.of_feeds (hom : Hom R R' f g) {ps : List (List β)}
    (h : R'.Feeds (f s) u ps es' t u') :
    ∃ es s', es' = es.map g ∧ t = f s' ∧ R.Feeds s u ps es s' u' := by
  generalize hs : f s = s₀ at h
  induction h generalizing s with
  | nil => exact ⟨[], s, rfl, hs.symm, .nil⟩
  | cons h hb _ ih =>
    subst hs
    obtain ⟨es₁, s₁, rfl, rfl, hsteps⟩ := hom.of_steps h
    obtain ⟨es₂, s', rfl, rfl, hrest⟩ := ih rfl
    exact ⟨es₁ ++ es₂, s', (List.map_append ..).symm, rfl,
      .cons hsteps (hom.blocked.1 hb) hrest⟩

end

/-- The feeding of packets is determined. -/
theorem Feeds.unique {ps : List (List β)} (h₁ : R.Feeds s u ps es₁ s₁ u₁)
    (h₂ : R.Feeds s u ps es₂ s₂ u₂) : s₁ = s₂ ∧ u₁ = u₂ ∧ es₁ = es₂ := by
  induction h₁ generalizing es₂ with
  | nil =>
    cases h₂
    exact ⟨rfl, rfl, rfl⟩
  | cons h hb _ ih =>
    cases h₂ with
    | cons h' hb' hrest =>
      obtain ⟨rfl, rfl, rfl⟩ := h.unique hb h' hb'
      obtain ⟨rfl, rfl, rfl⟩ := ih hrest
      exact ⟨rfl, rfl, rfl⟩

end Reader

end Lookahead
