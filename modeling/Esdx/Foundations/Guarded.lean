import Mathlib.Tactic

/-!
# Runs of a guarded machine

In a guarded machine an action either leads to a new state or is not possible.  A run is a list of
actions that are possible one after another.  A property that holds at the start and is kept by
every step holds after every run; the step may also use what is known of all steps of the run.
-/

namespace Guarded

variable {α σ : Type} (step : α → σ → Option σ)

/-- The state after a list of actions, if each of them is possible when its turn comes. -/
def run : List α → σ → Option σ
  | [], s => some s
  | a :: as, s => (step a s).bind (run as)

@[simp] lemma run_nil (s : σ) : run step [] s = some s := rfl

/-- A run over a concatenation is a run over the first part and then one over the second. -/
lemma run_append (as bs : List α) (s : σ) :
    run step (as ++ bs) s = (run step as s).bind (run step bs) := by
  induction as generalizing s with
  | nil => rfl
  | cons a as ih =>
    rw [List.cons_append, run, run]
    rcases step a s with _ | t
    · rfl
    · exact ih t

variable {step}

/-- A run that begins with a possible action. -/
lemma run_cons {a : α} {as : List α} {s t : σ} (h : step a s = some t) :
    run step (a :: as) s = run step as t := by
  rw [run, h, Option.bind_some]

/-- A run with one more action. -/
lemma run_concat {as : List α} {a : α} {s t : σ} :
    run step (as ++ [a]) s = some t ↔ ∃ m, run step as s = some m ∧ step a m = some t := by
  rw [run_append, Option.bind_eq_some_iff]
  refine exists_congr fun m => and_congr_right fun _ => ?_
  rw [run]
  rcases step a m with _ | t'
  · rfl
  · rfl

/-- Two runs one after the other. -/
lemma run_trans {as bs : List α} {s t u : σ} (h : run step as s = some t)
    (h' : run step bs t = some u) : run step (as ++ bs) s = some u := by
  rw [run_append, h]
  exact h'

/-- **Invariants of runs.**  What holds at the start and is kept by every step holds after every
run. -/
theorem run_induction {s₀ : σ} (P : σ → Prop) (h₀ : P s₀)
    (hstep : ∀ a s s', P s → step a s = some s' → P s') {as : List α} {s : σ}
    (h : run step as s₀ = some s) : P s := by
  induction as using List.reverseRecOn generalizing s with
  | nil => exact Option.some.inj h ▸ h₀
  | append_singleton as a ih =>
    obtain ⟨m, hm, ha⟩ := run_concat.mp h
    exact hstep a m s (ih hm) ha

variable (step)

/-- `Q` holds of every action of a run and the state in which it is taken. -/
def EachStep (Q : α → σ → Prop) (as : List α) (s₀ : σ) : Prop :=
  ∀ pre a post s, as = pre ++ a :: post → run step pre s₀ = some s → Q a s

variable {step}

@[simp] lemma eachStep_nil {Q : α → σ → Prop} {s₀ : σ} : EachStep step Q [] s₀ :=
  fun pre a post s hsplit => by simp at hsplit

/-- One more action adds one more step. -/
lemma eachStep_concat {Q : α → σ → Prop} {as : List α} {a : α} {s₀ : σ} :
    EachStep step Q (as ++ [a]) s₀ ↔
      EachStep step Q as s₀ ∧ ∀ s, run step as s₀ = some s → Q a s := by
  constructor
  · intro h
    exact ⟨fun pre b post s hsplit hrun => h pre b (post ++ [a]) s (by simp [hsplit]) hrun,
      fun s hrun => h as a [] s rfl hrun⟩
  · rintro ⟨h, ha⟩ pre b post s hsplit hrun
    rcases List.eq_nil_or_concat post with rfl | ⟨post, c, rfl⟩
    · obtain ⟨rfl, hab⟩ := List.append_inj' hsplit rfl
      obtain rfl : a = b := by simpa using hab
      exact ha s hrun
    · rw [List.concat_eq_append, ← List.cons_append, ← List.append_assoc] at hsplit
      exact h pre b post s (List.append_inj_left' hsplit rfl) hrun

/-- The first of several steps, and what follows it if it is possible. -/
lemma eachStep_cons_iff {Q : α → σ → Prop} {a : α} {as : List α} {s : σ} :
    EachStep step Q (a :: as) s ↔ Q a s ∧ ∀ t, step a s = some t → EachStep step Q as t := by
  constructor
  · intro hall
    refine ⟨hall [] a as s rfl rfl, fun t h pre b post u hsplit hrun => ?_⟩
    exact hall (a :: pre) b post u (by rw [hsplit, List.cons_append]) ((run_cons h).trans hrun)
  · rintro ⟨hfirst, hrest⟩ pre b post u hsplit hrun
    cases pre with
    | nil =>
      obtain ⟨rfl, rfl⟩ := List.cons.inj hsplit
      obtain rfl := Option.some.inj hrun
      exact hfirst
    | cons c pre =>
      obtain ⟨rfl, htail⟩ := List.cons.inj hsplit
      obtain ⟨t, h, hrun⟩ := Option.bind_eq_some_iff.mp hrun
      exact hrest t h pre b post u htail hrun

/-- The first of several steps. -/
lemma eachStep_cons {Q : α → σ → Prop} {a : α} {as : List α} {s t : σ} (h : step a s = some t) :
    EachStep step Q (a :: as) s ↔ Q a s ∧ EachStep step Q as t := by
  rw [eachStep_cons_iff, h]
  simp only [Option.some.injEq, forall_eq']

/-- A condition that can be decided in each state can be decided along a list of actions. -/
instance decidableEachStep {Q : α → σ → Prop} [∀ a s, Decidable (Q a s)] :
    (as : List α) → (s : σ) → Decidable (EachStep step Q as s)
  | [], _ => isTrue eachStep_nil
  | a :: as, s =>
    have : DecidablePred (EachStep step Q as) := decidableEachStep as
    decidable_of_iff (Q a s ∧ ∀ t ∈ step a s, EachStep step Q as t) eachStep_cons_iff.symm

/-- The steps of a run and those of a run that goes on from its end. -/
lemma eachStep_append {Q : α → σ → Prop} {as bs : List α} {s t : σ}
    (h : run step as s = some t) :
    EachStep step Q (as ++ bs) s ↔ EachStep step Q as s ∧ EachStep step Q bs t := by
  induction as generalizing s with
  | nil =>
    obtain rfl := Option.some.inj h
    exact (and_iff_right eachStep_nil).symm
  | cons a as ih =>
    rw [run, Option.bind_eq_some_iff] at h
    obtain ⟨m, ha, hm⟩ := h
    rw [List.cons_append, eachStep_cons ha, eachStep_cons ha, ih hm, and_assoc]

/-- A property that is lost at the steps that miss the condition, and never regained, holds after
the runs whose steps all meet it. -/
lemma run_iff_eachStep {Q : α → σ → Prop} {s₀ : σ} (P : σ → Prop) (h₀ : P s₀)
    (hstep : ∀ a s s', step a s = some s' → (P s' ↔ P s ∧ Q a s)) {as : List α} {s : σ}
    (h : run step as s₀ = some s) : P s ↔ EachStep step Q as s₀ := by
  induction as using List.reverseRecOn generalizing s with
  | nil => exact iff_of_true (Option.some.inj h ▸ h₀) eachStep_nil
  | append_singleton as a ih =>
    obtain ⟨m, hm, ha⟩ := run_concat.mp h
    rw [eachStep_concat, hstep a m s ha, ih hm]
    exact and_congr_right fun _ =>
      ⟨fun hQ t ht => Option.some.inj (hm.symm.trans ht) ▸ hQ, fun hQ => hQ m hm⟩

/-- **Invariants of runs with a condition on the steps.**  The property need only be kept by the
steps that meet the condition. -/
theorem run_induction_of_eachStep {Q : α → σ → Prop} {s₀ : σ} (P : σ → Prop) (h₀ : P s₀)
    (hstep : ∀ a s s', P s → Q a s → step a s = some s' → P s') {as : List α} {s : σ}
    (hQ : EachStep step Q as s₀) (h : run step as s₀ = some s) : P s := by
  induction as using List.reverseRecOn generalizing s with
  | nil => exact Option.some.inj h ▸ h₀
  | append_singleton as a ih =>
    obtain ⟨m, hm, ha⟩ := run_concat.mp h
    obtain ⟨hpre, hlast⟩ := eachStep_concat.mp hQ
    exact hstep a m s (ih hpre hm) (hlast m hm) ha

end Guarded
