import Mathlib.Tactic

/-!
# Runs of a state machine

A machine answers every input with a response and a new state.  `exec` runs it on a list of
inputs and keeps the trace of all inputs with their responses.  An invariant that may mention the
trace is proved once for one step (`exec_induction`); everything reached by a run then has it.
-/

namespace Machine

variable {ι ρ σ : Type} (step : ι → σ → ρ × σ)

/-- Run the machine on a list of inputs, collecting every input with its response. -/
def exec : List ι → σ → List (ι × ρ) × σ
  | [], s => ([], s)
  | i :: is, s =>
    ((i, (step i s).1) :: (exec is (step i s).2).1, (exec is (step i s).2).2)

@[simp] lemma exec_nil (s : σ) : exec step [] s = ([], s) := rfl

/-- A run over a concatenation is the run over the first part followed by the run over the
second. -/
lemma exec_append (is js : List ι) (s : σ) :
    exec step (is ++ js) s =
      ((exec step is s).1 ++ (exec step js (exec step is s).2).1,
        (exec step js (exec step is s).2).2) := by
  induction is generalizing s with
  | nil => simp
  | cons i is ih => simp [exec, ih]

/-- One more input adds its response to the end of the trace. -/
lemma exec_append_singleton (is : List ι) (i : ι) (s : σ) :
    exec step (is ++ [i]) s =
      ((exec step is s).1 ++ [(i, (step i (exec step is s).2).1)],
        (step i (exec step is s).2).2) := by
  simp [exec_append, exec]

/-- **Invariants over runs.**  A property of trace and state that holds at the start and is kept
by every step holds after every run. -/
theorem exec_induction {s₀ : σ} (P : List (ι × ρ) → σ → Prop) (h₀ : P [] s₀)
    (hstep : ∀ tr s i, P tr s → P (tr ++ [(i, (step i s).1)]) (step i s).2) (is : List ι) :
    P (exec step is s₀).1 (exec step is s₀).2 := by
  induction is using List.reverseRecOn with
  | nil => exact h₀
  | append_singleton is i ih =>
    rw [exec_append_singleton]
    exact hstep _ _ i ih

/-- `Q` holds of every input of a run and the state that it meets. -/
def EachStep (Q : ι → σ → Prop) (is : List ι) (s : σ) : Prop :=
  ∀ pre i post, is = pre ++ i :: post → Q i (exec step pre s).2

/-- One more input adds one more step. -/
lemma eachStep_concat {Q : ι → σ → Prop} {is : List ι} {i : ι} {s : σ} :
    EachStep step Q (is ++ [i]) s ↔ EachStep step Q is s ∧ Q i (exec step is s).2 := by
  constructor
  · intro h
    refine ⟨fun pre j post hsplit => h pre j (post ++ [i]) (by simp [hsplit]), h is i [] rfl⟩
  · rintro ⟨h, hi⟩ pre j post hsplit
    rcases List.eq_nil_or_concat post with rfl | ⟨post, k, rfl⟩
    · obtain ⟨rfl, hij⟩ := List.append_inj' hsplit rfl
      obtain rfl : i = j := by simpa using hij
      exact hi
    · rw [List.concat_eq_append, ← List.cons_append, ← List.append_assoc] at hsplit
      exact h pre j post (List.append_inj_left' hsplit rfl)

/-! ## Matching a trace with what it left behind -/

variable {α β : Type} {R : α → β → Prop}

/-- Every entry of a matched list has a partner. -/
lemma exists_of_mem_forall₂ {l : List α} {l' : List β} (h : List.Forall₂ R l l') {a : α}
    (ha : a ∈ l) : ∃ b ∈ l', R a b := by
  induction h with
  | nil => simp at ha
  | @cons a' b l l' hab _ ih =>
    rcases List.mem_cons.mp ha with rfl | ha
    · exact ⟨b, List.mem_cons_self, hab⟩
    · obtain ⟨b', hb', hab'⟩ := ih ha
      exact ⟨b', List.mem_cons_of_mem _ hb', hab'⟩

/-- The entries that a filter keeps have their partners, in the same order. -/
lemma exists_sublist_forall₂_filter {l : List α} {l' : List β} (h : List.Forall₂ R l l')
    (p : α → Bool) : ∃ l'', l''.Sublist l' ∧ List.Forall₂ R (l.filter p) l'' := by
  induction h with
  | nil => exact ⟨[], List.Sublist.refl _, .nil⟩
  | @cons a b l l' hab _ ih =>
    obtain ⟨l'', hsub, hrest⟩ := ih
    by_cases hp : p a = true
    · rw [List.filter_cons_of_pos hp]
      exact ⟨b :: l'', hsub.cons_cons b, .cons hab hrest⟩
    · rw [List.filter_cons_of_neg hp]
      exact ⟨l'', hsub.cons b, hrest⟩

/-- A partner may be replaced by one that matches no less. -/
lemma forall₂_replace {l : List α} {pre post : List β} {b b' : β}
    (h : List.Forall₂ R l (pre ++ b :: post)) (hb : ∀ a, R a b → R a b') :
    List.Forall₂ R l (pre ++ b' :: post) := by
  induction pre generalizing l with
  | nil =>
    cases h with
    | cons hab h => exact .cons (hb _ hab) h
  | cons c pre ih =>
    cases h with
    | cons hac h => exact .cons hac (ih h)

/-- The partners of a list with a given entry are split where the list is. -/
lemma exists_split_forall₂ {l : List α} {pre post : List β} {b : β}
    (h : List.Forall₂ R l (pre ++ b :: post)) :
    ∃ pre' a post', l = pre' ++ a :: post' ∧ List.Forall₂ R pre' pre ∧ R a b ∧
      List.Forall₂ R post' post := by
  induction pre generalizing l with
  | nil =>
    cases h with
    | cons hab h => exact ⟨[], _, _, rfl, .nil, hab, h⟩
  | cons c pre ih =>
    cases h with
    | cons hac h =>
      obtain ⟨pre', a, post', rfl, hpre, hab, hpost⟩ := ih h
      exact ⟨_ :: pre', a, post', rfl, .cons hac hpre, hab, hpost⟩

end Machine
