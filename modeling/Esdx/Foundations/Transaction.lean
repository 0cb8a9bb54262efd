import Mathlib.Tactic

/-!
# Transactions over a store

A computation of type `Tx σ ε α` reads and writes a store of type `σ` and either returns a
value of type `α` or raises an exception of type `ε`.  Writes made before an exception is raised
stay in the store; only `Tx.atomic`, the model of a database transaction, undoes them.

The lemmas below are inversion rules.  A run that succeeds is taken apart one statement at a time
(`Tx.bind_eq_ok`), and a run that fails stops at exactly one statement (`Tx.bind_eq_error`), so a
proof about a long procedure never unfolds the monad.
-/

/-- A computation over a store `σ` that may raise an exception `ε`. -/
def Tx (σ ε α : Type) : Type := σ → Except ε α × σ

namespace Tx

variable {σ ε ε' α β : Type}

instance : Monad (Tx σ ε) where
  pure a := fun s => (.ok a, s)
  bind x f := fun s =>
    match x s with
    | (.ok a, s') => f a s'
    | (.error e, s') => (.error e, s')

/-- A pure computation that may fail is a computation that leaves the store alone. -/
instance : MonadLift (Except ε) (Tx σ ε) where
  monadLift x := fun s => (x, s)

/-- Raise an exception. -/
def raise (e : ε) : Tx σ ε α := fun s => (.error e, s)

/-- Read the store. -/
def read : Tx σ ε σ := fun s => (.ok s, s)

/-- Overwrite the store. -/
def write (s : σ) : Tx σ ε Unit := fun _ => (.ok (), s)

/-- Run `x` as one transaction: when it raises, the store goes back to what it was. -/
def atomic (x : Tx σ ε α) : Tx σ ε α := fun s =>
  match x s with
  | (.ok a, s') => (.ok a, s')
  | (.error e, _) => (.error e, s)

/-- Re-raise every exception of `x` as its image under `f`. -/
def mapError (f : ε → ε') (x : Tx σ ε α) : Tx σ ε' α := fun s =>
  match x s with
  | (.ok a, s') => (.ok a, s')
  | (.error e, s') => (.error (f e), s')

/-- Returning a function of the value of a computation. -/
lemma bind_pure_apply (x : Tx σ ε α) (f : α → β) (s : σ) :
    (x >>= fun a => pure (f a)) s = ((x s).1.map f, (x s).2) := by
  change (match x s with
    | (.ok a, s') => (Except.ok (f a), s')
    | (.error e, s') => (.error e, s')) = _
  rcases x s with ⟨_ | a, s₁⟩ <;> rfl

/-- A sequence goes on where its first part succeeded. -/
lemma bind_apply_of_ok {x : Tx σ ε α} {f : α → Tx σ ε β} {s s₁ : σ} {a : α}
    (h : x s = (.ok a, s₁)) : (x >>= f) s = f a s₁ := by
  change (match x s with
    | (.ok a, s') => f a s'
    | (.error e, s') => (.error e, s')) = _
  rw [h]

/-- A sequence fails where its first part failed. -/
lemma bind_apply_of_error {x : Tx σ ε α} {f : α → Tx σ ε β} {s s₁ : σ} {e : ε}
    (h : x s = (.error e, s₁)) : (x >>= f) s = (.error e, s₁) := by
  change (match x s with
    | (.ok a, s') => f a s'
    | (.error e, s') => (.error e, s')) = _
  rw [h]

/-- Sequences are associative. -/
lemma bind_assoc {γ : Type} (x : Tx σ ε α) (f : α → Tx σ ε β) (g : β → Tx σ ε γ) :
    x >>= f >>= g = x >>= fun a => f a >>= g := by
  funext s
  rcases h : x s with ⟨e | a, s₁⟩
  · rw [bind_apply_of_error (bind_apply_of_error h), bind_apply_of_error h]
  · rw [bind_apply_of_ok h]
    rcases hf : f a s₁ with ⟨e | b, s₂⟩
    · rw [bind_apply_of_error ((bind_apply_of_ok h).trans hf), bind_apply_of_error hf]
    · rw [bind_apply_of_ok ((bind_apply_of_ok h).trans hf), bind_apply_of_ok hf]

/-- A returned value is what the sequence goes on with. -/
lemma pure_bind (a : α) (f : α → Tx σ ε β) : (pure a : Tx σ ε α) >>= f = f a := rfl

/-! ## Inversion of successful runs -/

/-- A sequence succeeds exactly when both of its parts do. -/
lemma bind_eq_ok {x : Tx σ ε α} {f : α → Tx σ ε β} {s s' : σ} {b : β} :
    (x >>= f) s = (.ok b, s') ↔ ∃ a s₁, x s = (.ok a, s₁) ∧ f a s₁ = (.ok b, s') := by
  change (match x s with
    | (.ok a, s') => f a s'
    | (.error e, s') => (.error e, s')) = _ ↔ _
  rcases h : x s with ⟨_ | a, s₁⟩
  · simp
  · simp

/-- Returning a value succeeds and leaves the store alone. -/
@[simp] lemma pure_eq_ok {s s' : σ} {a b : α} :
    (pure a : Tx σ ε α) s = (.ok b, s') ↔ a = b ∧ s = s' := by
  change ((Except.ok a : Except ε α), s) = _ ↔ _
  simp

/-- A lifted pure computation succeeds with its own value and leaves the store alone. -/
@[simp] lemma liftM_eq_ok {x : Except ε α} {s s' : σ} {a : α} :
    (liftM x : Tx σ ε α) s = (.ok a, s') ↔ x = .ok a ∧ s = s' := by
  change ((x : Except ε α), s) = _ ↔ _
  simp

/-- Raising never succeeds. -/
@[simp] lemma raise_eq_ok {e : ε} {s s' : σ} {a : α} :
    (raise e : Tx σ ε α) s = (.ok a, s') ↔ False := by
  simp [raise]

/-- Reading the store returns it. -/
@[simp] lemma read_eq_ok {s s' t : σ} :
    (read : Tx σ ε σ) s = (.ok t, s') ↔ s = t ∧ s = s' := by
  simp [read]

/-- Writing the store replaces it. -/
@[simp] lemma write_eq_ok {s s' t : σ} {u : Unit} :
    (write t : Tx σ ε Unit) s = (.ok u, s') ↔ t = s' := by
  simp [write]

/-- A transaction succeeds exactly when its body does. -/
@[simp] lemma atomic_eq_ok {x : Tx σ ε α} {s s' : σ} {a : α} :
    atomic x s = (.ok a, s') ↔ x s = (.ok a, s') := by
  unfold atomic
  rcases h : x s with ⟨_ | b, s₁⟩ <;> simp

/-- Renaming exceptions does not change the successful runs. -/
@[simp] lemma mapError_eq_ok {f : ε → ε'} {x : Tx σ ε α} {s s' : σ} {a : α} :
    mapError f x s = (.ok a, s') ↔ x s = (.ok a, s') := by
  unfold mapError
  rcases h : x s with ⟨_ | b, s₁⟩ <;> simp

/-- A sequence that starts with a lifted pure computation. -/
lemma bind_liftM_eq_ok {x : Except ε α} {f : α → Tx σ ε β} {s s' : σ} {b : β} :
    ((liftM x : Tx σ ε α) >>= f) s = (.ok b, s') ↔ ∃ a, x = .ok a ∧ f a s = (.ok b, s') := by
  rw [bind_eq_ok]
  constructor
  · rintro ⟨a, s₁, hx, hf⟩
    obtain ⟨ha, rfl⟩ := liftM_eq_ok.mp hx
    exact ⟨a, ha, hf⟩
  · rintro ⟨a, ha, hf⟩
    exact ⟨a, s, liftM_eq_ok.mpr ⟨ha, rfl⟩, hf⟩

/-- A sequence that starts with a read. -/
lemma bind_read_eq_ok {f : σ → Tx σ ε β} {s s' : σ} {b : β} :
    ((read : Tx σ ε σ) >>= f) s = (.ok b, s') ↔ f s s = (.ok b, s') := Iff.rfl

/-- A sequence that starts with a write. -/
lemma bind_write_eq_ok {t : σ} {f : Unit → Tx σ ε β} {s s' : σ} {b : β} :
    ((write t : Tx σ ε Unit) >>= f) s = (.ok b, s') ↔ f () t = (.ok b, s') := Iff.rfl

/-! ## Inversion of failed runs -/

/-- A sequence fails in its first part, or in its second part after the first succeeded. -/
lemma bind_eq_error {x : Tx σ ε α} {f : α → Tx σ ε β} {s s' : σ} {e : ε} :
    (x >>= f) s = (.error e, s') ↔
      x s = (.error e, s') ∨ ∃ a s₁, x s = (.ok a, s₁) ∧ f a s₁ = (.error e, s') := by
  change (match x s with
    | (.ok a, s') => f a s'
    | (.error e, s') => (.error e, s')) = _ ↔ _
  rcases h : x s with ⟨_ | a, s₁⟩
  · simp
  · simp

/-- Returning a value never fails. -/
@[simp] lemma pure_eq_error {s s' : σ} {a : α} {e : ε} :
    (pure a : Tx σ ε α) s = (.error e, s') ↔ False := by
  change ((Except.ok a : Except ε α), s) = _ ↔ _
  simp

/-- A lifted pure computation fails with its own exception and leaves the store alone. -/
@[simp] lemma liftM_eq_error {x : Except ε α} {s s' : σ} {e : ε} :
    (liftM x : Tx σ ε α) s = (.error e, s') ↔ x = .error e ∧ s = s' := by
  change ((x : Except ε α), s) = _ ↔ _
  simp

/-- Raising fails with the exception raised. -/
@[simp] lemma raise_eq_error {e e' : ε} {s s' : σ} :
    (raise e : Tx σ ε α) s = (.error e', s') ↔ e = e' ∧ s = s' := by
  simp [raise]

/-- Reading never fails. -/
@[simp] lemma read_eq_error {s s' : σ} {e : ε} :
    (read : Tx σ ε σ) s = (.error e, s') ↔ False := by
  simp [read]

/-- Writing never fails. -/
@[simp] lemma write_eq_error {s s' t : σ} {e : ε} :
    (write t : Tx σ ε Unit) s = (.error e, s') ↔ False := by
  simp [write]

/-- A failed transaction leaves the store as it was. -/
lemma atomic_eq_error {x : Tx σ ε α} {s s' : σ} {e : ε} :
    atomic x s = (.error e, s') ↔ (∃ s₁, x s = (.error e, s₁)) ∧ s' = s := by
  unfold atomic
  rcases h : x s with ⟨_ | b, s₁⟩
  · simp [eq_comm]
  · simp

/-- Renaming exceptions keeps the failed runs. -/
lemma mapError_eq_error {f : ε → ε'} {x : Tx σ ε α} {s s' : σ} {e' : ε'} :
    mapError f x s = (.error e', s') ↔ ∃ e, x s = (.error e, s') ∧ f e = e' := by
  unfold mapError
  rcases h : x s with ⟨e | b, s₁⟩
  · simp [and_comm]
  · simp

/-- Every run of a transaction either succeeds or leaves the store as it was. -/
theorem atomic_ok_or_unchanged (x : Tx σ ε α) (s : σ) :
    (∃ a s', atomic x s = (.ok a, s') ∧ x s = (.ok a, s')) ∨
      ∃ e, atomic x s = (.error e, s) := by
  unfold atomic
  rcases h : x s with ⟨e | a, s'⟩
  · exact .inr ⟨e, rfl⟩
  · exact .inl ⟨a, s', rfl, rfl⟩

/-! ## Computations that only read -/

/-- The computation never changes the store. -/
def ReadOnly (x : Tx σ ε α) : Prop := ∀ s, (x s).2 = s

lemma readOnly_liftM (x : Except ε α) : ReadOnly (liftM x : Tx σ ε α) := fun _ => rfl

lemma readOnly_read : ReadOnly (read : Tx σ ε σ) := fun _ => rfl

lemma readOnly_raise (e : ε) : ReadOnly (raise e : Tx σ ε α) := fun _ => rfl

/-- A sequence of computations that only read only reads. -/
lemma ReadOnly.bind {x : Tx σ ε α} {f : α → Tx σ ε β} (hx : ReadOnly x) (hf : ∀ a, ReadOnly (f a)) :
    ReadOnly (x >>= f) := by
  intro s
  change (match x s with
    | (.ok a, s') => f a s'
    | (.error e, s') => (.error e, s')).2 = s
  have hs := hx s
  rcases h : x s with ⟨_ | a, s₁⟩
  · rw [h] at hs
    exact hs
  · rw [h] at hs
    exact (hf a s₁).trans hs

/-- Renaming exceptions keeps a computation one that only reads. -/
lemma ReadOnly.mapError {f : ε → ε'} {x : Tx σ ε α} (hx : ReadOnly x) :
    ReadOnly (mapError f x) := by
  intro s
  have hs := hx s
  unfold Tx.mapError
  rcases h : x s with ⟨_ | a, s₁⟩
  · rw [h] at hs
    exact hs
  · rw [h] at hs
    exact hs

end Tx

/-- A list is mapped successfully exactly when every entry is. -/
lemma mapM_eq_ok {ε α β : Type} {f : α → Except ε β} {l : List α} {r : List β} :
    l.mapM f = .ok r ↔ List.Forall₂ (fun a b => f a = .ok b) l r := by
  induction l generalizing r with
  | nil => simp [pure, Except.pure, eq_comm]
  | cons a l ih =>
    rw [List.mapM_cons, List.forall₂_cons_left_iff]
    rcases ha : f a with e | b
    · simp [bind, Except.bind]
    rcases hl : l.mapM f with e | bs
    · refine iff_of_false (by simp [bind, Except.bind]) ?_
      rintro ⟨b', bs, -, hbs, -⟩
      simp [ih.mpr hbs] at hl
    · simp only [bind, Except.bind, pure, Except.pure, Except.ok.injEq]
      constructor
      · rintro rfl
        exact ⟨b, bs, rfl, ih.mp hl, rfl⟩
      · rintro ⟨b', bs', rfl, hbs, rfl⟩
        rw [ih.mpr hbs, Except.ok.injEq] at hl
        rw [hl]

/-- A list whose entries can all be mapped can be mapped. -/
lemma exists_mapM_eq_ok {ε α β : Type} {f : α → Except ε β} {l : List α}
    (h : ∀ a ∈ l, ∃ b, f a = .ok b) : ∃ r, l.mapM f = .ok r := by
  induction l with
  | nil => exact ⟨[], rfl⟩
  | cons a l ih =>
    obtain ⟨b, hb⟩ := h a List.mem_cons_self
    obtain ⟨bs, hbs⟩ := ih fun a' ha' => h a' (List.mem_cons_of_mem a ha')
    exact ⟨b :: bs, mapM_eq_ok.mpr (.cons hb (mapM_eq_ok.mp hbs))⟩
