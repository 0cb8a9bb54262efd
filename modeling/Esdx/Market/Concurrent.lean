import Esdx.Market.Ports

/-!
# Many processes on one database

Every service process has a `purchase_mutex` of its own, so purchases of different processes run
at the same time.  A purchase then is two steps: it reads a committed state and computes its rows
from it, and later the database takes the rows, unless one of them breaks a unique constraint.
The keys of the rows are taken from the counters of the database when they are computed.

A purchase that was computed from an old state can only be committed while the offer it sells is
still the last one of its chain, because every later sale of the chain left a purchase order for
that offer.  So the committed states are the same books of chains as without concurrency.
-/

namespace Esdx

open Table

/-! ## Transactions that commit later -/

/-- The rows that a transaction has inserted. -/
structure Writes where
  offers : List Offer
  purchaseOrders : List PurchaseOrder
  contracts : List Contract

namespace Store

variable (s : Store)

/-- The rows that a transaction from `s` to `s'` has inserted. -/
def writesTo (s' : Store) : Writes where
  offers := s'.offers.drop s.offers.length
  purchaseOrders := s'.purchaseOrders.drop s.purchaseOrders.length
  contracts := s'.contracts.drop s.contracts.length

/-- The counters of the keys are moved on at once, also for others. -/
def takeKeys (s' : Store) : Store :=
  { s with
    nextOffer := s'.nextOffer
    nextPurchaseOrder := s'.nextPurchaseOrder
    nextContract := s'.nextContract }

/-- Commit inserted rows, under the unique constraints of the one-to-one fields. -/
def commit (w : Writes) : Except Exc Store :=
  if w.purchaseOrders.any fun po => s.purchaseOrders.any (·.offer = po.offer) then
    .error (.integrityError "market_purchaseorder.offer_id")
  else if w.contracts.any fun k => s.contracts.any (·.purchaseOrder = k.purchaseOrder) then
    .error (.integrityError "market_contract.purchase_order_id")
  else if w.offers.any fun o => o.deprecates.isSome &&
      s.offers.any (·.deprecates = o.deprecates) then
    .error (.integrityError "market_offer.deprecates_id")
  else
    .ok { s with
      offers := s.offers ++ w.offers
      purchaseOrders := s.purchaseOrders ++ w.purchaseOrders
      contracts := s.contracts ++ w.contracts }

/-- Rows are committed when none of them clashes with a row committed before. -/
lemma commit_eq_ok {s s' : Store} {w : Writes} :
    s.commit w = .ok s' ↔
      (∀ po ∈ w.purchaseOrders, ∀ x ∈ s.purchaseOrders, x.offer ≠ po.offer) ∧
      (∀ k ∈ w.contracts, ∀ x ∈ s.contracts, x.purchaseOrder ≠ k.purchaseOrder) ∧
      (∀ o ∈ w.offers, ∀ d, o.deprecates = some d → ∀ x ∈ s.offers, x.deprecates ≠ some d) ∧
      s' = { s with
        offers := s.offers ++ w.offers
        purchaseOrders := s.purchaseOrders ++ w.purchaseOrders
        contracts := s.contracts ++ w.contracts } := by
  have hoffers : (w.offers.any fun o => o.deprecates.isSome &&
      s.offers.any (·.deprecates = o.deprecates)) = false ↔
      ∀ o ∈ w.offers, ∀ d, o.deprecates = some d → ∀ x ∈ s.offers, x.deprecates ≠ some d := by
    rw [List.any_eq_false]
    refine forall₂_congr fun o _ => ?_
    rcases o.deprecates with _ | d
    · simp
    · simp
  unfold commit
  split
  · rename_i hclash
    refine iff_of_false (by simp) fun h => ?_
    obtain ⟨po, hpo, hx⟩ := List.any_eq_true.mp hclash
    obtain ⟨x, hx, heq⟩ := List.any_eq_true.mp hx
    exact h.1 po hpo x hx (by simpa using heq)
  rename_i horders
  split
  · rename_i hclash
    refine iff_of_false (by simp) fun h => ?_
    obtain ⟨k, hk, hx⟩ := List.any_eq_true.mp hclash
    obtain ⟨x, hx, heq⟩ := List.any_eq_true.mp hx
    exact h.2.1 k hk x hx (by simpa using heq)
  rename_i hcontracts
  split
  · rename_i hclash
    refine iff_of_false (by simp) fun h => ?_
    rw [hoffers.mpr h.2.2.1] at hclash
    exact Bool.noConfusion hclash
  rename_i hlatest
  have horders' : ∀ po ∈ w.purchaseOrders, ∀ x ∈ s.purchaseOrders, x.offer ≠ po.offer := by
    simpa using horders
  have hcontracts' : ∀ k ∈ w.contracts, ∀ x ∈ s.contracts, x.purchaseOrder ≠ k.purchaseOrder := by
    simpa using hcontracts
  rw [and_iff_right horders', and_iff_right hcontracts',
    and_iff_right (hoffers.mp (Bool.eq_false_of_not_eq_true hlatest)), Except.ok.injEq]
  exact eq_comm

end Store

/-! ## The processes -/

/-- A purchase that has not been committed: the contract it returns, and its rows. -/
structure Pending where
  contract : Contract
  writes : Writes

/-- The processes on one database: its committed state, and the purchase that a process has
open, for which it holds its mutex. -/
structure Service where
  db : Store := {}
  pending : ℕ → Option Pending := fun _ => none

/-- A step of a process.  Aborting stands for whatever else rolls a transaction back. -/
inductive Action (C : Crypto)
  | addOffer (amb : Ambient C) (request : OfferSpecification)
  | read (process : ℕ) (amb : Ambient C) (exact : Bool) (request : PurchaseRequest)
  | commit (process : ℕ)
  | abort (process : ℕ)

namespace Service

variable (C : Crypto) (reg : Registry)

/-- A process has no purchase open any more. -/
def close (sv : Service) (process : ℕ) : Service :=
  { sv with pending := Function.update sv.pending process none }

/-- One step, with the answer if it ends a call. -/
def step : Action C → Service → Except Exc (Option Response) × Service
  | .addOffer amb request, sv =>
    match addOffer C reg amb request sv.db with
    | (.ok m, s) => (.ok (some (.offer m)), { sv with db := s })
    | (.error e, s) => (.error e, { sv with db := s })
  | .read process amb exact request, sv =>
    match sv.pending process with
    | some _ => (.ok none, sv)
    | none =>
      match purchaseTransaction C reg amb request (offersGetter exact request) sv.db with
      | (.ok contract, s) =>
        (.ok none, {
          db := sv.db.takeKeys s
          pending := Function.update sv.pending process (some ⟨contract, sv.db.writesTo s⟩) })
      | (.error e, _) => (.error (purchaseError e), sv)
  | .commit process, sv =>
    match sv.pending process with
    | none => (.ok none, sv)
    | some p =>
      match sv.db.commit p.writes with
      | .ok s =>
        match ContractProtoSerializer.message reg s p.contract with
        | .ok m => (.ok (some (.contract m)), { sv.close process with db := s })
        | .error e => (.error (purchaseError e), { sv.close process with db := s })
      | .error e => (.error (purchaseError e), sv.close process)
  | .abort process, sv => (.ok none, sv.close process)

/-- The processes after some steps, in any order, on an empty database. -/
def run (actions : List (Action C)) : Service := (Machine.exec (step C reg) actions {}).2

/-! ## What a step does -/

variable {C reg}

/-- What a step does to the database and to the open purchases. -/
inductive Effect (C : Crypto) (reg : Registry) (sv : Service) : Service → Prop
  | listed {amb : Ambient C} {specs : OfferSpecification} {head copy : Offer}
      (h : IsListing C reg amb specs sv.db head copy) :
      Effect C reg sv { sv with db := (sv.db.addOfferRow head).addOfferRow copy }
  | opened {process : ℕ} {amb : Ambient C} {exact : Bool} {request : PurchaseRequest}
      {requested available new : Offer} {po : PurchaseOrder} {k : Contract}
      (hget : offersGetter exact request sv.db = .ok (requested, available))
      (h : IsSale C reg amb request requested available sv.db po k new) :
      Effect C reg sv {
        db := sv.db.takeKeys (sv.db.addSale po k new)
        pending := Function.update sv.pending process (some ⟨k, [new], [po], [k]⟩) }
  | committed {process : ℕ} {p : Pending} {s : Store} (hp : sv.pending process = some p)
      (h : sv.db.commit p.writes = .ok s) : Effect C reg sv { sv.close process with db := s }
  | closed (process : ℕ) : Effect C reg sv (sv.close process)
  | unchanged : Effect C reg sv sv

/-- The rows that a sale inserts. -/
lemma writesTo_addSale {amb : Ambient C} {request : PurchaseRequest}
    {requested available new : Offer} {s : Store} {po : PurchaseOrder} {k : Contract}
    (h : IsSale C reg amb request requested available s po k new) :
    s.writesTo (s.addSale po k new) = ⟨[new], [po], [k]⟩ := by
  obtain ⟨startingOn, -, hp⟩ := h.purchase
  rw [hp.addSale_eq, Store.writesTo]
  simp only [List.drop_left]

/-- Every step has one of the effects. -/
lemma step_effect (sv : Service) (action : Action C) :
    Effect C reg sv (step C reg action sv).2 := by
  cases action with
  | addOffer amb request =>
    rw [step]
    rcases hadd : Esdx.addOffer C reg amb request sv.db with ⟨e | m, s⟩
    · rw [addOffer_error hadd]
      exact .unchanged
    · obtain ⟨head, copy, hlisting, -, rfl⟩ := addOffer_ok hadd
      exact .listed hlisting
  | read process amb exact request =>
    rw [step]
    rcases sv.pending process with _ | p
    · dsimp only
      rcases htx : purchaseTransaction C reg amb request (offersGetter exact request) sv.db with
        ⟨e | k, s⟩
      · exact .unchanged
      · obtain ⟨requested, available, po, new, hget, hsale, rfl⟩ :=
          purchaseTransaction_eq_ok.mp htx
        dsimp only
        rw [writesTo_addSale hsale]
        exact .opened hget hsale
    · exact .unchanged
  | commit process =>
    rw [step]
    rcases hp : sv.pending process with _ | p
    · exact .unchanged
    · dsimp only
      rcases hcommit : sv.db.commit p.writes with e | s
      · exact .closed process
      · dsimp only
        rcases ContractProtoSerializer.message reg s p.contract with e | m
        · exact .committed hp hcommit
        · exact .committed hp hcommit
  | abort process => exact .closed process

/-! ## Open purchases -/

/-- The rows of an open purchase were computed when `last` was the last offer of the chain; since
then that offer may have been sold. -/
def OpenIn (c : Chain C reg) (po : PurchaseOrder) (k : Contract) (new : Offer) : Prop :=
  ∃ sales last requested, Extends C reg c.head sales last ⟨last, po, k, requested⟩ new ∧
    ((c.sales = sales ∧ c.last = last) ∨ ∃ y rest, c.sales = sales ++ y :: rest ∧ y.offer = last)

/-- A purchase stays open in its chain when the chain is sold from. -/
lemma OpenIn.extend {c : Chain C reg} {po : PurchaseOrder} {k : Contract} {new new' : Offer}
    {x : Sale} (h : OpenIn c po k new) (hx : Extends C reg c.head c.sales c.last x new') :
    OpenIn (c.extend x hx) po k new := by
  obtain ⟨sales, last, requested, hextends, hplace⟩ := h
  refine ⟨sales, last, requested, hextends, .inr ?_⟩
  rcases hplace with ⟨rfl, rfl⟩ | ⟨y, rest, hsales, hy⟩
  · exact ⟨x, [], rfl, hx.offer_eq⟩
  · exact ⟨y, rest ++ [x], by simp [Chain.extend, hsales], hy⟩

/-- While the offer has no purchase order, an open purchase is one more sale of its chain. -/
lemma OpenIn.extends {c : Chain C reg} {po : PurchaseOrder} {k : Contract} {new : Offer}
    (h : OpenIn c po k new) (hunsold : ∀ x ∈ c.sales, x.order.offer ≠ po.offer) :
    ∃ requested, Extends C reg c.head c.sales c.last ⟨c.last, po, k, requested⟩ new := by
  obtain ⟨sales, last, requested, hextends, hplace⟩ := h
  rcases hplace with ⟨rfl, rfl⟩ | ⟨y, rest, hsales, hy⟩
  · exact ⟨requested, hextends⟩
  · -- the sale that came in between left a purchase order for the same offer
    have hmem : y ∈ c.sales := by simp [hsales]
    refine absurd ?_ (hunsold y hmem)
    have horder : po.offer = last.id := hextends.order_offer
    rw [(Chain.sale_links hmem).1, hy, horder]

/-- The keys of the rows of an open purchase are given out, but not used in the database. -/
structure KeysReserved (s : Store) (po : PurchaseOrder) (k : Contract) (new : Offer) : Prop where
  offer : Reserved Offer.id s.offers s.nextOffer new.id
  order : Reserved PurchaseOrder.id s.purchaseOrders s.nextPurchaseOrder po.id
  contract : Reserved Contract.id s.contracts s.nextContract k.id

/-- The rows of two open purchases have different keys. -/
def KeysDiffer (w w' : Writes) : Prop :=
  (∀ o ∈ w.offers, ∀ o' ∈ w'.offers, o.id ≠ o'.id) ∧
    (∀ po ∈ w.purchaseOrders, ∀ po' ∈ w'.purchaseOrders, po.id ≠ po'.id) ∧
    ∀ k ∈ w.contracts, ∀ k' ∈ w'.contracts, k.id ≠ k'.id

/-- The invariant: the database is a book of chains, in which every purchase that is open has its
place, with keys of its own. -/
structure Inv (sv : Service) (cs : List (Chain C reg)) : Prop where
  represents : Represents sv.db cs
  rows : ∀ process p, sv.pending process = some p → ∃ po k new, p = ⟨k, [new], [po], [k]⟩ ∧
    (∃ c ∈ cs, OpenIn c po k new) ∧ KeysReserved sv.db po k new
  differ : ∀ process process' p p', process ≠ process' → sv.pending process = some p →
    sv.pending process' = some p' → KeysDiffer p.writes p'.writes

/-- The processes start with an empty database and no open purchases. -/
lemma Inv.empty : Inv {} ([] : List (Chain C reg)) where
  represents := .empty
  rows _ _ h := by simp at h
  differ _ _ _ _ _ h := by simp at h

/-- An open purchase is the one just put there, or it was open before. -/
lemma pending_of_update {pending : ℕ → Option Pending} {process process' : ℕ} {q : Option Pending}
    {p : Pending} (h : Function.update pending process q process' = some p) :
    (process' = process ∧ q = some p) ∨ (process' ≠ process ∧ pending process' = some p) := by
  rw [Function.update_apply] at h
  split at h
  · rename_i heq
    exact .inl ⟨heq, h⟩
  · rename_i hne
    exact .inr ⟨hne, h⟩

/-- A purchase that stays open after one of them was closed was open before. -/
lemma pending_of_close {sv : Service} {process process' : ℕ} {p : Pending}
    (h : (sv.close process).pending process' = some p) :
    process' ≠ process ∧ sv.pending process' = some p := by
  rcases pending_of_update h with ⟨-, h⟩ | h
  · simp at h
  · exact h

/-- Closing a purchase keeps the invariant. -/
lemma Inv.close {sv : Service} {cs : List (Chain C reg)} (h : Inv sv cs) (process : ℕ) :
    Inv (sv.close process) cs where
  represents := h.represents
  rows process' p hp := h.rows process' p (pending_of_close hp).2
  differ process₁ process₂ p₁ p₂ hne hp₁ hp₂ :=
    h.differ process₁ process₂ p₁ p₂ hne (pending_of_close hp₁).2 (pending_of_close hp₂).2

/-- An accepted `AddOffer` keeps the invariant. -/
lemma Inv.listed {sv : Service} {cs : List (Chain C reg)} (h : Inv sv cs) {amb : Ambient C}
    {specs : OfferSpecification} {head copy : Offer}
    (hl : IsListing C reg amb specs sv.db head copy) :
    Inv { sv with db := (sv.db.addOfferRow head).addOfferRow copy }
      (cs ++ [Chain.opened hl.listed]) where
  represents := h.represents.list hl
  rows process p hp := by
    obtain ⟨po, k, new, rfl, ⟨c, hc, hopen⟩, hkeys⟩ := h.rows process p hp
    refine ⟨po, k, new, rfl, ⟨c, List.mem_append_left _ hc, hopen⟩, ?_⟩
    have hhead : head.id = sv.db.nextOffer := by
      obtain ⟨o, -, rfl⟩ := hl.created
      rfl
    have hcopy : copy.id = sv.db.nextOffer + 1 := by rw [hl.copy_eq]
    have hlt := hkeys.offer.lt
    rw [hl.addOfferRows_eq]
    exact {
      offer := ((hkeys.offer.concat (by omega)).concat (by omega)).mono
        (by change sv.db.nextOffer ≤ sv.db.nextOffer + 1 + 1; omega)
      order := hkeys.order
      contract := hkeys.contract }
  differ := h.differ

/-- A purchase that reads the database keeps the invariant. -/
lemma Inv.opened {sv : Service} {cs : List (Chain C reg)} (h : Inv sv cs) {process : ℕ}
    {amb : Ambient C} {exact : Bool} {request : PurchaseRequest}
    {requested available new : Offer} {po : PurchaseOrder} {k : Contract}
    (hget : offersGetter exact request sv.db = .ok (requested, available))
    (hsale : IsSale C reg amb request requested available sv.db po k new) :
    Inv {
      db := sv.db.takeKeys (sv.db.addSale po k new)
      pending := Function.update sv.pending process (some ⟨k, [new], [po], [k]⟩) } cs := by
  obtain ⟨startingOn, -, hp⟩ := hsale.purchase
  obtain ⟨c, hc, hr, rfl, -, -⟩ := servesLast_offersGetter h.represents exact request _ _ hget
  have hofferId : new.id = sv.db.nextOffer := by rw [hp.offer_eq]
  have horderId : po.id = sv.db.nextPurchaseOrder := by rw [hp.order_eq]
  have hcontractId : k.id = sv.db.nextContract := hp.contract_fields.1
  have hkeys : sv.db.takeKeys (sv.db.addSale po k new) = { sv.db with
      nextOffer := sv.db.nextOffer + 1
      nextPurchaseOrder := sv.db.nextPurchaseOrder + 1
      nextContract := sv.db.nextContract + 1 } := by
    rw [hp.addSale_eq]
    rfl
  -- the rows of the other purchases have keys below the ones given out now
  have hnew : ∀ process' p', sv.pending process' = some p' →
      KeysDiffer ⟨[new], [po], [k]⟩ p'.writes ∧ KeysDiffer p'.writes ⟨[new], [po], [k]⟩ := by
    intro process' p' hp'
    obtain ⟨po', k', new', rfl, -, hreserved⟩ := h.rows process' p' hp'
    have hoffer := hreserved.offer.lt
    have horder := hreserved.order.lt
    have hcontract := hreserved.contract.lt
    simp only [KeysDiffer, List.mem_singleton, forall_eq]
    omega
  rw [hkeys]
  exact {
    represents := {
      offers := h.represents.offers
      orders := h.represents.orders
      contracts := h.represents.contracts
      heads := h.represents.heads
      offer_keys := h.represents.offer_keys.reserve.1
      order_keys := h.represents.order_keys.reserve.1
      contract_keys := h.represents.contract_keys.reserve.1 }
    rows := by
      intro process' p hp'
      rcases pending_of_update hp' with ⟨-, hp'⟩ | ⟨-, hp'⟩
      · obtain rfl := Option.some.inj hp'
        refine ⟨po, k, new, rfl, ⟨c, hc, c.sales, c.last, requested,
          hp.extends h.represents hc hr, .inl ⟨rfl, rfl⟩⟩, ?_⟩
        exact {
          offer := hofferId ▸ h.represents.offer_keys.reserve.2
          order := horderId ▸ h.represents.order_keys.reserve.2
          contract := hcontractId ▸ h.represents.contract_keys.reserve.2 }
      · obtain ⟨po', k', new', rfl, hopen, hreserved⟩ := h.rows process' p hp'
        exact ⟨po', k', new', rfl, hopen, hreserved.offer.mono (Nat.le_succ _),
          hreserved.order.mono (Nat.le_succ _), hreserved.contract.mono (Nat.le_succ _)⟩
    differ := by
      intro process₁ process₂ p₁ p₂ hne hp₁ hp₂
      rcases pending_of_update hp₁ with ⟨heq₁, hp₁⟩ | ⟨-, hp₁⟩
      · obtain rfl := Option.some.inj hp₁
        rcases pending_of_update hp₂ with ⟨heq₂, -⟩ | ⟨-, hp₂⟩
        · exact absurd (heq₁.trans heq₂.symm) hne
        · exact (hnew process₂ p₂ hp₂).1
      · rcases pending_of_update hp₂ with ⟨-, hp₂⟩ | ⟨-, hp₂⟩
        · obtain rfl := Option.some.inj hp₂
          exact (hnew process₁ p₁ hp₁).2
        · exact h.differ process₁ process₂ p₁ p₂ hne hp₁ hp₂ }

/-- A purchase that is committed keeps the invariant: the unique constraint of
`PurchaseOrder.offer` lets it through only as the next sale of its chain. -/
lemma Inv.committed {sv : Service} {cs : List (Chain C reg)} (h : Inv sv cs) {process : ℕ}
    {p : Pending} {s : Store} (hp : sv.pending process = some p)
    (hcommit : sv.db.commit p.writes = .ok s) :
    ∃ cs' : List (Chain C reg), Inv { sv.close process with db := s } cs' := by
  obtain ⟨po, k, new, rfl, ⟨c, hc, hopen⟩, hkeys⟩ := h.rows process p hp
  obtain ⟨hunsold, -, -, rfl⟩ := Store.commit_eq_ok.mp hcommit
  have hfree : ∀ x ∈ c.sales, x.order.offer ≠ po.offer := fun x hx =>
    hunsold po (by simp) x.order (h.represents.mem_orders.mpr ⟨c, hc, x, hx, rfl⟩)
  obtain ⟨requested, hx⟩ := hopen.extends hfree
  obtain ⟨pre, post, rfl⟩ := List.append_of_mem hc
  refine ⟨pre ++ c.extend _ hx :: post, ?_, ?_, ?_⟩
  · exact h.represents.concat_sale hx rfl rfl rfl
      (h.represents.offer_keys.concat_reserved hkeys.offer)
      (h.represents.order_keys.concat_reserved hkeys.order)
      (h.represents.contract_keys.concat_reserved hkeys.contract)
  · intro process' p' hp'
    obtain ⟨hne, hp'⟩ := pending_of_close hp'
    obtain ⟨po', k', new', rfl, ⟨d, hd, hopen'⟩, hkeys'⟩ := h.rows process' p' hp'
    obtain ⟨hoffer, horder, hcontract⟩ := h.differ process process' _ _ hne.symm hp hp'
    refine ⟨po', k', new', rfl, ?_, ?_⟩
    · rcases List.mem_append.mp hd with hd | hd
      · exact ⟨d, List.mem_append_left _ hd, hopen'⟩
      rcases List.mem_cons.mp hd with rfl | hd
      · exact ⟨_, List.mem_append_right _ List.mem_cons_self, hopen'.extend hx⟩
      · exact ⟨d, List.mem_append_right _ (List.mem_cons_of_mem _ hd), hopen'⟩
    · exact {
        offer := hkeys'.offer.concat (hoffer new (by simp) new' (by simp))
        order := hkeys'.order.concat (horder po (by simp) po' (by simp))
        contract := hkeys'.contract.concat (hcontract k (by simp) k' (by simp)) }
  · intro process₁ process₂ p₁ p₂ hne hp₁ hp₂
    exact h.differ process₁ process₂ p₁ p₂ hne (pending_of_close hp₁).2 (pending_of_close hp₂).2

/-- **Steps.**  Every step keeps the invariant. -/
theorem Inv.step {sv : Service} {cs : List (Chain C reg)} (h : Inv sv cs) (action : Action C) :
    ∃ cs' : List (Chain C reg), Inv (Service.step C reg action sv).2 cs' := by
  have heffect : Effect C reg sv (Service.step C reg action sv).2 := step_effect sv action
  generalize (Service.step C reg action sv).2 = sv' at heffect ⊢
  cases heffect with
  | listed hl => exact ⟨_, h.listed hl⟩
  | opened hget hsale => exact ⟨cs, h.opened hget hsale⟩
  | committed hp hcommit => exact h.committed hp hcommit
  | closed process => exact ⟨cs, h.close process⟩
  | unchanged => exact ⟨cs, h⟩

/-- The invariant holds after any steps in any order. -/
theorem exists_inv (C : Crypto) (reg : Registry) (actions : List (Action C)) :
    ∃ cs : List (Chain C reg), Inv (run C reg actions) cs :=
  Machine.exec_induction (Service.step C reg)
    (fun _ sv => ∃ cs : List (Chain C reg), Inv sv cs) ⟨[], .empty⟩
    (fun _ _ action ⟨_, h⟩ => h.step action) actions

/-- A purchase that is committed at once does what its transaction does. -/
theorem read_commit {sv : Service} {process : ℕ} {amb : Ambient C} {exact : Bool}
    {request : PurchaseRequest} {k : Contract} {s : Store} (hpending : sv.pending process = none)
    (htx : purchaseTransaction C reg amb request (offersGetter exact request) sv.db =
      (.ok k, s)) :
    (step C reg (.commit process) (step C reg (.read process amb exact request) sv).2).2 =
      { sv with db := s } := by
  obtain ⟨requested, available, po, new, -, hsale, rfl⟩ := purchaseTransaction_eq_ok.mp htx
  obtain ⟨startingOn, -, hp⟩ := hsale.purchase
  have hread : (step C reg (.read process amb exact request) sv).2 = {
      db := sv.db.takeKeys (sv.db.addSale po k new)
      pending := Function.update sv.pending process (some ⟨k, ⟨[new], [po], [k]⟩⟩) } := by
    rw [step, hpending]
    dsimp only
    rw [htx]
    dsimp only
    rw [writesTo_addSale hsale]
  have hcommit : (sv.db.takeKeys (sv.db.addSale po k new)).commit ⟨[new], [po], [k]⟩ =
      .ok (sv.db.addSale po k new) := by
    have hlatest : ∀ d, new.deprecates = some d → ∀ x ∈ sv.db.offers, x.deprecates ≠ some d := by
      rw [hp.offer_eq]
      rintro d ⟨rfl⟩
      exact hp.latest
    have horder : po.offer = available.id := by rw [hp.order_eq]
    rw [Store.commit_eq_ok]
    refine ⟨?_, ?_, ?_, ?_⟩
    · simpa [horder, Store.takeKeys] using hp.unsold
    · simpa [hp.contract_fields.2.1, Store.takeKeys] using hp.contract_free
    · simpa [Store.takeKeys] using hlatest
    · rw [hp.addSale_eq]
      rfl
  have hpendings : Function.update (Function.update sv.pending process
      (some ⟨k, ⟨[new], [po], [k]⟩⟩)) process none = sv.pending := by
    rw [Function.update_idem, ← hpending, Function.update_eq_self]
  rw [hread, step]
  dsimp only
  rw [Function.update_self]
  dsimp only
  rw [hcommit]
  dsimp only
  rcases ContractProtoSerializer.message reg (sv.db.addSale po k new) k with e | m
  · exact congrArg (Service.mk _) hpendings
  · exact congrArg (Service.mk _) hpendings

end Service

namespace Represents

variable {C : Crypto} {reg : Registry} {s : Store} {cs : List (Chain C reg)}

/-- No offer has two purchase orders. -/
lemma orders_pairwise (h : Represents s cs) :
    s.purchaseOrders.Pairwise fun a b => a.offer ≠ b.offer := by
  have hnodup : s.purchaseOrders.Nodup := h.order_keys.nodup.of_map _
  refine hnodup.imp_of_mem fun {a b} ha hb hne heq => hne ?_
  obtain ⟨c, hc, x, hx, rfl⟩ := h.mem_orders.mp ha
  obtain ⟨c', hc', x', hx', rfl⟩ := h.mem_orders.mp hb
  rw [(Chain.sale_links hx).1, (Chain.sale_links hx').1] at heq
  rw [(h.sale_eq_of_offer hc hc' hx hx' heq).2]

/-- No purchase order has two contracts. -/
lemma contracts_pairwise (h : Represents s cs) :
    s.contracts.Pairwise fun a b => a.purchaseOrder ≠ b.purchaseOrder := by
  have hnodup : s.contracts.Nodup := h.contract_keys.nodup.of_map _
  refine hnodup.imp_of_mem fun {a b} ha hb hne heq => hne ?_
  obtain ⟨c, hc, x, hx, rfl⟩ := h.mem_contracts.mp ha
  obtain ⟨c', hc', x', hx', rfl⟩ := h.mem_contracts.mp hb
  rw [(Chain.sale_links hx).2, (Chain.sale_links hx').2] at heq
  rw [h.sale_eq_of_order hc hc' hx hx' heq]

/-- No offer has two successors. -/
lemma successors_pairwise (h : Represents s cs) :
    s.offers.Pairwise fun a b => ∀ d, a.deprecates = some d → b.deprecates ≠ some d := by
  have hnodup : s.offers.Nodup := h.offer_keys.nodup.of_map _
  refine hnodup.imp_of_mem fun {a b} ha hb hne d hda hdb => hne ?_
  obtain ⟨c, hc, hac⟩ := h.mem_offers.mp ha
  rcases Chain.eq_head_or_successor hac with rfl | ⟨pre, a₀, post, hsplit, hdep⟩
  · obtain ⟨copy, hlisted⟩ := c.history.isListed
    rw [hlisted.original] at hda
    simp at hda
  · rw [hdep] at hda
    have hsuccessor := h.successor_eq hc hsplit hb (hdb.trans hda.symm)
    simpa using hsuccessor

/-- No two contracts of one chain have the same address. -/
lemma nodup_brAddress (h : Represents s cs) {c : Chain C reg} (hc : c ∈ cs) :
    ((s.contractsOf (s.chainOf c.head)).map Contract.brAddress).Nodup := by
  obtain ⟨ip, lo, hi, -, -, -, -, hports⟩ := h.exists_assignsPorts hc
  exact (hports.complete.map Contract.brAddress).nodup_iff.mp hports.distinct

end Represents

/-- **No double sale.**  Whatever processes do on one database, in every committed state no offer
has two purchase orders or two successors and no purchase order has two contracts; the offers are
disjoint chains with the shape that the queries rely on; and in every chain all contracts have
different addresses and bandwidth is conserved. -/
theorem run_noDoubleSale (C : Crypto) (reg : Registry) (actions : List (Action C)) :
    let db := (Service.run C reg actions).db
    (db.purchaseOrders.Pairwise fun a b => a.offer ≠ b.offer) ∧
      (db.offers.Pairwise fun a b => ∀ d, a.deprecates = some d → b.deprecates ≠ some d) ∧
      (db.contracts.Pairwise fun a b => a.purchaseOrder ≠ b.purchaseOrder) ∧
      (db.heads.flatMap db.chainOf).Perm db.offers ∧
      ∀ head ∈ db.heads, db.ChainShape C reg (db.chainOf head) ∧
        ((db.contractsOf (db.chainOf head)).map Contract.brAddress).Nodup ∧ db.Conserves head := by
  obtain ⟨cs, hinv⟩ := Service.exists_inv C reg actions
  have h := hinv.represents
  refine ⟨h.orders_pairwise, h.successors_pairwise, h.contracts_pairwise, h.perm_chains, ?_⟩
  intro head hhead
  rw [h.heads_eq] at hhead
  obtain ⟨c, hc, rfl⟩ := List.mem_map.mp hhead
  refine ⟨?_, h.nodup_brAddress hc, h.conserves hc⟩
  rw [h.chainOf_eq hc]
  exact h.chainShape hc

end Esdx
