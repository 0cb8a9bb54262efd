import Esdx.Foundations.Run
import Esdx.Market.Serializers

/-!
# The market service

`market/services.py`: the remote procedure calls of the market, as steps of a state machine on
the store.  One process serves one purchase at a time, so its mutex needs no model here.
-/

namespace Esdx

variable (C : Crypto) (reg : Registry)

/-! ## Error handlers -/

/-- The handlers of `AddOffer`. -/
def addOfferError : Exc → Exc
  | .integrityError _ => .marketServiceError "data was modified during the transaction"
  | ex => .marketServiceErrorFrom ex

/-- The handlers of `_purchase`. -/
def purchaseError : Exc → Exc
  | .marketServiceError msg => .marketServiceError msg
  | .integrityError _ => .marketServiceError "data was modified during the transaction"
  | ex => .marketServiceErrorFrom ex

/-! ## The calls -/

/-- `ListOffers`. -/
def listOffers : Db (List OfferMessage) := Tx.mapError .marketServiceErrorFrom do
  let s ← Tx.read
  liftM (s.available.mapM OfferProtoSerializer.message)

/-- The transaction of `AddOffer`: store the seller's offer, and a copy signed by the broker that
replaces it. -/
def addOfferTransaction (amb : Ambient C) (offer : Offer) : Db OfferMessage := Tx.atomic do
  offer.validateSignatureFromSeller C reg
  let offer ← offer.save
  let newOffer ← Offer.signWithBroker C reg amb.offerSalt
    { offer with id := 0, deprecates := some offer.id }
  let newOffer ← newOffer.save
  OfferProtoSerializer.message newOffer

/-- `AddOffer`. -/
def addOffer (amb : Ambient C) (request : OfferSpecification) : Db OfferMessage :=
  Tx.mapError addOfferError do
    let offer ← OfferProtoSerializer.save request
    addOfferTransaction C reg amb { offer with id := 0 }

/-- The body of the transaction of `_purchase`. -/
def purchaseTransactionBody (amb : Ambient C) (request : PurchaseRequest)
    (offersGetter : Store → Except Exc (Offer × Offer)) : Db Contract := do
  let s ← Tx.read
  let offers ← offersGetter s
  let message ← OfferProtoSerializer.message offers.1
  if pbCompareMessages request.offer message then
    let startingOn ← timeFromPbTimestamp request.startingOn
    let result ← purchaseOffer C reg amb offers.1 offers.2 request.buyerIaid startingOn
      request.bwProfile request.signature
    return result.1
  else
    Tx.raise (.marketServiceError ("purchase request validation failed: offer with ID " ++
      toString request.offer.id ++ " not the same as in the request"))

/-- The transaction of `_purchase`. -/
def purchaseTransaction (amb : Ambient C) (request : PurchaseRequest)
    (offersGetter : Store → Except Exc (Offer × Offer)) : Db Contract :=
  Tx.atomic (purchaseTransactionBody C reg amb request offersGetter)

/-- `_purchase`. -/
def purchaseWith (amb : Ambient C) (request : PurchaseRequest)
    (offersGetter : Store → Except Exc (Offer × Offer)) : Db ContractMessage :=
  Tx.mapError purchaseError do
    let contract ← purchaseTransaction C reg amb request offersGetter
    let s ← Tx.read
    ContractProtoSerializer.message reg s contract

/-- The offers of `Purchase`: the offer of the request, which must be available. -/
def availableOffers (request : PurchaseRequest) (s : Store) : Except Exc (Offer × Offer) := do
  let o ← s.getAvailable request.offer.id
  return (o, o)

/-- The offers of `PurchaseEquivalent`: the offer of the request and the one derived from it. -/
def derivedOffers (request : PurchaseRequest) (s : Store) : Except Exc (Offer × Offer) :=
  s.getDerived request.offer.id

/-- The offers of either purchase call. -/
def offersGetter (exact : Bool) (request : PurchaseRequest) :
    Store → Except Exc (Offer × Offer) :=
  if exact then availableOffers request else derivedOffers request

/-- `Purchase`. -/
def purchase (amb : Ambient C) (request : PurchaseRequest) : Db ContractMessage :=
  purchaseWith C reg amb request (availableOffers request)

/-- `PurchaseEquivalent`. -/
def purchaseEquivalent (amb : Ambient C) (request : PurchaseRequest) : Db ContractMessage :=
  purchaseWith C reg amb request (derivedOffers request)

/-- `GetContract`. -/
def getContract (request : GetContractRequest) : Db ContractMessage :=
  Tx.mapError .marketServiceErrorFrom do
    let as ← reg.getAs request.requesterIaid
    let cert ← C.loadCertificate as.certificatePem
    let data ← getContractRequestSerialize request.contractId request.requesterIaid none
    C.signatureValidate cert request.requesterSignature data
    let s ← Tx.read
    let contract ← s.getContract request.contractId
    let po ← s.getPurchaseOrder contract.purchaseOrder
    let offer ← s.getOffer po.offer
    if po.buyer ≠ request.requesterIaid ∧ offer.iaid ≠ request.requesterIaid then
      Tx.raise (.marketServiceError
        ("IA " ++ request.requesterIaid ++ " cannot obtain this contract"))
    else
      ContractProtoSerializer.message reg s contract

/-! ## The state machine -/

/-- A request to the market. -/
inductive Request
  | listOffers
  | addOffer (request : OfferSpecification)
  | purchase (request : PurchaseRequest)
  | purchaseEquivalent (request : PurchaseRequest)
  | getContract (request : GetContractRequest)
deriving DecidableEq

/-- An answer of the market. -/
inductive Response
  | offers (offers : List OfferMessage)
  | offer (offer : OfferMessage)
  | contract (contract : ContractMessage)
deriving DecidableEq

/-- A call: a request with what the market takes from its surroundings to serve it. -/
structure Call where
  amb : Ambient C
  request : Request

/-- Serve one call. -/
def serve (call : Call C) : Db Response :=
  match call.request with
  | .listOffers => do return .offers (← listOffers)
  | .addOffer request => do return .offer (← addOffer C reg call.amb request)
  | .purchase request => do return .contract (← purchase C reg call.amb request)
  | .purchaseEquivalent request => do
    return .contract (← purchaseEquivalent C reg call.amb request)
  | .getContract request => do return .contract (← getContract C reg request)

/-- A call with its answer. -/
abbrev Event : Type := Call C × Except Exc Response

/-- A run of the market from the empty store: its trace and the store at its end. -/
def run (calls : List (Call C)) : List (Event C) × Store := Machine.exec (serve C reg) calls {}

/-- `Q` holds of every call of a run and the store that it meets. -/
def EachCall (Q : Call C → Store → Prop) (calls : List (Call C)) : Prop :=
  Machine.EachStep (serve C reg) Q calls {}

/-- One more call adds one more event. -/
lemma run_concat (calls : List (Call C)) (call : Call C) :
    run C reg (calls ++ [call]) =
      ((run C reg calls).1 ++ [(call, (serve C reg call (run C reg calls).2).1)],
        (serve C reg call (run C reg calls).2).2) :=
  Machine.exec_append_singleton (serve C reg) calls call {}

/-- More calls meet the store of the calls before them. -/
lemma run_append (calls more : List (Call C)) :
    run C reg (calls ++ more) =
      ((run C reg calls).1 ++ (Machine.exec (serve C reg) more (run C reg calls).2).1,
        (Machine.exec (serve C reg) more (run C reg calls).2).2) :=
  Machine.exec_append (serve C reg) calls more {}

/-- One more call meets the store of the calls before it. -/
lemma eachCall_concat {Q : Call C → Store → Prop} {calls : List (Call C)} {call : Call C} :
    EachCall C reg Q (calls ++ [call]) ↔
      EachCall C reg Q calls ∧ Q call (run C reg calls).2 :=
  Machine.eachStep_concat (serve C reg)

/-! ## What a call does -/

variable {C reg}

/-- The rows of an accepted `AddOffer` with the facts that the code checked: `head` is the
seller's offer and `copy` the one signed by the broker. -/
structure IsListing (C : Crypto) (reg : Registry) (amb : Ambient C) (specs : OfferSpecification)
    (s : Store) (head copy : Offer) : Prop where
  created : ∃ o, OfferProtoSerializer.save specs = .ok o ∧ head = { o with id := s.nextOffer }
  seller_signed : head.validateSignatureFromSeller C reg = .ok ()
  head_valid : head.preSave s = .ok ()
  copy_signature : ∃ key data, reg.getBrokerKey C = .ok key ∧
    copy.serializeToBytes false = .ok data ∧
    copy.signature = C.signatureCreate key amb.offerSalt data
  copy_eq : copy = { head with
    id := s.nextOffer + 1
    signature := copy.signature
    deprecates := some head.id }
  copy_valid : copy.preSave (s.addOfferRow head) = .ok ()
  latest : ∀ x ∈ (s.addOfferRow head).offers, x.deprecates ≠ some head.id

/-- An accepted `AddOffer` inserts the seller's offer and the copy signed by the broker. -/
lemma addOffer_ok {amb : Ambient C} {specs : OfferSpecification} {s s' : Store}
    {m : OfferMessage} (h : addOffer C reg amb specs s = (.ok m, s')) :
    ∃ head copy, IsListing C reg amb specs s head copy ∧
      OfferProtoSerializer.message copy = .ok m ∧ s' = (s.addOfferRow head).addOfferRow copy := by
  unfold addOffer at h
  rw [Tx.mapError_eq_ok, Tx.bind_liftM_eq_ok] at h
  obtain ⟨o, hcreated, h⟩ := h
  obtain ⟨-, hdeprecates, -⟩ := OfferProtoSerializer.save_fields hcreated
  unfold addOfferTransaction at h
  rw [Tx.atomic_eq_ok] at h
  obtain ⟨_, hsigned, h⟩ := Tx.bind_liftM_eq_ok.mp h
  obtain ⟨head, _, hsave, h⟩ := Tx.bind_eq_ok.mp h
  obtain ⟨hvalid, -, rfl, rfl⟩ := save_eq_ok.mp hsave
  obtain ⟨copy, hsign, h⟩ := Tx.bind_liftM_eq_ok.mp h
  obtain ⟨key, data, hkey, hdata, rfl⟩ := signWithBroker_eq_ok.mp hsign
  obtain ⟨copy, _, hsave, h⟩ := Tx.bind_eq_ok.mp h
  obtain ⟨hvalid', hlatest, rfl, rfl⟩ := save_eq_ok.mp hsave
  obtain ⟨hmessage, rfl⟩ := Tx.liftM_eq_ok.mp h
  refine ⟨{ o with id := s.nextOffer }, _, ?_, hmessage, rfl⟩
  exact {
    created := ⟨o, hcreated, rfl⟩
    seller_signed := hsigned
    head_valid := hvalid
    copy_signature := ⟨key, data, hkey, hdata, rfl⟩
    copy_eq := rfl
    copy_valid := hvalid'
    latest := hlatest _ rfl }

/-- A refused `AddOffer` leaves the store as it was. -/
lemma addOffer_error {amb : Ambient C} {specs : OfferSpecification} {s s' : Store} {e : Exc}
    (h : addOffer C reg amb specs s = (.error e, s')) : s' = s := by
  unfold addOffer at h
  obtain ⟨e', h, -⟩ := Tx.mapError_eq_error.mp h
  rcases Tx.bind_eq_error.mp h with h | ⟨o, _, ho, h⟩
  · exact (Tx.liftM_eq_error.mp h).2.symm
  · obtain ⟨-, rfl⟩ := Tx.liftM_eq_ok.mp ho
    unfold addOfferTransaction at h
    exact (Tx.atomic_eq_error.mp h).2

/-- The store after a sale. -/
def Store.addSale (s : Store) (po : PurchaseOrder) (c : Contract) (o : Offer) : Store :=
  ((s.addPurchaseOrderRow po).addContractRow c).addOfferRow o

/-- The rows of a purchase get the next ids. -/
lemma IsPurchase.addSale_eq {amb : Ambient C} {requested available : Offer} {buyerIaid : String}
    {startingOn : ℤ} {bwProfile : String} {signature : Bytes} {s : Store} {po : PurchaseOrder}
    {c : Contract} {o : Offer}
    (h : IsPurchase C reg amb requested available buyerIaid startingOn bwProfile signature s po c
      o) :
    s.addSale po c o = {
      offers := s.offers ++ [o]
      purchaseOrders := s.purchaseOrders ++ [po]
      contracts := s.contracts ++ [c]
      nextOffer := s.nextOffer + 1
      nextPurchaseOrder := s.nextPurchaseOrder + 1
      nextContract := s.nextContract + 1 } := by
  have hpo : po.id = s.nextPurchaseOrder := by rw [h.order_eq]
  have ho : o.id = s.nextOffer := by rw [h.offer_eq]
  rw [Store.addSale, s.addPurchaseOrderRow_eq hpo,
    Store.addContractRow_eq _ (by exact h.contract_fields.1), Store.addOfferRow_eq _ (by exact ho)]

/-- The offers of an accepted `AddOffer` get the next two ids. -/
lemma IsListing.addOfferRows_eq {amb : Ambient C} {specs : OfferSpecification} {s : Store}
    {head copy : Offer} (h : IsListing C reg amb specs s head copy) :
    (s.addOfferRow head).addOfferRow copy = { s with
      offers := s.offers ++ [head] ++ [copy]
      nextOffer := s.nextOffer + 1 + 1 } := by
  have hhead : head.id = s.nextOffer := by
    obtain ⟨o, -, rfl⟩ := h.created
    rfl
  have hcopy : copy.id = s.nextOffer + 1 := by rw [h.copy_eq]
  rw [s.addOfferRow_eq hhead, Store.addOfferRow_eq _ (by exact hcopy)]

/-- An accepted purchase of `requested`, served from `available`. -/
structure IsSale (C : Crypto) (reg : Registry) (amb : Ambient C) (request : PurchaseRequest)
    (requested available : Offer) (s : Store) (po : PurchaseOrder) (c : Contract)
    (o : Offer) : Prop where
  same_offer : OfferProtoSerializer.message requested = .ok request.offer
  purchase : ∃ startingOn, timeFromPbTimestamp request.startingOn = .ok startingOn ∧
    IsPurchase C reg amb requested available request.buyerIaid startingOn request.bwProfile
      request.signature s po c o

/-- The transaction of a purchase succeeds exactly when all its checks pass. -/
lemma purchaseTransaction_eq_ok {amb : Ambient C} {request : PurchaseRequest}
    {getter : Store → Except Exc (Offer × Offer)} {s s' : Store} {c : Contract} :
    purchaseTransaction C reg amb request getter s = (.ok c, s') ↔
      ∃ requested available po o, getter s = .ok (requested, available) ∧
        IsSale C reg amb request requested available s po c o ∧ s' = s.addSale po c o := by
  unfold purchaseTransaction purchaseTransactionBody
  rw [Tx.atomic_eq_ok, Tx.bind_read_eq_ok, Tx.bind_liftM_eq_ok]
  constructor
  · rintro ⟨⟨requested, available⟩, hget, h⟩
    obtain ⟨m, hm, h⟩ := Tx.bind_liftM_eq_ok.mp h
    split at h
    · rename_i hcompare
      obtain rfl : request.offer = m := of_decide_eq_true hcompare
      obtain ⟨startingOn, htime, h⟩ := Tx.bind_liftM_eq_ok.mp h
      obtain ⟨⟨c', o⟩, _, hpurchase, h⟩ := Tx.bind_eq_ok.mp h
      obtain ⟨rfl, rfl⟩ := Tx.pure_eq_ok.mp h
      obtain ⟨po, hpo, rfl⟩ := purchaseOffer_eq_ok.mp hpurchase
      exact ⟨requested, available, po, o, hget, ⟨hm, startingOn, htime, hpo⟩, rfl⟩
    · simp at h
  · rintro ⟨requested, available, po, o, hget, ⟨hm, startingOn, htime, hpo⟩, rfl⟩
    refine ⟨_, hget, Tx.bind_liftM_eq_ok.mpr ⟨_, hm, ?_⟩⟩
    rw [if_pos (by simp [pbCompareMessages]), Tx.bind_liftM_eq_ok]
    refine ⟨startingOn, htime, Tx.bind_eq_ok.mpr ⟨(c, o), _, ?_, Tx.pure_eq_ok.mpr ⟨rfl, rfl⟩⟩⟩
    exact purchaseOffer_eq_ok.mpr ⟨po, hpo, rfl⟩

end Esdx
