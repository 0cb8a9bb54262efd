import Esdx.Market.Offers

/-!
# Purchases

Purchase orders, contracts, and `market/purchases.py`: the port of the next contract and the
transaction that turns a purchase into a purchase order, a contract and a new offer.

The values that the code takes from its surroundings, the clock and the randomness of the
signatures, come with every request as an `Ambient`.
-/

namespace Esdx

/-- What one request takes from its surroundings. -/
structure Ambient (C : Crypto) where
  now : ℤ
  contractSalt : C.Salt
  offerSalt : C.Salt

variable (C : Crypto) (reg : Registry)

/-! ## Purchase orders and contracts -/

namespace PurchaseOrder

/-- `serialize_to_bytes`. -/
def serializeToBytes (po : PurchaseOrder) (requestedOffer : Offer) : Except Exc Bytes := do
  let offerBytes ← requestedOffer.serializeToBytes true
  purchaseOrderFieldsSerializeToBytes offerBytes po.buyer po.bwProfile (timestampInt po.startingOn)

/-- `validate_signature`. -/
def validateSignature (po : PurchaseOrder) (requestedOffer : Offer) : Except Exc Unit := do
  let buyer ← reg.getAs po.buyer
  let cert ← C.loadCertificate buyer.certificatePem
  let data ← po.serializeToBytes requestedOffer
  C.signatureValidate cert po.signature data

end PurchaseOrder

namespace Contract

/-- `serialize_to_bytes`, of a contract with its purchase order. -/
def serializeToBytes (c : Contract) (po : PurchaseOrder) (requestedOffer : Offer) :
    Except Exc Bytes := do
  let order ← po.serializeToBytes requestedOffer
  contractFieldsSerializeToBytes order po.signature (timestampInt c.timestamp) c.brAddress

/-- `validate_signature`. -/
def validateSignature (c : Contract) (po : PurchaseOrder) (requestedOffer : Offer) :
    Except Exc Unit := do
  let cert ← reg.getBrokerCertificate C
  let data ← c.serializeToBytes po requestedOffer
  C.signatureValidate cert c.signatureBroker data

/-- `stamp_signature`. -/
def stampSignature (amb : Ambient C) (c : Contract) (po : PurchaseOrder)
    (requestedOffer : Offer) : Except Exc Contract := do
  let c := { c with timestamp := amb.now }
  let key ← reg.getBrokerKey C
  let data ← c.serializeToBytes po requestedOffer
  return { c with signatureBroker := C.signatureCreate key amb.contractSalt data }

end Contract

/-! ## Ports -/

/-- The port after that of the contract of the previous offer, if that one was sold. -/
def nextPort (s : Store) (offer : Offer) (minPort : ℤ) : Except Exc ℤ :=
  match offer.deprecates with
  | none => .ok minPort
  | some d => do
    let previous ← s.getOffer d
    if s.isSold previous then
      let po ← s.purchaseOrderOf previous
      let contract ← s.contractOf po
      let (_, port) ← ipPortFromStr contract.brAddress
      return port + 1
    else return minPort

/-- `find_available_br_address`. -/
def findAvailableBrAddress (s : Store) (offer : Offer) : Except Exc String := do
  let (ip, minPort, maxPort) ← ipPortRangeFromStr offer.brAddressTemplate
  let port ← nextPort s offer minPort
  if maxPort < port then
    throw (.runtimeError ("cannot find a free port with template " ++ offer.brAddressTemplate))
  return ipPortToStr ip port

/-! ## The transaction -/

/-- `purchase_offer`. -/
def purchaseOffer (amb : Ambient C) (requestedOffer availableOffer : Offer) (buyerIaid : String)
    (buyerStartingOn : ℤ) (buyerBwProfile : String) (buyerSignature : Bytes) :
    Db (Contract × Offer) := Tx.atomic do
  let buyer ← reg.getAs buyerIaid
  let some newProfile ← availableOffer.purchase buyerBwProfile buyerStartingOn
    | Tx.raise (.runtimeError "offer does not contain the requested BW profile")
  let purchaseOrder ← insertPurchaseOrder
    { offer := availableOffer.id
      buyer := buyer.iaid
      signature := buyerSignature
      bwProfile := buyerBwProfile
      startingOn := buyerStartingOn }
  -- with the offer that the buyer saw, which may be older than the one sold
  purchaseOrder.validateSignature C reg requestedOffer
  let s ← Tx.read
  let brAddress ← findAvailableBrAddress s availableOffer
  let contract ← Contract.stampSignature C reg amb
    { purchaseOrder := purchaseOrder.id, timestamp := amb.now, brAddress, signatureBroker := [] }
    purchaseOrder requestedOffer
  let contract ← insertContract contract
  contract.validateSignature C reg purchaseOrder requestedOffer
  let newOffer ← Offer.signWithBroker C reg amb.offerSalt
    { availableOffer.clone with
      id := 0
      deprecates := some availableOffer.id
      bwProfile := newProfile }
  let newOffer ← newOffer.save
  return (contract, newOffer)

/-- `sign_purchase_order`. -/
def signPurchaseOrder (salt : C.Salt) (buyerIa : String) (buyerKey : C.Key) (o : Offer)
    (startingOn : ℤ) (bwProfile : String) : Except Exc Bytes := do
  let offerBytes ← o.serializeToBytes true
  let data ← purchaseOrderFieldsSerializeToBytes offerBytes buyerIa bwProfile
    (timestampInt startingOn)
  return C.signatureCreate buyerKey salt data

/-- `sign_get_contract_request`. -/
def signGetContractRequest (salt : C.Salt) (requesterKey : C.Key) (requesterIaid : String)
    (contractId : ℤ) : Except Exc Bytes := do
  let data ← getContractRequestSerialize contractId requesterIaid (some [])
  return C.signatureCreate requesterKey salt data

/-! ## What a successful purchase does -/

/-- The rows of a successful purchase, without their ids, and the facts that the code checked. -/
structure IsPurchase (amb : Ambient C) (requested available : Offer) (buyerIaid : String)
    (startingOn : ℤ) (bwProfile : String) (signature : Bytes) (s : Store)
    (po : PurchaseOrder) (c : Contract) (o : Offer) : Prop where
  buyer : ∃ a, reg.getAs buyerIaid = .ok a
  order_eq : po = ⟨s.nextPurchaseOrder, available.id, buyerIaid, signature, bwProfile, startingOn⟩
  unsold : ∀ x ∈ s.purchaseOrders, x.offer ≠ available.id
  order_signed : po.validateSignature C reg requested = .ok ()
  contract_fields : c.id = s.nextContract ∧ c.purchaseOrder = po.id ∧ c.timestamp = amb.now
  address : findAvailableBrAddress (s.addPurchaseOrderRow po) available = .ok c.brAddress
  contract_signature : ∃ key data, reg.getBrokerKey C = .ok key ∧
    c.serializeToBytes po requested = .ok data ∧
    c.signatureBroker = C.signatureCreate key amb.contractSalt data
  contract_free : ∀ x ∈ s.contracts, x.purchaseOrder ≠ po.id
  contract_signed : c.validateSignature C reg po requested = .ok ()
  profile : available.purchase bwProfile startingOn = .ok (some o.bwProfile)
  offer_signature : ∃ key data, reg.getBrokerKey C = .ok key ∧ o.serializeToBytes false = .ok data ∧
    o.signature = C.signatureCreate key amb.offerSalt data
  offer_eq : o = { available with
    id := s.nextOffer
    signature := o.signature
    bwProfile := o.bwProfile
    deprecates := some available.id }
  offer_valid : o.preSave ((s.addPurchaseOrderRow po).addContractRow c) = .ok ()
  latest : ∀ x ∈ s.offers, x.deprecates ≠ some available.id

variable {C reg}

/-- Stamping signs the contract with the broker's key. -/
lemma stampSignature_eq_ok {amb : Ambient C} {c c' : Contract} {po : PurchaseOrder}
    {requested : Offer} :
    c.stampSignature C reg amb po requested = .ok c' ↔
      ∃ key data, reg.getBrokerKey C = .ok key ∧
        Contract.serializeToBytes { c with timestamp := amb.now } po requested = .ok data ∧
        c' = { c with
          timestamp := amb.now
          signatureBroker := C.signatureCreate key amb.contractSalt data } := by
  unfold Contract.stampSignature
  rcases hkey : reg.getBrokerKey C with e | key
  · simp [bind, Except.bind]
  rcases hdata :
    Contract.serializeToBytes { c with timestamp := amb.now } po requested with e | data
  · simp [bind, Except.bind, hdata]
  simp [bind, Except.bind, hdata, pure, Except.pure, eq_comm]

/-- Signing an offer replaces its signature with one by the broker's key. -/
lemma signWithBroker_eq_ok {salt : C.Salt} {o o' : Offer} :
    o.signWithBroker C reg salt = .ok o' ↔
      ∃ key data, reg.getBrokerKey C = .ok key ∧ o.serializeToBytes false = .ok data ∧
        o' = { o with signature := C.signatureCreate key salt data } := by
  unfold Offer.signWithBroker
  rcases hdata : o.serializeToBytes false with e | data
  · simp [bind, Except.bind]
  rcases hkey : reg.getBrokerKey C with e | key
  · simp [bind, Except.bind]
  simp [bind, Except.bind, pure, Except.pure, eq_comm]

/-- Saving an offer checks it and inserts it. -/
lemma save_eq_ok {o o' : Offer} {s s' : Store} :
    o.save s = (.ok o', s') ↔
      o.preSave s = .ok () ∧ (∀ d, o.deprecates = some d → ∀ x ∈ s.offers, x.deprecates ≠ some d) ∧
        o' = { o with id := s.nextOffer } ∧ s' = s.addOfferRow o := by
  unfold Offer.save
  rw [Tx.bind_read_eq_ok, Tx.bind_liftM_eq_ok, ← insertOffer_eq_ok]
  exact ⟨fun ⟨_, h⟩ => h, fun h => ⟨(), h⟩⟩

/-- **Purchases.**  A purchase succeeds exactly when all its checks pass, and then it inserts one
purchase order, one contract and one offer. -/
theorem purchaseOffer_eq_ok {amb : Ambient C} {requested available : Offer} {buyerIaid : String}
    {startingOn : ℤ} {bwProfile : String} {signature : Bytes} {s s' : Store} {c : Contract}
    {o : Offer} :
    purchaseOffer C reg amb requested available buyerIaid startingOn bwProfile signature s =
        (.ok (c, o), s') ↔
      ∃ po, IsPurchase C reg amb requested available buyerIaid startingOn bwProfile signature s
          po c o ∧
        s' = ((s.addPurchaseOrderRow po).addContractRow c).addOfferRow o := by
  unfold purchaseOffer
  rw [Tx.atomic_eq_ok, Tx.bind_liftM_eq_ok]
  constructor
  · rintro ⟨buyer, hbuyer, h⟩
    obtain ⟨profile, hprofile, h⟩ := Tx.bind_liftM_eq_ok.mp h
    rcases profile with _ | profile
    · simp at h
    obtain ⟨po, _, hpo, h⟩ := Tx.bind_eq_ok.mp h
    obtain ⟨hunsold, hrow, rfl⟩ := insertPurchaseOrder_eq_ok.mp hpo
    obtain ⟨_, hsigned, h⟩ := Tx.bind_liftM_eq_ok.mp h
    obtain ⟨addr, haddr, h⟩ := Tx.bind_liftM_eq_ok.mp (Tx.bind_read_eq_ok.mp h)
    obtain ⟨c₁, hstamp, h⟩ := Tx.bind_liftM_eq_ok.mp h
    obtain ⟨key, data, hkey, hdata, rfl⟩ := stampSignature_eq_ok.mp hstamp
    obtain ⟨c₂, _, hc, h⟩ := Tx.bind_eq_ok.mp h
    obtain ⟨hfree, rfl, rfl⟩ := insertContract_eq_ok.mp hc
    obtain ⟨_, hvalid, h⟩ := Tx.bind_liftM_eq_ok.mp h
    obtain ⟨o₁, hsign, h⟩ := Tx.bind_liftM_eq_ok.mp h
    obtain ⟨key', data', hkey', hdata', rfl⟩ := signWithBroker_eq_ok.mp hsign
    obtain ⟨o₂, _, hsave, h⟩ := Tx.bind_eq_ok.mp h
    obtain ⟨hpre, hlatest, rfl, rfl⟩ := save_eq_ok.mp hsave
    obtain ⟨hret, rfl⟩ := Tx.pure_eq_ok.mp h
    obtain ⟨rfl, rfl⟩ := Prod.mk.inj hret
    obtain rfl := reg.iaid_of_getAs hbuyer
    subst hrow
    exact ⟨_, {
      buyer := ⟨buyer, hbuyer⟩
      order_eq := rfl
      unsold := hunsold
      order_signed := hsigned
      contract_fields := ⟨rfl, rfl, rfl⟩
      address := haddr
      contract_signature := ⟨key, data, hkey, hdata, rfl⟩
      contract_free := hfree
      contract_signed := hvalid
      profile := hprofile
      offer_signature := ⟨key', data', hkey', hdata', rfl⟩
      offer_eq := rfl
      offer_valid := hpre
      latest := hlatest _ rfl }, rfl⟩
  · rintro ⟨po, h, rfl⟩
    obtain ⟨buyer, hbuyer⟩ := h.buyer
    obtain rfl := reg.iaid_of_getAs hbuyer
    obtain ⟨key, data, hkey, hdata, hsig⟩ := h.contract_signature
    obtain ⟨key', data', hkey', hdata', hsig'⟩ := h.offer_signature
    have ho := h.offer_eq
    have hc : c = ⟨s.nextContract, po.id, amb.now, c.brAddress,
        C.signatureCreate key amb.contractSalt data⟩ := by
      obtain ⟨hid, horder, htime⟩ := h.contract_fields
      rw [← hid, ← horder, ← htime, ← hsig]
    have haddr := h.address
    rw [h.order_eq] at haddr
    have hadd : s.addPurchaseOrderRow po = s.addPurchaseOrderRow
        ⟨0, available.id, buyer.iaid, signature, bwProfile, startingOn⟩ := by
      rw [h.order_eq]
      rfl
    rw [hc] at hdata
    refine ⟨buyer, hbuyer, Tx.bind_liftM_eq_ok.mpr ⟨_, h.profile, ?_⟩⟩
    refine Tx.bind_eq_ok.mpr ⟨po, _, insertPurchaseOrder_eq_ok.mpr ⟨h.unsold, h.order_eq, rfl⟩, ?_⟩
    refine Tx.bind_liftM_eq_ok.mpr ⟨_, h.order_signed, Tx.bind_read_eq_ok.mpr ?_⟩
    refine Tx.bind_liftM_eq_ok.mpr ⟨_, haddr, Tx.bind_liftM_eq_ok.mpr ⟨_,
      stampSignature_eq_ok.mpr ⟨key, data, hkey, hdata, rfl⟩, ?_⟩⟩
    refine Tx.bind_eq_ok.mpr ⟨c, _, insertContract_eq_ok.mpr ⟨h.contract_free, hc, rfl⟩, ?_⟩
    refine Tx.bind_liftM_eq_ok.mpr ⟨_, h.contract_signed, Tx.bind_liftM_eq_ok.mpr ⟨_,
      signWithBroker_eq_ok.mpr ⟨key', data', hkey', ?_, rfl⟩, ?_⟩⟩
    · rw [ho] at hdata'
      exact hdata'
    have hvalid := h.offer_valid
    rw [ho, hadd, hc] at hvalid
    refine Tx.bind_eq_ok.mpr ⟨o, _, save_eq_ok.mpr ⟨?_, ?_, ?_, rfl⟩, ?_⟩
    · exact hvalid
    · rintro d ⟨rfl⟩
      exact h.latest
    · rw [← hsig']
      exact ho
    · rw [Tx.pure_eq_ok]
      refine ⟨rfl, ?_⟩
      rw [hadd, hc, ho, ← hsig']
      rfl

end Esdx
