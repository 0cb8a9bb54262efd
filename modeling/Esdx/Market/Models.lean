import Esdx.Foundations.Transaction
import Esdx.Util.Crypto

/-!
# Records and queries of the market

The tables of `market/models`.  The ASes and the broker are registered by an administrator, so
they form a `Registry` that no request changes; offers, purchase orders and contracts are in the
`Store`.  The database compares texts exactly and enforces the unique constraints of the
one-to-one fields.  A row gets its id when it is inserted; id 0 is that of an unsaved instance.
-/

namespace Esdx

/-! ## Records -/

/-- `BW_PERIOD`, in microseconds. -/
def bwPeriod : ℤ := 600 * 1000000

/-- `AS`. -/
structure AS where
  iaid : String
  certificatePem : String

/-- `Broker`. -/
structure Broker where
  certificatePem : String
  keyPem : String

/-- The rows that no request changes. -/
structure Registry where
  ases : List AS
  brokers : List Broker

/-- `Offer`.  `deprecates` is the id of the offer that this one replaces. -/
structure Offer where
  id : ℕ := 0
  iaid : String
  signature : Bytes
  notbefore : ℤ
  notafter : ℤ
  reachablePaths : String
  qosClass : ℤ
  pricePerUnit : Float64
  bwProfile : String
  brAddressTemplate : String
  brMtu : ℤ
  brLinkTo : String
  deprecates : Option ℕ := none
deriving DecidableEq

/-- `PurchaseOrder`.  `offer` is the id of the offer sold and `buyer` the key of the buyer. -/
structure PurchaseOrder where
  id : ℕ := 0
  offer : ℕ
  buyer : String
  signature : Bytes
  bwProfile : String
  startingOn : ℤ
deriving DecidableEq

/-- `Contract`.  `purchaseOrder` is the id of its purchase order. -/
structure Contract where
  id : ℕ := 0
  purchaseOrder : ℕ
  timestamp : ℤ
  brAddress : String
  signatureBroker : Bytes
deriving DecidableEq

/-- The rows that requests create, in the order of insertion, and the ids for the next rows. -/
structure Store where
  offers : List Offer := []
  purchaseOrders : List PurchaseOrder := []
  contracts : List Contract := []
  nextOffer : ℕ := 1
  nextPurchaseOrder : ℕ := 1
  nextContract : ℕ := 1
deriving DecidableEq

/-- A computation over the database. -/
abbrev Db (α : Type) : Type := Tx Store Exc α

/-! ## The registry -/

namespace Registry

variable (reg : Registry)

/-- `AS.objects.get(iaid=iaid)`; `iaid` is the primary key. -/
def getAs (iaid : String) : Except Exc AS :=
  match reg.ases.find? (·.iaid = iaid) with
  | some a => .ok a
  | none => .error (.doesNotExist "AS matching query does not exist.")

/-- `BrokerManager.get`. -/
def getBroker : Except Exc Broker :=
  match reg.brokers with
  | [] => .error (.doesNotExist "Broker matching query does not exist.")
  | [b] => .ok b
  | _ => .error (.runtimeError "only one broker allowed (creating one but one already exists)")

/-- `get_broker_key`; the cached key is the key of the registered broker. -/
def getBrokerKey (C : Crypto) : Except Exc C.Key := do
  let b ← reg.getBroker
  C.loadKey b.keyPem

/-- `get_broker_certificate`; the cached certificate is that of the registered broker. -/
def getBrokerCertificate (C : Crypto) : Except Exc C.Cert := do
  let b ← reg.getBroker
  C.loadCertificate b.certificatePem

/-- The AS found has the key that was looked up. -/
lemma iaid_of_getAs {iaid : String} {a : AS} (h : reg.getAs iaid = .ok a) : a.iaid = iaid := by
  unfold getAs at h
  split at h
  · rename_i a' hfind
    rw [Except.ok.injEq] at h
    rw [← h]
    simpa using List.find?_some hfind
  · simp at h

end Registry

/-- The broker's certificate belongs to the broker's key. -/
def BrokerPair (C : Crypto) (reg : Registry) : Prop :=
  ∀ key cert, reg.getBrokerKey C = .ok key → reg.getBrokerCertificate C = .ok cert →
    C.Pair key cert

/-! ## Queries -/

namespace Store

variable (s : Store)

/-- `Offer.is_sold`. -/
def isSold (o : Offer) : Bool := s.purchaseOrders.any (·.offer = o.id)

/-- `Offer.deprecated_by`. -/
def deprecatedBy (o : Offer) : Option Offer := s.offers.find? (·.deprecates = some o.id)

/-- `Offer.is_available`. -/
def isAvailable (o : Offer) : Bool := (s.deprecatedBy o).isNone

/-- `OfferManager._original_offers`. -/
def originalOffers : List Offer := s.offers.filter fun o => !s.isAvailable o && !s.isSold o

/-- `OfferManager.available`. -/
def available : List Offer := s.offers.filter s.isAvailable

/-- `OfferManager.get_available`, for an id. -/
def getAvailable (id : ℤ) : Except Exc Offer :=
  match s.available.filter fun o => (o.id : ℤ) = id with
  | [] => .error (.doesNotExist "")
  | [o] => .ok o
  | _ => .error (.multipleObjectsReturned "")

/-- `Offer.objects.get(id=id)`. -/
def getOffer (id : ℤ) : Except Exc Offer :=
  match s.offers.find? fun o => (o.id : ℤ) = id with
  | some o => .ok o
  | none => .error (.doesNotExist "Offer matching query does not exist.")

/-- The loop of `get_derived` that follows `deprecated_by`. -/
def walkDeprecatedBy : ℕ → Offer → Except Exc Offer
  | 0, _ => .error .outOfFuel
  | fuel + 1, avail =>
    match s.deprecatedBy avail with
    | none => .ok avail
    | some next => walkDeprecatedBy fuel next

/-- `OfferManager.get_derived`, for an id. -/
def getDerived (id : ℤ) : Except Exc (Offer × Offer) := do
  let exact ← s.getOffer id
  let avail ← s.walkDeprecatedBy (s.offers.length + 1) exact
  if s.isSold avail then throw (.doesNotExist "derived available offer does not exist")
  return (exact, avail)

/-- `PurchaseOrder.objects.get(id=id)`. -/
def getPurchaseOrder (id : ℕ) : Except Exc PurchaseOrder :=
  match s.purchaseOrders.find? (·.id = id) with
  | some po => .ok po
  | none => .error (.doesNotExist "PurchaseOrder matching query does not exist.")

/-- `Contract.objects.get(id=id)`. -/
def getContract (id : ℤ) : Except Exc Contract :=
  match s.contracts.find? fun c => (c.id : ℤ) = id with
  | some c => .ok c
  | none => .error (.doesNotExist "Contract matching query does not exist.")

/-- `offer.purchase_order`. -/
def purchaseOrderOf (o : Offer) : Except Exc PurchaseOrder :=
  match s.purchaseOrders.find? (·.offer = o.id) with
  | some po => .ok po
  | none => .error (.doesNotExist "Offer has no purchase_order.")

/-- `purchase_order.contract`. -/
def contractOf (po : PurchaseOrder) : Except Exc Contract :=
  match s.contracts.find? (·.purchaseOrder = po.id) with
  | some c => .ok c
  | none => .error (.doesNotExist "PurchaseOrder has no contract.")

/-! ## Insertions -/

/-- Insert an offer. -/
def addOfferRow (o : Offer) : Store :=
  { s with offers := s.offers ++ [{ o with id := s.nextOffer }], nextOffer := s.nextOffer + 1 }

/-- Insert a purchase order. -/
def addPurchaseOrderRow (po : PurchaseOrder) : Store :=
  { s with
    purchaseOrders := s.purchaseOrders ++ [{ po with id := s.nextPurchaseOrder }]
    nextPurchaseOrder := s.nextPurchaseOrder + 1 }

/-- Insert a contract. -/
def addContractRow (c : Contract) : Store :=
  { s with
    contracts := s.contracts ++ [{ c with id := s.nextContract }]
    nextContract := s.nextContract + 1 }

/-- A row that has the next id is inserted as it is. -/
lemma addOfferRow_eq {o : Offer} (h : o.id = s.nextOffer) :
    s.addOfferRow o = { s with offers := s.offers ++ [o], nextOffer := s.nextOffer + 1 } := by
  rw [addOfferRow, ← h]

lemma addPurchaseOrderRow_eq {po : PurchaseOrder} (h : po.id = s.nextPurchaseOrder) :
    s.addPurchaseOrderRow po = { s with
      purchaseOrders := s.purchaseOrders ++ [po]
      nextPurchaseOrder := s.nextPurchaseOrder + 1 } := by
  rw [addPurchaseOrderRow, ← h]

lemma addContractRow_eq {c : Contract} (h : c.id = s.nextContract) :
    s.addContractRow c = { s with
      contracts := s.contracts ++ [c]
      nextContract := s.nextContract + 1 } := by
  rw [addContractRow, ← h]

end Store

/-- Insert a row that has the next id, under a unique constraint on a column. -/
def insertRow {α : Type} (column : String) (clash : Store → Bool) (add : Store → Store)
    (row : Store → α) : Db α := do
  let s ← Tx.read
  if clash s then Tx.raise (.integrityError column)
  else
    Tx.write (add s)
    return row s

/-- Insert an offer, under the unique constraint of `Offer.deprecates`. -/
def insertOffer (o : Offer) : Db Offer :=
  insertRow "market_offer.deprecates_id"
    (fun s => o.deprecates.isSome && s.offers.any (·.deprecates = o.deprecates))
    (·.addOfferRow o) fun s => { o with id := s.nextOffer }

/-- Insert a purchase order, under the unique constraint of `PurchaseOrder.offer`. -/
def insertPurchaseOrder (po : PurchaseOrder) : Db PurchaseOrder :=
  insertRow "market_purchaseorder.offer_id" (fun s => s.purchaseOrders.any (·.offer = po.offer))
    (·.addPurchaseOrderRow po) fun s => { po with id := s.nextPurchaseOrder }

/-- Insert a contract, under the unique constraint of `Contract.purchase_order`. -/
def insertContract (c : Contract) : Db Contract :=
  insertRow "market_contract.purchase_order_id"
    (fun s => s.contracts.any (·.purchaseOrder = c.purchaseOrder))
    (·.addContractRow c) fun s => { c with id := s.nextContract }

/-- An insertion succeeds exactly when no row clashes. -/
lemma insertRow_eq_ok {α : Type} {column : String} {clash : Store → Bool} {add : Store → Store}
    {row : Store → α} {s s' : Store} {a : α} :
    insertRow column clash add row s = (.ok a, s') ↔
      clash s = false ∧ a = row s ∧ s' = add s := by
  unfold insertRow
  rw [Tx.bind_read_eq_ok]
  split
  · rename_i hc
    simp [hc]
  · rename_i hc
    rw [Tx.bind_write_eq_ok, Tx.pure_eq_ok, and_iff_right (Bool.eq_false_of_not_eq_true hc)]
    exact and_congr eq_comm eq_comm

/-- An insertion of an offer succeeds exactly when nothing else replaces the same offer. -/
lemma insertOffer_eq_ok {o o' : Offer} {s s' : Store} :
    insertOffer o s = (.ok o', s') ↔
      (∀ d, o.deprecates = some d → ∀ x ∈ s.offers, x.deprecates ≠ some d) ∧
        o' = { o with id := s.nextOffer } ∧ s' = s.addOfferRow o := by
  rw [insertOffer, insertRow_eq_ok]
  refine and_congr_left fun _ => ?_
  rcases o.deprecates with _ | d
  · simp
  · simp

/-- An insertion of a purchase order succeeds exactly when the offer has none yet. -/
lemma insertPurchaseOrder_eq_ok {po po' : PurchaseOrder} {s s' : Store} :
    insertPurchaseOrder po s = (.ok po', s') ↔
      (∀ x ∈ s.purchaseOrders, x.offer ≠ po.offer) ∧
        po' = { po with id := s.nextPurchaseOrder } ∧ s' = s.addPurchaseOrderRow po := by
  rw [insertPurchaseOrder, insertRow_eq_ok]
  simp

/-- An insertion of a contract succeeds exactly when the purchase order has none yet. -/
lemma insertContract_eq_ok {c c' : Contract} {s s' : Store} :
    insertContract c s = (.ok c', s') ↔
      (∀ x ∈ s.contracts, x.purchaseOrder ≠ c.purchaseOrder) ∧
        c' = { c with id := s.nextContract } ∧ s' = s.addContractRow c := by
  rw [insertContract, insertRow_eq_ok]
  simp

end Esdx
