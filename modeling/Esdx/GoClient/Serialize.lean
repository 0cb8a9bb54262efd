import Esdx.Market.Signatures

/-!
# The client in Go

`go-client/serialize/serialize.go` lays out the bytes of purchase orders and contracts from the
messages.  The server lays them out from the rows of its database.  Formatting a floating-point
number is left to a parameter, the function of the standard library.
-/

namespace Esdx

open PythonText

namespace GoClient

/-- `[]byte(s)`. -/
def bytes (s : String) : Bytes := s.toList.flatMap String.utf8EncodeChar

/-- `serializePairs`. -/
def serializePairs (pairs : List (String × Bytes)) : Bytes :=
  pairs.flatMap fun p => bytes p.1 ++ p.2

variable (formatFloat : Float64 → String)

/-- The text that `SerializeOfferSpecification` formats. -/
def offerText (o : OfferSpecification) (notbefore notafter : Timestamp) : String :=
  "ia:" ++ o.iaid ++ toString notbefore.seconds ++ toString notafter.seconds ++
    "reachable:" ++ o.reachablePaths ++ toString o.qosClass ++ formatFloat o.pricePerUnit ++
    "profile:" ++ o.bwProfile ++ "br_address_template:" ++ o.brAddressTemplate ++
    "br_mtu:" ++ toString o.brMtu ++ "br_link_to:" ++ o.brLinkTo ++ "signature:"

/-- `SerializeOfferSpecification`.  Without a time it reads through a nil pointer. -/
def serializeOfferSpecification (o : OfferSpecification) : Option Bytes := do
  let notbefore ← o.notbefore
  let notafter ← o.notafter
  return bytes (offerText formatFloat o notbefore notafter) ++ o.signature

/-- `SerializePurchaseOrder`. -/
def serializePurchaseOrder (o : PurchaseRequest) : Option Bytes := do
  let specs ← serializeOfferSpecification formatFloat o.offer.specs
  return serializePairs [("offer:", specs), ("bw_profile:", bytes o.bwProfile),
    ("buyer:", bytes o.buyerIaid), ("starting_on:", bytes (toString o.startingOn.seconds))]

/-- `SerializeContract`. -/
def serializeContract (c : ContractMessage) (requestedOffer : OfferSpecification) :
    Option Bytes := do
  let order ← serializePurchaseOrder formatFloat {
    offer := ⟨0, requestedOffer⟩
    buyerIaid := c.buyerIaid
    bwProfile := c.buyerBwProfile
    startingOn := c.buyerStartingOn
    signature := [] }
  return serializePairs [("order:", order), ("signature_buyer:", c.buyerSignature),
    ("timestamp:", bytes (toString c.contractTimestamp.seconds)),
    ("br_address:", bytes c.brAddress)]

/-! ## The bytes of both encoders -/

/-- In UTF-8 the bytes of an ASCII text are its characters. -/
lemma bytes_eq_label {s : String} (h : isAsciiText s = true) : bytes s = label s := by
  have hchars : ∀ l : List Char, (∀ c ∈ l, isAscii c = true) →
      l.flatMap String.utf8EncodeChar = l.map fun c => UInt8.ofNat c.toNat := by
    intro l hl
    induction l with
    | nil => rfl
    | cons c l ih =>
      have hc : c.utf8Size = 1 := by
        have hlt : c.toNat < 128 := by simpa [isAscii] using hl c List.mem_cons_self
        rw [Char.utf8Size_eq_one_iff, UInt32.le_iff_toNat_le]
        exact Nat.le_of_lt_succ hlt
      rw [List.flatMap_cons, String.utf8EncodeChar_eq_singleton hc, List.map_cons,
        ih fun d hd => hl d (List.mem_cons_of_mem _ hd)]
      rfl
  exact hchars s.toList (List.all_eq_true.mp h)

/-- What the server encodes is what the client has. -/
lemma bytes_eq_of_encodeAscii {s : String} {b : Bytes} (h : encodeAscii s = .ok b) :
    bytes s = b := by
  obtain ⟨hascii, rfl⟩ := encodeAscii_eq_ok.mp h
  exact bytes_eq_label hascii

variable {formatFloat}

/-- Both encoders write the same text for an offer. -/
lemma offerText_eq {o : OfferSpecification} {notbefore notafter : Timestamp} {b a : ℤ}
    (hb : notbefore.seconds = b) (ha : notafter.seconds = a)
    (hprice : formatFloat o.pricePerUnit = String.ofList o.pricePerUnit.formatE) :
    offerText formatFloat o notbefore notafter = offerFieldsText o.iaid b a o.reachablePaths
      o.qosClass o.pricePerUnit o.bwProfile o.brAddressTemplate o.brMtu o.brLinkTo := by
  subst hb ha
  unfold offerText offerFieldsText
  simp only [hprice]

/-- Both encoders give an offer the same bytes. -/
lemma serializeOfferSpecification_eq
    (hprice : ∀ x : Float64, x.isFinite = true → formatFloat x = String.ofList x.formatE)
    {o : Offer} {m : OfferMessage} (hm : OfferProtoSerializer.message o = .ok m)
    (hwhole : WholeSeconds m.specs) {data : Bytes} (hdata : o.serializeToBytes true = .ok data) :
    serializeOfferSpecification formatFloat m.specs = some data := by
  unfold OfferProtoSerializer.message at hm
  split at hm
  · rename_i hfinite
    obtain rfl := Except.ok.inj hm
    obtain ⟨b, hb, rfl⟩ := offerFieldsSerializeToBytes_eq_ok.mp hdata
    change some (bytes (offerText formatFloat _ (OfferProtoSerializer.toTimestamp o.notbefore)
      (OfferProtoSerializer.toTimestamp o.notafter)) ++ o.signature) = some (b ++ o.signature)
    rw [offerText_eq (OfferProtoSerializer.seconds_toTimestamp (hwhole.notbefore _ rfl))
      (OfferProtoSerializer.seconds_toTimestamp (hwhole.notafter _ rfl)) (hprice _ hfinite),
      bytes_eq_of_encodeAscii hb]
  · simp at hm

/-- Both encoders give a purchase order the same bytes. -/
lemma serializePurchaseOrder_eq {request : PurchaseRequest} {po : PurchaseOrder} {o : Offer}
    (hbuyer : po.buyer = request.buyerIaid) (hbw : po.bwProfile = request.bwProfile)
    (hstart : timestampInt po.startingOn = request.startingOn.seconds)
    (hoffer : ∀ {data}, o.serializeToBytes true = .ok data →
      serializeOfferSpecification formatFloat request.offer.specs = some data) {data : Bytes}
    (hdata : po.serializeToBytes o = .ok data) :
    serializePurchaseOrder formatFloat request = some data := by
  unfold PurchaseOrder.serializeToBytes at hdata
  rcases hspecs : o.serializeToBytes true with e | specs
  · simp [hspecs, bind, Except.bind] at hdata
  rw [hspecs, hbuyer, hbw, hstart] at hdata
  obtain ⟨bw, ia, start, hbytes, hia, hseconds, rfl⟩ :=
    purchaseOrderFieldsSerializeToBytes_eq_ok.mp hdata
  rw [serializePurchaseOrder, hoffer hspecs]
  change some (serializePairs _) = _
  rw [bytes_eq_of_encodeAscii hbytes, bytes_eq_of_encodeAscii hia,
    bytes_eq_of_encodeAscii hseconds]
  simp only [serializePairs, List.flatMap_cons, List.flatMap_nil, List.append_nil,
    List.append_assoc, bytes_eq_label (by decide : isAsciiText "offer:" = true),
    bytes_eq_label (by decide : isAsciiText "bw_profile:" = true),
    bytes_eq_label (by decide : isAsciiText "buyer:" = true),
    bytes_eq_label (by decide : isAsciiText "starting_on:" = true)]

/-- Both encoders give a contract the same bytes. -/
lemma serializeContract_eq {x : Sale} {requested : Offer} {specs : OfferSpecification}
    (horder : ∀ {data}, x.order.serializeToBytes requested = .ok data →
      serializePurchaseOrder formatFloat {
        offer := ⟨0, specs⟩
        buyerIaid := x.order.buyer
        bwProfile := x.order.bwProfile
        startingOn := pbTimestampFromTime x.order.startingOn
        signature := [] } = some data) {data : Bytes}
    (hdata : x.contract.serializeToBytes x.order requested = .ok data) :
    serializeContract formatFloat x.message specs = some data := by
  unfold Contract.serializeToBytes at hdata
  rcases hbytes : x.order.serializeToBytes requested with e | order
  · simp [hbytes, bind, Except.bind] at hdata
  rw [hbytes] at hdata
  obtain ⟨time, addr, htime, haddr, rfl⟩ := contractFieldsSerializeToBytes_eq_ok.mp hdata
  have hcontract : serializeContract formatFloat x.message specs =
      (serializePurchaseOrder formatFloat {
        offer := ⟨0, specs⟩
        buyerIaid := x.order.buyer
        bwProfile := x.order.bwProfile
        startingOn := pbTimestampFromTime x.order.startingOn
        signature := [] }).bind fun order => some (serializePairs [("order:", order),
          ("signature_buyer:", x.order.signature),
          ("timestamp:", bytes (toString (timestampInt x.contract.timestamp))),
          ("br_address:", bytes x.contract.brAddress)]) := rfl
  rw [hcontract, horder hbytes, Option.bind_some, bytes_eq_of_encodeAscii htime,
    bytes_eq_of_encodeAscii haddr]
  simp only [serializePairs, List.flatMap_cons, List.flatMap_nil, List.append_nil,
    List.append_assoc, bytes_eq_label (by decide : isAsciiText "order:" = true),
    bytes_eq_label (by decide : isAsciiText "signature_buyer:" = true),
    bytes_eq_label (by decide : isAsciiText "timestamp:" = true),
    bytes_eq_label (by decide : isAsciiText "br_address:" = true)]

end GoClient

open GoClient

variable {C : Crypto} {reg : Registry}

/-- The starting time of a request in whole seconds is what the server signs. -/
lemma timestampInt_of_nanos {ts : Timestamp} {t : ℤ} (hnanos : ts.nanos = 0)
    (h : timeFromPbTimestamp ts = .ok t) : timestampInt t = ts.seconds := by
  obtain ⟨seconds, nanos⟩ := ts
  obtain rfl : nanos = 0 := hnanos
  obtain ⟨-, -, rfl⟩ := timeFromPbTimestamp_seconds.mp h
  exact timestampInt_seconds seconds

/-- The rows of a purchase, for which the client and the server have the same bytes. -/
structure SameSignedBytes (C : Crypto) (reg : Registry) (formatFloat : Float64 → String)
    (s : Store) (tr : List (Event C)) (e : Accepted) (requested : Offer) (po : PurchaseOrder)
    (k : Contract) : Prop where
  requested_mem : requested ∈ s.offers
  order_mem : po ∈ s.purchaseOrders
  contract_mem : k ∈ s.contracts
  requested_id : (requested.id : ℤ) = e.request.offer.id
  contract_order : k.purchaseOrder = po.id
  contract_id : e.contract.contractId = k.id
  order_signature : po.signature = e.request.signature
  order_validated : po.validateSignature C reg requested = .ok ()
  order_bytes : ∃ data, po.serializeToBytes requested = .ok data ∧
    serializePurchaseOrder formatFloat e.request = some data
  contract_bytes : ∃ key salt data, reg.getBrokerKey C = .ok key ∧
    k.serializeToBytes po requested = .ok data ∧
    k.signatureBroker = C.signatureCreate key salt data ∧
    ∀ m ∈ tr.filterMap Event.contract?, m.contractId = e.contract.contractId →
      m.contractSignature = k.signatureBroker ∧
        serializeContract formatFloat m e.request.offer.specs = some data

/-- **The client and the server agree on the signed bytes.**  For every accepted purchase of an
offer in whole seconds, the client signs the bytes that the server validates, and it checks every
message about the contract, then or later, over the bytes that the broker signed. -/
theorem run_goClient_agrees {formatFloat : Float64 → String}
    (hprice : ∀ x : Float64, x.isFinite = true → formatFloat x = String.ofList x.formatE)
    (C : Crypto) (reg : Registry) (calls : List (Call C)) :
    ∀ e ∈ (run C reg calls).1.filterMap Event.purchase?, WholeSeconds e.request.offer.specs →
      e.request.startingOn.nanos = 0 → ∃ requested po k,
        SameSignedBytes C reg formatFloat (run C reg calls).2 (run C reg calls).1 e requested po
          k := by
  intro e he hwhole hnanos
  obtain ⟨cs, hexplains⟩ := exists_chains C reg calls
  have h := hexplains.represents
  obtain ⟨xs, hxs, -⟩ := hexplains.purchases
  obtain ⟨x, -, hmade⟩ := Machine.exists_of_mem_forall₂ hxs he
  obtain ⟨c, hc, hx⟩ := hmade.sold
  obtain ⟨pre, post, hsplit⟩ := List.append_of_mem hx
  obtain ⟨-, new, hextends⟩ := c.history.extends_of_sales_eq hsplit
  obtain ⟨hbuyer, hbw, hsignature, htime⟩ := hmade.order_eq
  obtain ⟨key, salt, data, hkey, hdata, hsealed⟩ := hextends.contract_sealed
  have hoffer : ∀ {data}, x.requested.serializeToBytes true = .ok data →
      serializeOfferSpecification formatFloat e.request.offer.specs = some data :=
    serializeOfferSpecification_eq hprice hmade.same_offer hwhole
  refine ⟨x.requested, x.order, x.contract, {
    requested_mem := h.mem_offers.mpr ⟨c, hc, Chain.requested_mem_offers hx⟩
    order_mem := h.mem_orders.mpr ⟨c, hc, x, hx, rfl⟩
    contract_mem := h.mem_contracts.mpr ⟨c, hc, x, hx, rfl⟩
    requested_id := hmade.same_id
    contract_order := hextends.contract_order
    contract_id := by rw [hmade.answer]; rfl
    order_signature := hsignature
    order_validated := hextends.order_signed
    order_bytes := ?_
    contract_bytes := ⟨key, salt, data, hkey, hdata, hsealed, fun m hm hid => ?_⟩ }⟩
  · rcases horder : x.order.serializeToBytes x.requested with e' | order
    · simp [Contract.serializeToBytes, horder, bind, Except.bind] at hdata
    · exact ⟨order, rfl, serializePurchaseOrder_eq hbuyer hbw (timestampInt_of_nanos hnanos htime)
        hoffer horder⟩
  · obtain ⟨c', hc', x', hx', rfl⟩ := hexplains.contracts m hm
    obtain rfl : x' = x := by
      refine h.sale_eq_of_contract hc' hc hx' hx ?_
      rw [hmade.answer] at hid
      have hid : (x'.contract.id : ℤ) = x.contract.id := hid
      exact_mod_cast hid
    let r : PurchaseRequest := {
      offer := ⟨0, e.request.offer.specs⟩
      buyerIaid := x'.order.buyer
      bwProfile := x'.order.bwProfile
      startingOn := pbTimestampFromTime x'.order.startingOn
      signature := [] }
    have horder : ∀ {data}, x'.order.serializeToBytes x'.requested = .ok data →
        serializePurchaseOrder formatFloat r = some data := fun horder =>
      @serializePurchaseOrder_eq formatFloat r x'.order x'.requested rfl rfl rfl hoffer _ horder
    exact ⟨rfl, serializeContract_eq horder hdata⟩

/-! ## Contracts checked by the client -/

namespace SmallMarket

/-- The buyer asks for a contract. -/
def asking (contractId : ℤ) : Option (Call Crypto.transparent) := do
  let signature ← (signGetContractRequest Crypto.transparent (9 : UInt8) 'b' "1-ff00:0:111"
    contractId).toOption
  return ⟨amb, .getContract ⟨contractId, "1-ff00:0:111", signature⟩⟩

/-- An offer is put up, the buyer buys from it, sends the same request for an equivalent offer, and
asks for both contracts again. -/
def boughtAndAsked : List (Call Crypto.transparent) :=
  offering "10.1.1.1:50-51" ::
    ((request (storeAfter [offering "10.1.1.1:50-51"]) 2).toList.flatMap fun r =>
      [⟨amb, .purchase r⟩, ⟨amb, .purchaseEquivalent r⟩]) ++ [1, 2].filterMap asking

/-- What the run returned: two purchases in whole seconds, and each contract once more. -/
lemma boughtAndAsked_answers :
    (((run Crypto.transparent registry boughtAndAsked).1.filterMap Event.purchase?).map fun e =>
      (e.exact, e.request.offer.specs.notbefore, e.request.offer.specs.notafter,
        e.request.startingOn.nanos)) =
      [(true, some ⟨0, 0⟩, some ⟨1200, 0⟩, 0), (false, some ⟨0, 0⟩, some ⟨1200, 0⟩, 0)] ∧
    ((run Crypto.transparent registry boughtAndAsked).1.filterMap Event.contract?).map
      ContractMessage.contractId = [1, 2, 1, 2] := by
  decide +kernel

end SmallMarket

/-- The client and the server agree on the bytes of both purchases, also when the buyer asks for the
contracts later. -/
theorem run_goClient_agrees_boughtAndAsked :
    let s := (run Crypto.transparent SmallMarket.registry SmallMarket.boughtAndAsked).2
    let tr := (run Crypto.transparent SmallMarket.registry SmallMarket.boughtAndAsked).1
    (tr.filterMap Event.contract?).map ContractMessage.contractId = [1, 2, 1, 2] ∧
    ∃ e e', tr.filterMap Event.purchase? = [e, e'] ∧ e.exact = true ∧ e'.exact = false ∧
      (∃ requested po k, SameSignedBytes Crypto.transparent SmallMarket.registry
        (fun x => String.ofList x.formatE) s tr e requested po k) ∧
      ∃ requested po k, SameSignedBytes Crypto.transparent SmallMarket.registry
        (fun x => String.ofList x.formatE) s tr e' requested po k := by
  obtain ⟨hpurchases, hcontracts⟩ := SmallMarket.boughtAndAsked_answers
  have hprice : ∀ x : Float64, x.isFinite = true →
      String.ofList x.formatE = String.ofList x.formatE := fun _ _ => rfl
  have hagrees := run_goClient_agrees hprice Crypto.transparent SmallMarket.registry
    SmallMarket.boughtAndAsked
  -- what is left to show holds of any run with these answers
  generalize run Crypto.transparent SmallMarket.registry SmallMarket.boughtAndAsked = r at *
  obtain ⟨e, l, hlist, he, hrest⟩ := List.map_eq_cons_iff.mp hpurchases
  obtain ⟨e', l', rfl, he', hnil⟩ := List.map_eq_cons_iff.mp hrest
  obtain rfl := List.map_eq_nil_iff.mp hnil
  simp only [Prod.mk.injEq] at he he'
  obtain ⟨hexact, hnotbefore, hnotafter, hnanos⟩ := he
  obtain ⟨hexact', hnotbefore', hnotafter', hnanos'⟩ := he'
  refine ⟨hcontracts, e, e', hlist, hexact, hexact',
    hagrees e (hlist ▸ List.mem_cons_self) (wholeSeconds_of_eq hnotbefore hnotafter) hnanos,
    hagrees e' (hlist ▸ List.mem_cons_of_mem _ List.mem_cons_self)
      (wholeSeconds_of_eq hnotbefore' hnotafter') hnanos'⟩

end Esdx
