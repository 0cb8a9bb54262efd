import Esdx.Market.Derived
import Esdx.Market.Signatures

/-!
# Which purchases are accepted

A purchase goes through many checks, some of them after its first rows were written.  This file
shows that only those made before the port search can refuse it, besides the port search itself:
once the buyer's signature is valid, the contract and the offer for what is left can be encoded,
signed and stored.  So acceptance depends on the request and on the chain of the offer that it
names, and on nothing else.
-/

namespace Esdx

open PythonText InetAddress

/-! ## Texts that can be encoded -/

/-- A text is ASCII when its parts are. -/
lemma isAsciiText_append {s t : String} :
    isAsciiText (s ++ t) = true ↔ isAsciiText s = true ∧ isAsciiText t = true := by
  rw [isAsciiText, String.toList_append, List.all_append, Bool.and_eq_true]
  rfl

/-- The text of an offer is ASCII when its profile is, and when that of an offer with the same
terms is. -/
lemma isAsciiText_offerFieldsText {iaid reachablePaths bwProfile bwProfile' brAddressTemplate
    brLinkTo : String} {notbefore notafter qosClass brMtu : ℤ} {pricePerUnit : Float64}
    (h : isAsciiText (offerFieldsText iaid notbefore notafter reachablePaths qosClass pricePerUnit
      bwProfile brAddressTemplate brMtu brLinkTo) = true)
    (hprofile : isAsciiText bwProfile' = true) :
    isAsciiText (offerFieldsText iaid notbefore notafter reachablePaths qosClass pricePerUnit
      bwProfile' brAddressTemplate brMtu brLinkTo) = true := by
  unfold offerFieldsText at h ⊢
  simp only [isAsciiText_append] at h ⊢
  simp only [h, hprofile, and_self]

/-- The address template of an encoded offer is ASCII. -/
lemma isAsciiText_template {iaid reachablePaths bwProfile brAddressTemplate brLinkTo : String}
    {notbefore notafter qosClass brMtu : ℤ} {pricePerUnit : Float64}
    (h : isAsciiText (offerFieldsText iaid notbefore notafter reachablePaths qosClass pricePerUnit
      bwProfile brAddressTemplate brMtu brLinkTo) = true) :
    isAsciiText brAddressTemplate = true := by
  unfold offerFieldsText at h
  simp only [isAsciiText_append] at h
  simp only [h]

/-- A printed profile is ASCII. -/
lemma isAsciiText_intlistToCsv (l : List ℤ) : isAsciiText (intlistToCsv l) = true := by
  refine List.all_eq_true.mpr fun c hc => ?_
  rw [intlistToCsv, String.toList_ofList] at hc
  rcases mem_intercalate hc with rfl | ⟨p, hp, hc⟩
  · decide
  · obtain ⟨z, -, rfl⟩ := List.mem_map.mp hp
    exact List.all_eq_true.mp (isAsciiText_toString z).1 c hc

/-- The zone of the address in an ASCII template is ASCII. -/
lemma isAscii_zone {s : String} {a : IPv6Address} {rest : List Char} (hs : isAsciiText s = true)
    (h : ipAndStringFromStr s = .ok (.v6 a, rest)) : ∀ z ∈ a.zone, ∀ c ∈ z, isAscii c = true := by
  obtain ⟨before, ipText, after, hsplit, haddress⟩ := ipAndStringFromStr_eq_ok_iff.mp h
  cases haddress with
  | @v6 l t r _ hparse _ _ _ _ =>
    intro z hz c hc
    obtain ⟨pre, rfl⟩ := zone_of_parseIPv6 hparse hz
    refine List.all_eq_true.mp hs c ?_
    rw [hsplit.eq]
    simp [hc]

/-- The addresses printed from an ASCII template are ASCII. -/
lemma isAsciiText_ipPortToStr_of_template {template : String} {ip : IPAddress} {lo hi : ℤ}
    (htemplate : isAsciiText template = true)
    (h : ipPortRangeFromStr template = .ok (ip, lo, hi)) (port : ℤ) :
    isAsciiText (ipPortToStr ip port) = true := by
  obtain ⟨rest, hip, -⟩ := ipPortRangeFromStr_eq_ok_iff.mp h
  cases ip with
  | v4 a =>
    have hzoneless : Zoneless (.v4 a) := trivial
    exact (isAsciiText_ipPortToStr hzoneless port).1
  | v6 a =>
    refine List.all_eq_true.mpr fun c hc => ?_
    rw [ipPortToStr, String.toList_ofList, bracketed, IPv6Address.text] at hc
    simp only [List.cons_append, List.append_assoc, List.nil_append, List.mem_cons,
      List.mem_append] at hc
    rcases hc with rfl | hc | hc | rfl | rfl | hc
    · decide
    · rcases mem_intercalate_compressHextets hc with rfl | hhex
      · decide
      · exact (isAscii_of_isHexDigit hhex).1
    · rcases hzone : a.zone with _ | z
      · simp [hzone] at hc
      · rw [hzone] at hc
        rcases List.mem_cons.mp hc with rfl | hc
        · decide
        · exact isAscii_zone htemplate hip z hzone c hc
    · decide
    · decide
    · exact List.all_eq_true.mp (isAsciiText_toString port).1 c hc

namespace Offer

/-- An offer can be encoded exactly when its text is ASCII. -/
lemma serializeToBytes_isOk_iff {o : Offer} {includeSignature : Bool} :
    (∃ data, o.serializeToBytes includeSignature = .ok data) ↔
      isAsciiText (offerFieldsText o.iaid (timestampInt o.notbefore) (timestampInt o.notafter)
        o.reachablePaths o.qosClass o.pricePerUnit o.bwProfile o.brAddressTemplate o.brMtu
        o.brLinkTo) = true := by
  unfold serializeToBytes
  simp only [offerFieldsSerializeToBytes_eq_ok, encodeAscii_eq_ok]
  constructor
  · rintro ⟨data, b, ⟨hascii, -⟩, -⟩
    exact hascii
  · intro hascii
    exact ⟨_, _, ⟨hascii, rfl⟩, rfl⟩

/-- An offer with the terms of an encoded one and a printed profile can be encoded. -/
lemma exists_serializeToBytes_of_sameTerms {o : Offer} (o' : Offer) {b : Bool} {data : Bytes}
    (h : o.serializeToBytes b = .ok data) (hterms : SameTerms o o')
    (hprofile : isAsciiText o'.bwProfile = true) (b' : Bool) :
    ∃ data, o'.serializeToBytes b' = .ok data := by
  have hascii := serializeToBytes_isOk_iff.mp ⟨data, h⟩
  rw [serializeToBytes_isOk_iff, hterms]
  exact isAsciiText_offerFieldsText hascii hprofile

end Offer

variable {C : Crypto} {reg : Registry} {s : Store} {cs : List (Chain C reg)}

/-- A purchase order whose signature was checked can be encoded, and so can its offer. -/
lemma PurchaseOrder.exists_bytes_of_validateSignature {po : PurchaseOrder} {requested : Offer}
    (h : po.validateSignature C reg requested = .ok ()) :
    ∃ order offerBytes, po.serializeToBytes requested = .ok order ∧
      requested.serializeToBytes true = .ok offerBytes := by
  unfold PurchaseOrder.validateSignature at h
  rcases hbuyer : reg.getAs po.buyer with e | buyer
  · simp [hbuyer, bind, Except.bind] at h
  rcases hcert : C.loadCertificate buyer.certificatePem with e | cert
  · simp [hbuyer, hcert, bind, Except.bind] at h
  rcases horder : po.serializeToBytes requested with e | order
  · simp [hbuyer, hcert, horder, bind, Except.bind] at h
  rcases hoffer : requested.serializeToBytes true with e | offerBytes
  · simp [PurchaseOrder.serializeToBytes, hoffer, bind, Except.bind] at horder
  exact ⟨order, offerBytes, rfl, rfl⟩

/-- A contract with an ASCII address can be encoded when its order can. -/
lemma Contract.exists_serializeToBytes {c : Contract} {po : PurchaseOrder} {requested : Offer}
    {order : Bytes} (horder : po.serializeToBytes requested = .ok order)
    (haddress : isAsciiText c.brAddress = true) :
    ∃ data, c.serializeToBytes po requested = .ok data := by
  rw [Contract.serializeToBytes, horder]
  exact ⟨_, contractFieldsSerializeToBytes_eq_ok.mpr ⟨_, _, encodeAscii_eq_ok.mpr
    ⟨(isAsciiText_toString _).1, rfl⟩, encodeAscii_eq_ok.mpr ⟨haddress, rfl⟩, rfl⟩⟩

/-! ## What a chain accepts -/

/-- The chain serves the request: it has the offer that the request names, as its last one for
`Purchase`; a registered buyer signed the order over that offer; the last offer can sell the window
asked for; and the template has a port for one more contract. -/
structure CanServe (C : Crypto) (reg : Registry) (chain : List Offer) (exact : Bool)
    (request : PurchaseRequest) (requested available : Offer) (startingOn : ℤ) : Prop where
  requested_mem : requested ∈ chain
  last : chain.getLast? = some available
  exact_last : exact = true → requested = available
  named : OfferProtoSerializer.message requested = .ok request.offer
  start : timeFromPbTimestamp request.startingOn = .ok startingOn
  signed : PurchaseOrder.validateSignature C reg
    { offer := available.id
      buyer := request.buyerIaid
      signature := request.signature
      bwProfile := request.bwProfile
      startingOn } requested = .ok ()
  window : ∃ p q k, csvToIntlist available.bwProfile = .ok p ∧
    csvToIntlist request.bwProfile = .ok q ∧ available.CanSell p q startingOn k
  port : ∃ ip lo hi, ipPortRangeFromStr available.brAddressTemplate = .ok (ip, lo, hi) ∧
    (chain.length : ℤ) ≤ hi - lo + 2

/-- The number of offers of a chain. -/
lemma Chain.length_offers (c : Chain C reg) : c.offers.length = c.sales.length + 2 := by
  rw [Chain.offers, chainOffers, List.length_cons, List.length_append, List.length_map,
    List.length_singleton]

/-- A purchase order is signed by a registered buyer. -/
lemma PurchaseOrder.getAs_of_validateSignature {po : PurchaseOrder} {requested : Offer}
    (h : po.validateSignature C reg requested = .ok ()) : ∃ a, reg.getAs po.buyer = .ok a := by
  unfold PurchaseOrder.validateSignature at h
  rcases hbuyer : reg.getAs po.buyer with e | buyer
  · simp [hbuyer, bind, Except.bind] at h
  · exact ⟨buyer, rfl⟩

section Served

variable {chain : List Offer} {exact : Bool} {request : PurchaseRequest}
  {requested available : Offer} {startingOn : ℤ}

/-- The broker can stamp and sign a contract for the request, and its signature is valid. -/
lemma CanServe.exists_contract
    (h : CanServe C reg chain exact request requested available startingOn)
    (hpair : BrokerPair C reg) {key : C.Key} {cert : C.Cert}
    (hkey : reg.getBrokerKey C = .ok key) (hcert : reg.getBrokerCertificate C = .ok cert)
    (hterms : SameTerms requested available) {ip : IPAddress} {lo hi : ℤ}
    (htemplate : ipPortRangeFromStr available.brAddressTemplate = .ok (ip, lo, hi)) (port : ℤ)
    (amb : Ambient C) (id orderId : ℕ) :
    ∃ (k : Contract) (data : Bytes),
      (k.id = id ∧ k.purchaseOrder = orderId ∧ k.timestamp = amb.now) ∧
      k.brAddress = ipPortToStr ip port ∧
      k.serializeToBytes ⟨orderId, available.id, request.buyerIaid, request.signature,
        request.bwProfile, startingOn⟩ requested = .ok data ∧
      k.signatureBroker = C.signatureCreate key amb.contractSalt data ∧
      k.validateSignature C reg ⟨orderId, available.id, request.buyerIaid, request.signature,
        request.bwProfile, startingOn⟩ requested = .ok () := by
  obtain ⟨order, offerBytes, horder, hofferBytes⟩ :=
    PurchaseOrder.exists_bytes_of_validateSignature h.signed
  have hascii := isAsciiText_template (Offer.serializeToBytes_isOk_iff.mp ⟨_, hofferBytes⟩)
  have hsame : available.brAddressTemplate = requested.brAddressTemplate := by rw [hterms]
  rw [hsame] at htemplate
  have haddress := isAsciiText_ipPortToStr_of_template hascii htemplate port
  obtain ⟨data, hdata⟩ := Contract.exists_serializeToBytes
    (c := ⟨id, orderId, amb.now, ipPortToStr ip port, []⟩) horder haddress
  refine ⟨⟨id, orderId, amb.now, ipPortToStr ip port, C.signatureCreate key amb.contractSalt data⟩,
    data, ⟨rfl, rfl, rfl⟩, rfl, hdata, rfl, ?_⟩
  exact validateSignature_of_pair hpair hkey hcert hdata rfl

/-- The broker can sign the offer for what the request leaves, and it passes its check. -/
lemma CanServe.exists_offer (h : CanServe C reg chain exact request requested available startingOn)
    (key : C.Key) (hterms : SameTerms requested available) (hvalid : available.Valid)
    (salt : C.Salt) (id : ℕ) :
    ∃ (o : Offer) (data : Bytes),
      available.purchase request.bwProfile startingOn = .ok (some o.bwProfile) ∧
      o.serializeToBytes false = .ok data ∧ o.signature = C.signatureCreate key salt data ∧
      o = { available with
        id := id
        signature := o.signature
        bwProfile := o.bwProfile
        deprecates := some available.id } ∧ o.Valid := by
  obtain ⟨p, q, k, hp, hq, hsell⟩ := h.window
  obtain ⟨-, offerBytes, -, hofferBytes⟩ :=
    PurchaseOrder.exists_bytes_of_validateSignature h.signed
  have hpurchase := (Offer.purchase_eq_some_iff hp hq).mpr ⟨k, hsell, rfl⟩
  let profile := intlistToCsv (Window.deduct p k q)
  obtain ⟨data, hdata⟩ := Offer.exists_serializeToBytes_of_sameTerms
    { available with
      id := id
      bwProfile := profile
      deprecates := some available.id } hofferBytes
    (by unfold SameTerms at hterms ⊢; rw [hterms]) (isAsciiText_intlistToCsv _) false
  refine ⟨{ available with
    id := id
    signature := C.signatureCreate key salt data
    bwProfile := profile
    deprecates := some available.id }, data, hpurchase, hdata, rfl, rfl, ?_⟩
  exact hvalid.remainder hpurchase rfl

end Served

namespace Represents

/-- **Everything after the port search succeeds.**  A request that a chain can serve is a sale of
the chain, whatever the surroundings. -/
theorem exists_isSale (h : Represents s cs) (hpair : BrokerPair C reg) {key : C.Key} {cert : C.Cert}
    (hkey : reg.getBrokerKey C = .ok key) (hcert : reg.getBrokerCertificate C = .ok cert)
    {c : Chain C reg} (hc : c ∈ cs) {exact : Bool} {request : PurchaseRequest}
    {requested : Offer} {startingOn : ℤ}
    (hserve : CanServe C reg c.offers exact request requested c.last startingOn)
    (amb : Ambient C) :
    ∃ po k new, IsSale C reg amb request requested c.last s po k new := by
  obtain ⟨ip, lo, hi, htemplate, hport⟩ := hserve.port
  have hlast := c.history.sameTerms c.last c.last_mem
  have hterms := (c.history.sameTerms requested hserve.requested_mem).of_head hlast
  have hstored : c.last ∈ s.offers := h.mem_offers.mpr ⟨c, hc, c.last_mem⟩
  let po : PurchaseOrder := ⟨s.nextPurchaseOrder, c.last.id, request.buyerIaid, request.signature,
    request.bwProfile, startingOn⟩
  obtain ⟨k, data, hfields, haddress, hdata, hsignature, hsigned⟩ := hserve.exists_contract hpair
    hkey hcert hterms htemplate (lo + c.sales.length) amb s.nextContract s.nextPurchaseOrder
  obtain ⟨new, newData, hpurchase, hnewData, hnewSignature, hnew, hvalid⟩ := hserve.exists_offer
    key hterms (h.valid hstored) amb.offerSalt s.nextOffer
  have hunsold : ∀ x ∈ s.purchaseOrders, x.offer ≠ c.last.id := by
    have hsold := h.not_isSold_last hc
    rw [Store.isSold, List.any_eq_false] at hsold
    simpa using hsold
  have hfree : ∀ x ∈ s.contracts, x.purchaseOrder ≠ s.nextPurchaseOrder := by
    intro x hx
    obtain ⟨c', hc', y, hy, rfl⟩ := h.mem_contracts.mp hx
    rw [(Chain.sale_links hy).2]
    exact (h.order_keys.lt _ (h.mem_orders.mpr ⟨c', hc', y, hy, rfl⟩)).ne
  have hfound : findAvailableBrAddress (s.addPurchaseOrderRow po) c.last = .ok k.brAddress := by
    have hsame : c.last.brAddressTemplate = c.head.brAddressTemplate := by rw [hlast]
    rw [c.length_offers] at hport
    have hpo : po.offer = c.last.id := rfl
    rw [h.findAvailableBrAddress_eq hc (hsame ▸ htemplate) hpo, if_neg (by omega), haddress]
  refine ⟨po, k, new, hserve.named, startingOn, hserve.start, {
    buyer := PurchaseOrder.getAs_of_validateSignature hserve.signed
    order_eq := rfl
    unsold := hunsold
    order_signed := hserve.signed
    contract_fields := hfields
    address := hfound
    contract_signature := ⟨key, data, hkey, hdata, hsignature⟩
    contract_free := hfree
    contract_signed := hsigned
    profile := hpurchase
    offer_signature := ⟨key, newData, hkey, hnewData, hnewSignature⟩
    offer_eq := hnew
    offer_valid := preSave_iff_valid.mpr ⟨hvalid, fun d hd => ?_⟩
    latest := h.latest hc }⟩
  have hdeprecates : new.deprecates = some c.last.id := by rw [hnew]
  obtain rfl := Option.some.inj (hdeprecates.symm.trans hd)
  exact ⟨⟨c.last, hstored, rfl⟩, h.latest hc⟩

/-- Both calls get their offers from the chain that has the offer named. -/
lemma offersGetter_eq (h : Represents s cs) {c : Chain C reg} (hc : c ∈ cs) {exact : Bool}
    {request : PurchaseRequest} {requested : Offer} (hrequested : requested ∈ c.offers)
    (hexact : exact = true → requested = c.last) (hid : request.offer.id = requested.id) :
    offersGetter exact request s = .ok (requested, c.last) := by
  cases exact with
  | true =>
    obtain rfl := hexact rfl
    have havailable := h.getAvailable_eq hc
    rw [← hid] at havailable
    simp [offersGetter, availableOffers, havailable, bind, Except.bind, pure, Except.pure]
  | false =>
    have hderived := h.getDerived_eq hc hrequested
    rw [← hid] at hderived
    exact hderived

/-- A sale of a chain is one that the chain can serve. -/
lemma canServe_of_isSale (h : Represents s cs) {c : Chain C reg} (hc : c ∈ cs) {amb : Ambient C}
    {exact : Bool} {request : PurchaseRequest} {requested new : Offer} {po : PurchaseOrder}
    {k : Contract} (hrequested : requested ∈ c.offers) (hexact : exact = true → requested = c.last)
    (hsale : IsSale C reg amb request requested c.last s po k new) :
    ∃ startingOn, CanServe C reg c.offers exact request requested c.last startingOn := by
  obtain ⟨startingOn, hstart, hp⟩ := hsale.purchase
  obtain ⟨p, q, hprofile, hrequest, -⟩ := Offer.purchase_eq_some.mp hp.profile
  obtain ⟨period, hsell, -⟩ := (Offer.purchase_eq_some_iff hprofile hrequest).mp hp.profile
  have hsigned := hp.order_signed
  rw [hp.order_eq] at hsigned
  obtain ⟨ip, lo, hi, port, htemplate, hnext, hmax, -⟩ :=
    findAvailableBrAddress_eq_ok.mp hp.address
  have hterms : c.last.brAddressTemplate = c.head.brAddressTemplate := by
    rw [c.history.sameTerms c.last c.last_mem]
  obtain ⟨hip, hlo, -, hhi⟩ := ipPortRangeFromStr_ok htemplate
  rw [h.nextPort_eq hc (by rw [hp.order_eq]), History.portAfter_eq hip hlo hhi
    (c.history.consecutive (hterms ▸ htemplate)), Except.ok.injEq] at hnext
  exact ⟨startingOn, {
    requested_mem := hrequested
    last := getLast_chainOffers
    exact_last := hexact
    named := hsale.same_offer
    start := hstart
    signed := hsigned
    window := ⟨p, q, period, hprofile, hrequest, hsell⟩
    port := ⟨ip, lo, hi, htemplate, by rw [c.length_offers]; omega⟩ }⟩

/-- A sale of a chain is what a purchase of it makes. -/
lemma purchaseWith_eq (h : Represents s cs) {c : Chain C reg} (hc : c ∈ cs) {amb : Ambient C}
    {exact : Bool} {request : PurchaseRequest} {requested new : Offer} {po : PurchaseOrder}
    {k : Contract} (hrequested : requested ∈ c.offers) (hexact : exact = true → requested = c.last)
    (hsale : IsSale C reg amb request requested c.last s po k new) :
    purchaseWith C reg amb request (offersGetter exact request) s =
      (.ok (Sale.message ⟨c.last, po, k, requested⟩), s.addSale po k new) := by
  obtain ⟨_, -, hp⟩ := hsale.purchase
  have hget := h.offersGetter_eq hc hrequested hexact
    (OfferProtoSerializer.id_of_message hsale.same_offer)
  have hmessage := h.message_of_purchase hc hrequested hp
  unfold purchaseWith
  refine Tx.mapError_eq_ok.mpr (Tx.bind_eq_ok.mpr ⟨k, _, purchaseTransaction_eq_ok.mpr
    ⟨_, _, po, new, hget, hsale, rfl⟩, ?_⟩)
  exact Tx.bind_read_eq_ok.mpr (Tx.liftM_eq_ok.mpr ⟨hmessage, rfl⟩)

end Represents

/-- The market accepts the purchase. -/
def Accepts (reg : Registry) (s : Store) (call : Call C) : Prop :=
  ∃ m, (serve C reg call s).1 = .ok (.contract m)

/-- The answer is a contract. -/
def Answer.isContract : Except Exc Response → Bool
  | .ok (.contract _) => true
  | _ => false

lemma Answer.isContract_iff {answer : Except Exc Response} :
    Answer.isContract answer = true ↔ ∃ m, answer = .ok (.contract m) := by
  unfold isContract
  split <;> simp_all

/-- A purchase is accepted exactly when some chain can serve it. -/
lemma Represents.accepts_iff (h : Represents s cs) (hpair : BrokerPair C reg) {key : C.Key}
    {cert : C.Cert} (hkey : reg.getBrokerKey C = .ok key)
    (hcert : reg.getBrokerCertificate C = .ok cert) {call : Call C} {exact : Bool}
    {request : PurchaseRequest}
    (hcall : call.request = if exact then .purchase request else .purchaseEquivalent request) :
    Accepts reg s call ↔ ∃ c ∈ cs, ∃ requested startingOn,
      CanServe C reg c.offers exact request requested c.last startingOn := by
  rw [Accepts, serve_purchase hcall, Tx.bind_pure_apply]
  constructor
  · rintro ⟨m, hm⟩
    rcases purchaseWith_outcome h hcall (servesLast_offersGetter h exact request) with
      ⟨m', s', hpurchase, -⟩ | ⟨e, he⟩
    · obtain ⟨k, _, htransaction, -⟩ := Tx.bind_eq_ok.mp (Tx.mapError_eq_ok.mp hpurchase)
      obtain ⟨r, a, po, new, hget, hsale, -⟩ := purchaseTransaction_eq_ok.mp htransaction
      obtain ⟨c, hc, hr, rfl, -, hexact⟩ := servesLast_offersGetter h exact request r a hget
      exact ⟨c, hc, r, h.canServe_of_isSale hc hr hexact hsale⟩
    · simp [he, Except.map] at hm
  · rintro ⟨c, hc, requested, startingOn, hserve⟩
    obtain ⟨po, k, new, hsale⟩ := h.exists_isSale hpair hkey hcert hc hserve call.amb
    rw [h.purchaseWith_eq hc hserve.requested_mem hserve.exact_last hsale]
    exact ⟨_, rfl⟩

/-- **Acceptance.**  After every run, where the broker's key and certificate can be loaded and
belong together, a purchase is accepted exactly when some chain of the store can serve it, whatever
the time and the randomness of the signatures; no later check refuses it. -/
theorem run_accepts_iff (hpair : BrokerPair C reg) {key : C.Key} {cert : C.Cert}
    (hkey : reg.getBrokerKey C = .ok key) (hcert : reg.getBrokerCertificate C = .ok cert)
    (calls : List (Call C)) {call : Call C} {exact : Bool} {request : PurchaseRequest}
    (hcall : call.request = if exact then .purchase request else .purchaseEquivalent request) :
    let s := (run C reg calls).2
    Accepts reg s call ↔ ∃ head ∈ s.heads, ∃ requested available startingOn,
      CanServe C reg (s.chainOf head) exact request requested available startingOn := by
  obtain ⟨cs, hexplains⟩ := exists_chains C reg calls
  have h := hexplains.represents
  dsimp only
  rw [h.accepts_iff hpair hkey hcert hcall, h.heads_eq]
  constructor
  · rintro ⟨c, hc, requested, startingOn, hserve⟩
    refine ⟨c.head, List.mem_map_of_mem hc, requested, c.last, startingOn, ?_⟩
    rwa [h.chainOf_eq hc]
  · rintro ⟨head, hhead, requested, available, startingOn, hserve⟩
    obtain ⟨c, hc, rfl⟩ := List.mem_map.mp hhead
    rw [h.chainOf_eq hc] at hserve
    obtain rfl : c.last = available := by
      have hlast := hserve.last
      rwa [Chain.offers, getLast_chainOffers, Option.some.injEq] at hlast
    exact ⟨c, hc, requested, startingOn, hserve⟩

namespace SmallMarket

/-- An offer put up. -/
def offered : List (Call Crypto.transparent) := [offering "10.1.1.1:50-51"]

/-- The key of the broker can be loaded. -/
lemma brokerKey : registry.getBrokerKey Crypto.transparent = .ok 'k' := rfl

/-- The certificate of the broker can be loaded. -/
lemma brokerCertificate : registry.getBrokerCertificate Crypto.transparent = .ok 'k' := rfl

/-- The buyer's request for the offer just put up is accepted. -/
lemma exists_accepted :
    ∃ r, Accepts registry (run Crypto.transparent registry offered).2 ⟨amb, .purchase r⟩ := by
  have haccepted : ((request (run Crypto.transparent registry offered).2 2).any fun r =>
      Answer.isContract (serve Crypto.transparent registry ⟨amb, .purchase r⟩
        (run Crypto.transparent registry offered).2).1) = true := by
    decide +kernel
  obtain ⟨r, -, hr⟩ := (Option.any_eq_true _ _).mp haccepted
  exact ⟨r, Answer.isContract_iff.mp hr⟩

end SmallMarket

/-- The chain of an offer just put up serves a request. -/
theorem run_accepts_iff_offered :
    ∃ r, ∃ head ∈ (run Crypto.transparent SmallMarket.registry SmallMarket.offered).2.heads,
      ∃ requested available startingOn, CanServe Crypto.transparent SmallMarket.registry
        ((run Crypto.transparent SmallMarket.registry SmallMarket.offered).2.chainOf head) true r
        requested available startingOn := by
  obtain ⟨r, hr⟩ := SmallMarket.exists_accepted
  have hcall : (⟨SmallMarket.amb, .purchase r⟩ : Call Crypto.transparent).request =
      if true then .purchase r else .purchaseEquivalent r := rfl
  exact ⟨r, (run_accepts_iff SmallMarket.brokerPair SmallMarket.brokerKey
    SmallMarket.brokerCertificate SmallMarket.offered hcall).mp hr⟩

/-! ## Chains do not meet -/

/-- The call is an accepted purchase that names an offer of the chain. -/
def SellsFrom (chain : List Offer) (e : Event C) : Prop :=
  ∃ a ∈ e.purchase?, ∃ o ∈ chain, (o.id : ℤ) = a.request.offer.id

/-- A call keeps every chain that it sells nothing from. -/
lemma Represents.serve_keeps (h : Represents s cs) (call : Call C) :
    ∃ cs' : List (Chain C reg), Represents (serve C reg call s).2 cs' ∧ ∀ c ∈ cs,
      SellsFrom c.offers (call, (serve C reg call s).1) ∨ c ∈ cs' := by
  have hout := serve_outcome h call
  generalize (serve C reg call s).1 = answer at hout ⊢
  generalize (serve C reg call s).2 = s' at hout ⊢
  cases hout with
  | listed hcall hl hm =>
    exact ⟨_, h.list hl, fun c hc => .inr (List.mem_append_left _ hc)⟩
  | @sold exact request m c requested new po k hcall hc hrequested hid hexact hsale hm =>
    obtain ⟨startingOn, -, hp⟩ := hsale.purchase
    have hx := hp.extends h hc hrequested
    obtain ⟨pre, post, rfl⟩ := List.append_of_mem hc
    refine ⟨_, h.sell hx hp, fun d hd => ?_⟩
    have haccepted : Event.purchase? ((call, .ok (.contract m)) : Event C) =
        some ⟨exact, request, m⟩ := by
      cases exact <;> simp [Event.purchase?, hcall]
    rcases List.mem_append.mp hd with hd | hd
    · exact .inr (List.mem_append_left _ hd)
    rcases List.mem_cons.mp hd with rfl | hd
    · exact .inl ⟨_, haccepted, requested, hrequested, hid⟩
    · exact .inr (List.mem_append_right _ (List.mem_cons_of_mem _ hd))
  | shown hcall hk hm => exact ⟨cs, h, fun c hc => .inr hc⟩
  | offered hcall => exact ⟨cs, h, fun c hc => .inr hc⟩
  | refused e => exact ⟨cs, h, fun c hc => .inr hc⟩

/-- A run keeps every chain that it sells nothing from. -/
lemma Represents.exec_keeps (h : Represents s cs) {c : Chain C reg} (hc : c ∈ cs)
    (calls : List (Call C))
    (hnone : ∀ e ∈ (Machine.exec (serve C reg) calls s).1, ¬SellsFrom c.offers e) :
    ∃ cs' : List (Chain C reg), Represents (Machine.exec (serve C reg) calls s).2 cs' ∧
      c ∈ cs' := by
  induction calls generalizing s cs with
  | nil => exact ⟨cs, h, hc⟩
  | cons call calls ih =>
    obtain ⟨cs', h', hkeeps⟩ := h.serve_keeps call
    have hc' := (hkeeps c hc).resolve_left (hnone _ List.mem_cons_self)
    exact ih h' hc' fun e he => hnone e (List.mem_cons_of_mem _ he)

/-- A request that a chain can serve names one of its offers. -/
lemma CanServe.names {chain : List Offer} {exact : Bool} {request : PurchaseRequest}
    {requested available : Offer} {startingOn : ℤ}
    (h : CanServe C reg chain exact request requested available startingOn) :
    ∃ o ∈ chain, (o.id : ℤ) = request.offer.id :=
  ⟨requested, h.requested_mem, (OfferProtoSerializer.id_of_message h.named).symm⟩

/-- What is accepted for an offer of a chain depends on the chain only. -/
lemma Represents.accepts_iff_of_mem (h : Represents s cs) (hpair : BrokerPair C reg) {key : C.Key}
    {cert : C.Cert} (hkey : reg.getBrokerKey C = .ok key)
    (hcert : reg.getBrokerCertificate C = .ok cert) {call : Call C} {exact : Bool}
    {request : PurchaseRequest}
    (hcall : call.request = if exact then .purchase request else .purchaseEquivalent request)
    {c : Chain C reg} (hc : c ∈ cs) {o : Offer} (ho : o ∈ c.offers)
    (hid : (o.id : ℤ) = request.offer.id) :
    Accepts reg s call ↔ ∃ requested startingOn,
      CanServe C reg c.offers exact request requested c.last startingOn := by
  rw [h.accepts_iff hpair hkey hcert hcall]
  constructor
  · rintro ⟨c', hc', requested, startingOn, hserve⟩
    obtain ⟨o', ho', hid'⟩ := hserve.names
    obtain rfl := h.chain_eq hc' hc ho' ho (by exact_mod_cast hid'.trans hid.symm)
    exact ⟨requested, startingOn, hserve⟩
  · rintro ⟨requested, startingOn, hserve⟩
    exact ⟨c, hc, requested, startingOn, hserve⟩

/-- **Chains do not meet.**  Calls that sell nothing from a chain, whatever else they put up, sell
or are refused, leave the chain as it is, and with it which purchases of its offers are accepted. -/
theorem run_accepts_of_notSold (hpair : BrokerPair C reg) {key : C.Key} {cert : C.Cert}
    (hkey : reg.getBrokerKey C = .ok key) (hcert : reg.getBrokerCertificate C = .ok cert)
    (calls more : List (Call C)) {head : Offer} (hhead : head ∈ (run C reg calls).2.heads)
    (hnone : ∀ e ∈ (Machine.exec (serve C reg) more (run C reg calls).2).1,
      ¬SellsFrom ((run C reg calls).2.chainOf head) e) :
    let s := (run C reg calls).2
    let s' := (run C reg (calls ++ more)).2
    head ∈ s'.heads ∧ s'.chainOf head = s.chainOf head ∧
      ∀ (call : Call C) (exact : Bool) (request : PurchaseRequest),
        (call.request = if exact then .purchase request else .purchaseEquivalent request) →
        (∃ o ∈ s.chainOf head, (o.id : ℤ) = request.offer.id) →
        (Accepts reg s' call ↔ Accepts reg s call) := by
  obtain ⟨cs, hexplains⟩ := exists_chains C reg calls
  have h := hexplains.represents
  obtain ⟨c, hc, rfl⟩ := List.mem_map.mp (h.heads_eq ▸ hhead)
  rw [h.chainOf_eq hc] at hnone
  obtain ⟨cs', h', hc'⟩ := h.exec_keeps hc more hnone
  dsimp only
  rw [run_append, h'.heads_eq, h'.chainOf_eq hc', h.chainOf_eq hc]
  refine ⟨List.mem_map_of_mem hc', rfl, ?_⟩
  rintro call exact request hcall ⟨o, ho, hid⟩
  rw [h'.accepts_iff_of_mem hpair hkey hcert hcall hc' ho hid,
    h.accepts_iff_of_mem hpair hkey hcert hcall hc ho hid]

/-- Putting up an offer sells from no chain. -/
lemma not_sellsFrom_addOffer {amb : Ambient C} {specs : OfferSpecification} {s : Store}
    {chain : List Offer} :
    ∀ e ∈ (Machine.exec (serve C reg) [⟨amb, .addOffer specs⟩] s).1, ¬SellsFrom chain e := by
  rintro e he ⟨a, ha, -⟩
  obtain rfl := List.mem_singleton.mp he
  simp [Event.purchase?] at ha

/-- A second offer put up leaves the chain of the first one. -/
theorem run_accepts_of_notSold_offered :
    let s := (run Crypto.transparent SmallMarket.registry SmallMarket.offered).2
    let s' := (run Crypto.transparent SmallMarket.registry
      (SmallMarket.offered ++ [SmallMarket.offering "10.1.1.2:50-51"])).2
    ∃ head ∈ s.heads, head ∈ s'.heads ∧ s'.chainOf head = s.chainOf head := by
  intro s s'
  have hheads : s.heads.head?.isSome = true := by
    decide +kernel
  obtain ⟨head, hhead⟩ := Option.isSome_iff_exists.mp hheads
  have hmem := List.mem_of_mem_head? hhead
  obtain ⟨hhead', hchain, -⟩ := run_accepts_of_notSold SmallMarket.brokerPair
    SmallMarket.brokerKey SmallMarket.brokerCertificate SmallMarket.offered _ hmem
    (not_sellsFrom_addOffer (C := Crypto.transparent) (s := s))
  exact ⟨head, hmem, hhead', hchain⟩

end Esdx
