import Esdx.Market.Shape
import Esdx.Market.Signatures

/-!
# Signatures in the store

The seller signs the head of a chain, the broker every other offer and every contract, the buyer
the purchase order.  An offer is copied with its old signature and signed again after its profile
has changed.  The clients check an offer from its message, the market from its row.
-/

namespace Esdx

variable {C : Crypto} {reg : Registry}

/-- The check of the broker's signature in `MarketClient.buy_offer`. -/
def MarketClient.checkOffer (C : Crypto) (brokerCert : C.Cert) (offer : OfferMessage) :
    Except Exc Unit := do
  let offerBytes ← offerSerializeToBytes offer false
  C.signatureValidate brokerCert offer.specs.signature offerBytes

/-! ## Sealed offers -/

/-- The offer can be put in a message of whole seconds, and it is signed with the broker's key
unless it is the head of a chain. -/
structure Sealed (C : Crypto) (reg : Registry) (o : Offer) : Prop where
  finite : o.pricePerUnit.isFinite = true
  whole : 1000000 ∣ o.notbefore ∧ 1000000 ∣ o.notafter
  signed : o.deprecates ≠ none → ∃ key salt data, reg.getBrokerKey C = .ok key ∧
    o.serializeToBytes false = .ok data ∧ o.signature = C.signatureCreate key salt data

/-- The times in the call are whole seconds. -/
def CallsWholeSeconds (call : Call C) : Prop :=
  ∀ specs, call.request = .addOffer specs → WholeSeconds specs

/-- The offers of an accepted `AddOffer` are sealed. -/
lemma IsListing.sealed {amb : Ambient C} {specs : OfferSpecification} {s : Store}
    {head copy : Offer} (h : IsListing C reg amb specs s head copy) (hwhole : WholeSeconds specs)
    {m : OfferMessage} (hm : OfferProtoSerializer.message copy = .ok m) :
    Sealed C reg head ∧ Sealed C reg copy := by
  obtain ⟨o, ho, hhead⟩ := h.created
  have htimes : 1000000 ∣ head.notbefore ∧ 1000000 ∣ head.notafter := by
    have hcreated := OfferProtoSerializer.save_whole ho hwhole
    rw [hhead]
    exact hcreated
  have hfinite : copy.pricePerUnit.isFinite = true := by
    unfold OfferProtoSerializer.message at hm
    split at hm
    · assumption
    · simp at hm
  obtain ⟨key, data, hkey, hdata, hsignature⟩ := h.copy_signature
  have hprice : head.pricePerUnit = copy.pricePerUnit := by rw [h.copy_eq]
  have hcopy : 1000000 ∣ copy.notbefore ∧ 1000000 ∣ copy.notafter := by
    rw [h.copy_eq]
    exact htimes
  exact ⟨⟨hprice ▸ hfinite, htimes, fun hdep => absurd h.listed.original hdep⟩,
    ⟨hfinite, hcopy, fun _ => ⟨key, amb.offerSalt, data, hkey, hdata, hsignature⟩⟩⟩

/-- The new offer of a purchase is sealed. -/
lemma IsPurchase.sealed {amb : Ambient C} {requested available new : Offer}
    {buyerIaid bwProfile : String} {startingOn : ℤ} {signature : Bytes} {s : Store}
    {po : PurchaseOrder} {k : Contract}
    (h : IsPurchase C reg amb requested available buyerIaid startingOn bwProfile signature s po k
      new) (havailable : Sealed C reg available) : Sealed C reg new := by
  obtain ⟨key, data, hkey, hdata, hsignature⟩ := h.offer_signature
  have hfinite : new.pricePerUnit.isFinite = true := by
    rw [h.offer_eq]
    exact havailable.finite
  have hwhole : 1000000 ∣ new.notbefore ∧ 1000000 ∣ new.notafter := by
    rw [h.offer_eq]
    exact havailable.whole
  exact ⟨hfinite, hwhole, fun _ => ⟨key, amb.offerSalt, data, hkey, hdata, hsignature⟩⟩

/-- A call in whole seconds keeps the offers sealed. -/
lemma serve_sealed {s : Store} {cs : List (Chain C reg)} (h : Represents s cs) (call : Call C)
    (hcall : CallsWholeSeconds call) (hs : ∀ o ∈ s.offers, Sealed C reg o) :
    ∀ o ∈ (serve C reg call s).2.offers, Sealed C reg o := by
  have hout := serve_outcome h call
  generalize (serve C reg call s).1 = answer at hout
  generalize (serve C reg call s).2 = s' at hout ⊢
  intro o ho
  cases hout with
  | listed hrequest hlisting hm =>
    obtain ⟨hhead, hcopy⟩ := hlisting.sealed (hcall _ hrequest) hm
    rw [hlisting.addOfferRows_eq] at ho
    rcases List.mem_append.mp ho with ho | ho
    · rcases List.mem_append.mp ho with ho | ho
      · exact hs o ho
      · exact List.mem_singleton.mp ho ▸ hhead
    · exact List.mem_singleton.mp ho ▸ hcopy
  | @sold exact request m c requested new po k hrequest hc hrequested hid hexact hsale hm =>
    obtain ⟨startingOn, -, hp⟩ := hsale.purchase
    rw [hp.addSale_eq] at ho
    rcases List.mem_append.mp ho with ho | ho
    · exact hs o ho
    · rw [List.mem_singleton.mp ho]
      exact hp.sealed (hs _ (h.mem_offers.mpr ⟨c, hc, c.last_mem⟩))
  | shown => exact hs o ho
  | offered => exact hs o ho
  | refused => exact hs o ho

/-- After calls in whole seconds every offer is sealed. -/
lemma run_sealed (calls : List (Call C)) (hcalls : ∀ call ∈ calls, CallsWholeSeconds call) :
    ∀ o ∈ (run C reg calls).2.offers, Sealed C reg o := by
  induction calls using List.reverseRecOn with
  | nil => exact fun o ho => absurd ho List.not_mem_nil
  | append_singleton calls call ih =>
    obtain ⟨cs, hexplains⟩ := exists_chains C reg calls
    rw [run_concat]
    exact serve_sealed hexplains.represents call (hcalls call (by simp))
      (ih fun call hcall => hcalls call (List.mem_append_left _ hcall))

/-! ## Messages and rows -/

/-- The message of a sealed offer has the signed bytes of its row. -/
lemma Sealed.message_bytes {o : Offer} (h : Sealed C reg o) :
    ∃ m, OfferProtoSerializer.message o = .ok m ∧ m.specs.signature = o.signature ∧
      offerSerializeToBytes m false = o.serializeToBytes false := by
  have hseconds : ∀ {t : ℤ}, 1000000 ∣ t →
      (OfferProtoSerializer.toTimestamp t).seconds = timestampInt t := by
    intro t ht
    refine OfferProtoSerializer.seconds_toTimestamp ?_
    change t % 1000000 * 1000 = 0
    omega
  refine ⟨_, if_pos h.finite, rfl, ?_⟩
  change offerFieldsSerializeToBytes o.iaid (OfferProtoSerializer.toTimestamp o.notbefore).seconds
    (OfferProtoSerializer.toTimestamp o.notafter).seconds _ _ _ _ _ _ _ _ = _
  rw [hseconds h.whole.1, hseconds h.whole.2]
  rfl

/-- The broker's signature of a sealed offer is valid, for the market and for a client. -/
lemma Sealed.valid {o : Offer} (h : Sealed C reg o) (hdep : o.deprecates ≠ none)
    (hpair : BrokerPair C reg) {cert : C.Cert} (hcert : reg.getBrokerCertificate C = .ok cert) :
    o.validateSignature C reg = .ok () ∧ ∃ m, OfferProtoSerializer.message o = .ok m ∧
      offerSerializeToBytes m false = o.serializeToBytes false ∧
      MarketClient.checkOffer C cert m = .ok () := by
  obtain ⟨key, salt, data, hkey, hdata, hsignature⟩ := h.signed hdep
  obtain ⟨m, hm, hmsignature, hbytes⟩ := h.message_bytes
  have hverify : C.signatureValidate cert o.signature data = .ok () := by
    rw [Crypto.signatureValidate_eq_ok, hsignature]
    exact (hpair key cert hkey hcert salt data data).mpr rfl
  refine ⟨?_, m, hm, hbytes, ?_⟩
  · unfold Registry.getBrokerCertificate at hcert
    rcases hbroker : reg.getBroker with e | broker
    · simp [hbroker, bind, Except.bind] at hcert
    · rw [hbroker] at hcert
      have hload : C.loadCertificate broker.certificatePem = .ok cert := hcert
      simp only [Offer.validateSignature, hdata, hbroker, hload, bind, Except.bind]
      exact hverify
  · rw [MarketClient.checkOffer, hbytes, hdata, hmsignature]
    exact hverify

/-! ## Chains -/

/-- The records of a chain carry the signatures of the seller, the broker and the buyers. -/
structure Store.ChainSigned (s : Store) (C : Crypto) (reg : Registry) (cert : C.Cert)
    (chain : List Offer) : Prop where
  seller : ∀ head ∈ chain.head?, head.validateSignatureFromSeller C reg = .ok ()
  broker : ∀ o ∈ chain.tail, o.validateSignature C reg = .ok () ∧
    ∃ m, OfferProtoSerializer.message o = .ok m ∧
      offerSerializeToBytes m false = o.serializeToBytes false ∧
      MarketClient.checkOffer C cert m = .ok ()
  sold : ∀ pre o post, chain = pre ++ o :: post → ∀ po ∈ s.purchaseOrders, po.offer = o.id →
    ∃ requested ∈ pre ++ [o], po.validateSignature C reg requested = .ok () ∧
      (∃ k ∈ s.contracts, k.purchaseOrder = po.id) ∧
      ∀ k ∈ s.contracts, k.purchaseOrder = po.id → k.validateSignature C reg po requested = .ok ()

/-- The records of a chain are signed. -/
lemma Represents.chainSigned {s : Store} {cs : List (Chain C reg)} (h : Represents s cs)
    (hsealed : ∀ o ∈ s.offers, Sealed C reg o) (hpair : BrokerPair C reg) {cert : C.Cert}
    (hcert : reg.getBrokerCertificate C = .ok cert) {c : Chain C reg} (hc : c ∈ cs) :
    s.ChainSigned C reg cert c.offers where
  seller := by
    rintro _ ⟨rfl⟩
    obtain ⟨copy, hlisted⟩ := c.history.isListed
    exact hlisted.seller_signed
  broker := by
    intro o ho
    have hdep := Option.isSome_iff_ne_none.mp (c.history.deprecates_isSome o ho)
    exact (hsealed o (h.mem_offers.mpr ⟨c, hc, List.mem_of_mem_tail ho⟩)).valid hdep hpair hcert
  sold := by
    intro pre o post hsplit po hpo hoffer
    obtain ⟨c', hc', x, hx, rfl⟩ := h.mem_orders.mp hpo
    have hoc : o ∈ c.offers := by
      rw [hsplit]
      simp
    have hid : x.offer.id = o.id := (Chain.sale_links hx).1.symm.trans hoffer
    obtain rfl := h.chain_eq hc' hc (Chain.offer_mem hx) hoc hid
    obtain ⟨before, after, hsales⟩ := List.append_of_mem hx
    obtain ⟨-, new, hextends⟩ := c'.history.extends_of_sales_eq hsales
    have hsplit' : c'.offers = (c'.head :: before.map Sale.offer) ++ x.offer ::
        (after.map Sale.offer ++ [c'.last]) := by
      rw [Chain.offers, chainOffers, hsales]
      simp
    obtain ⟨rfl, rfl, -⟩ := h.split_eq hc hsplit hsplit' hid.symm
    refine ⟨x.requested, hextends.requested_mem, hextends.order_signed,
      ⟨x.contract, h.mem_contracts.mpr ⟨c', hc, x, hx, rfl⟩, hextends.contract_order⟩,
      fun k hk horder => ?_⟩
    rw [h.contract_unique hc hx hk horder]
    exact hextends.contract_signed

/-- **Signatures in the store.**  After calls in whole seconds, the head of every chain carries a
valid signature of the seller, and every other offer one of the broker, over its own bytes; these
are the bytes that a client builds from the message of the offer.  Every purchase order and its
contract carry valid signatures over bytes built from an offer of the chain at or before the one
sold, and every offer, order and contract belongs to a chain. -/
theorem run_chainSigned (hpair : BrokerPair C reg) {cert : C.Cert}
    (hcert : reg.getBrokerCertificate C = .ok cert) (calls : List (Call C))
    (hcalls : ∀ call ∈ calls, CallsWholeSeconds call) :
    let s := (run C reg calls).2
    (∀ head ∈ s.heads, s.ChainSigned C reg cert (s.chainOf head)) ∧
      (s.heads.flatMap s.chainOf).Perm s.offers ∧
      (∀ po ∈ s.purchaseOrders, ∃ o ∈ s.offers, po.offer = o.id) ∧
      ∀ k ∈ s.contracts, ∃ po ∈ s.purchaseOrders, k.purchaseOrder = po.id := by
  obtain ⟨cs, hexplains⟩ := exists_chains C reg calls
  have h := hexplains.represents
  refine ⟨fun head hhead => ?_, h.perm_chains, fun po hpo => ?_, fun k hk => ?_⟩
  · rw [h.heads_eq] at hhead
    obtain ⟨c, hc, rfl⟩ := List.mem_map.mp hhead
    rw [h.chainOf_eq hc]
    exact h.chainSigned (run_sealed calls hcalls) hpair hcert hc
  · obtain ⟨c, hc, x, hx, rfl⟩ := h.mem_orders.mp hpo
    exact ⟨x.offer, h.mem_offers.mpr ⟨c, hc, Chain.offer_mem hx⟩, (Chain.sale_links hx).1⟩
  · obtain ⟨c, hc, x, hx, rfl⟩ := h.mem_contracts.mp hk
    exact ⟨x.order, h.mem_orders.mpr ⟨c, hc, x, hx, rfl⟩, (Chain.sale_links hx).2⟩

/-! ## The signatures of a small market -/

namespace SmallMarket

/-- The signature of the seller leaves the times of a specification alone. -/
lemma times_signedBySeller (template : String) :
    (signedBySeller (specification template)).notbefore = some ⟨0, 0⟩ ∧
      (signedBySeller (specification template)).notafter = some ⟨1200, 0⟩ := by
  unfold signedBySeller
  split
  · split <;> exact ⟨rfl, rfl⟩
  · exact ⟨rfl, rfl⟩

/-- The offers of the small market are in whole seconds. -/
lemma wholeSeconds_signedBySeller (template : String) :
    WholeSeconds (signedBySeller (specification template)) := by
  obtain ⟨hnotbefore, hnotafter⟩ := times_signedBySeller template
  exact wholeSeconds_of_eq hnotbefore hnotafter

/-- The calls of two purchases are in whole seconds. -/
lemma wholeSeconds_boughtTwice : ∀ call ∈ boughtTwice, CallsWholeSeconds call := by
  intro call hcall specs hspecs
  rcases List.mem_cons.mp hcall with rfl | hcall
  · obtain rfl : signedBySeller (specification "10.1.1.1:50-51") = specs := by
      simpa [offering] using hspecs
    exact wholeSeconds_signedBySeller _
  · obtain ⟨r, -, hr⟩ := List.mem_flatMap.mp hcall
    rcases List.mem_cons.mp hr with rfl | hr
    · simp at hspecs
    · rw [List.mem_singleton.mp hr] at hspecs
      simp at hspecs

end SmallMarket

/-- The records of a chain with two sales are signed. -/
theorem run_chainSigned_boughtTwice :
    let s := (run Crypto.transparent SmallMarket.registry SmallMarket.boughtTwice).2
    (∀ head ∈ s.heads, s.ChainSigned Crypto.transparent SmallMarket.registry 'k'
        (s.chainOf head)) ∧
      (s.heads.flatMap s.chainOf).Perm s.offers ∧
      (∀ po ∈ s.purchaseOrders, ∃ o ∈ s.offers, po.offer = o.id) ∧
      ∀ k ∈ s.contracts, ∃ po ∈ s.purchaseOrders, k.purchaseOrder = po.id :=
  run_chainSigned SmallMarket.brokerPair rfl SmallMarket.boughtTwice
    SmallMarket.wholeSeconds_boughtTwice

end Esdx
