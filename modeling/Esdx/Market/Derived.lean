import Esdx.Market.Shape
import Esdx.Market.Validity
import Esdx.Util.Unambiguous

/-!
# The offer derived from an offer

`get_derived` follows `deprecated_by` from an offer to the available offer of its chain.  The loop
has no bound in the code; it ends because the chains of a reachable store do.  For an available
offer it is the offer itself, so `PurchaseEquivalent` serves every request that `Purchase` serves.
-/

namespace Esdx

variable {C : Crypto} {reg : Registry} {s : Store} {cs : List (Chain C reg)}

/-! ## The walk -/

/-- The available offer that the walk from the offer `o` of a chain ends at, with any fuel that is
enough for the offers of the store. -/
structure Store.DerivesFrom (s : Store) (chain : List Offer) (o avail : Offer) : Prop where
  mem : avail ∈ chain
  available : s.isAvailable avail = true
  unsold : s.isSold avail = false
  unique : ∀ x ∈ chain, s.isAvailable x = true → x = avail
  walk : ∀ fuel, s.offers.length ≤ fuel → s.walkDeprecatedBy fuel o = .ok avail
  derived : s.getDerived o.id = .ok (o, avail)

/-- The walk from any offer of a chain ends at its last offer. -/
lemma Represents.derivesFrom (h : Represents s cs) {c : Chain C reg} (hc : c ∈ cs) {o : Offer}
    (ho : o ∈ c.offers) : s.DerivesFrom (s.chainOf c.head) o c.last := by
  rw [h.chainOf_eq hc]
  refine ⟨c.last_mem, (h.isAvailable_iff hc c.last_mem).mpr rfl, h.not_isSold_last hc,
    fun x hx => (h.isAvailable_iff hc hx).mp, fun fuel hfuel => ?_, h.getDerived_eq hc ho⟩
  obtain ⟨pre, post, hsplit⟩ := List.append_of_mem ho
  have hlength := h.length_offers_le hc
  rw [hsplit, List.length_append, List.length_cons] at hlength
  exact h.walkDeprecatedBy_eq hc hsplit (by omega)

/-- From an available offer the offer itself is derived. -/
lemma Represents.getDerived_of_isAvailable (h : Represents s cs) {o : Offer} (ho : o ∈ s.offers)
    (havailable : s.isAvailable o = true) : s.getDerived o.id = .ok (o, o) := by
  obtain ⟨c, hc, hoc⟩ := h.mem_offers.mp ho
  rw [h.getDerived_eq hc hoc, ← (h.isAvailable_iff hc hoc).mp havailable]

/-! ## The same surroundings -/

/-- A purchase depends on the offers that its getter returns for the store, not on the getter. -/
lemma purchaseWith_congr {amb : Ambient C} {request : PurchaseRequest}
    {getter getter' : Store → Except Exc (Offer × Offer)} (h : getter s = getter' s) :
    purchaseWith C reg amb request getter s = purchaseWith C reg amb request getter' s := by
  have hbody : purchaseTransactionBody C reg amb request getter s =
      purchaseTransactionBody C reg amb request getter' s := by
    unfold purchaseTransactionBody
    rw [Tx.bind_apply_of_ok (Tx.read_eq_ok.mpr ⟨rfl, rfl⟩),
      Tx.bind_apply_of_ok (Tx.read_eq_ok.mpr ⟨rfl, rfl⟩), h]
  have htransaction : purchaseTransaction C reg amb request getter s =
      purchaseTransaction C reg amb request getter' s := by
    unfold purchaseTransaction Tx.atomic
    rw [hbody]
  unfold purchaseWith Tx.mapError
  rcases hresult : purchaseTransaction C reg amb request getter' s with ⟨e | c, s'⟩
  · rw [Tx.bind_apply_of_error hresult, Tx.bind_apply_of_error (htransaction.trans hresult)]
  · rw [Tx.bind_apply_of_ok hresult, Tx.bind_apply_of_ok (htransaction.trans hresult)]

/-- An accepted `Purchase` has an offer. -/
lemma exists_availableOffers {amb : Ambient C} {request : PurchaseRequest} {s' : Store}
    {m : ContractMessage} (h : purchase C reg amb request s = (.ok m, s')) :
    ∃ r a, availableOffers request s = .ok (r, a) := by
  unfold purchase purchaseWith at h
  obtain ⟨c, _, htransaction, -⟩ := Tx.bind_eq_ok.mp (Tx.mapError_eq_ok.mp h)
  obtain ⟨r, a, -, -, hget, -, -⟩ := purchaseTransaction_eq_ok.mp htransaction
  exact ⟨r, a, hget⟩

/-- Both calls get the same offers for a request that `Purchase` gets offers for. -/
lemma Represents.derivedOffers_eq (h : Represents s cs) {request : PurchaseRequest} {r a : Offer}
    (hget : availableOffers request s = .ok (r, a)) :
    availableOffers request s = derivedOffers request s := by
  obtain ⟨c, hc, rfl, rfl, hid⟩ := h.availableOffers_ok hget
  rw [hget, derivedOffers, ← hid, h.getDerived_eq hc c.last_mem]

/-- What `Purchase` accepts, `PurchaseEquivalent` accepts with the same answer and store. -/
lemma Represents.purchaseEquivalent_eq (h : Represents s cs) {amb : Ambient C}
    {request : PurchaseRequest} {r a : Offer}
    (hget : availableOffers request s = .ok (r, a)) :
    purchaseEquivalent C reg amb request s = purchase C reg amb request s :=
  (purchaseWith_congr (h.derivedOffers_eq hget)).symm

/-! ## Other surroundings -/

/-- The messages agree on everything but the time and the signature of the broker. -/
def SameContract (m m' : ContractMessage) : Prop :=
  m' = { m with
    contractTimestamp := m'.contractTimestamp
    contractSignature := m'.contractSignature }

/-- The rows agree on everything but the signature of the broker. -/
def SameOfferRow (o o' : Offer) : Prop := o' = { o with signature := o'.signature }

/-- The rows agree on everything but the time and the signature of the broker. -/
def SameContractRow (k k' : Contract) : Prop :=
  k' = { k with timestamp := k'.timestamp, signatureBroker := k'.signatureBroker }

lemma SameOfferRow.refl (o : Offer) : SameOfferRow o o := rfl

lemma SameContractRow.refl (k : Contract) : SameContractRow k k := rfl

/-- The stores agree on everything but the times and the signatures of the broker. -/
structure SameStore (s s' : Store) : Prop where
  offers : List.Forall₂ SameOfferRow s.offers s'.offers
  purchaseOrders : s'.purchaseOrders = s.purchaseOrders
  contracts : List.Forall₂ SameContractRow s.contracts s'.contracts
  nextOffer : s'.nextOffer = s.nextOffer
  nextPurchaseOrder : s'.nextPurchaseOrder = s.nextPurchaseOrder
  nextContract : s'.nextContract = s.nextContract

/-- One more row on both sides keeps the rows related. -/
lemma forall₂_concat_self {α : Type} {R : α → α → Prop} (hrefl : ∀ a, R a a) (l : List α)
    {a b : α} (h : R a b) : List.Forall₂ R (l ++ [a]) (l ++ [b]) :=
  List.rel_append (List.forall₂_same.mpr fun x _ => hrefl x) (.cons h .nil)

/-- A contract can be signed at any time. -/
lemma exists_serializeToBytes {k k' : Contract} {po : PurchaseOrder} {requested : Offer}
    {data : Bytes} (h : k.serializeToBytes po requested = .ok data)
    (haddress : k'.brAddress = k.brAddress) :
    ∃ data', k'.serializeToBytes po requested = .ok data' := by
  unfold Contract.serializeToBytes at h ⊢
  rcases horder : po.serializeToBytes requested with e | order
  · simp [horder, bind, Except.bind] at h
  simp only [horder, bind, Except.bind] at h ⊢
  obtain ⟨time, addr, -, haddr, -⟩ := contractFieldsSerializeToBytes_eq_ok.mp h
  rw [← haddress] at haddr
  exact ⟨_, contractFieldsSerializeToBytes_eq_ok.mpr ⟨_, addr,
    encodeAscii_eq_ok.mpr ⟨(isAsciiText_toString _).1, rfl⟩, haddr, rfl⟩⟩

/-- What the broker signs with its own key, its certificate verifies. -/
lemma validateSignature_of_pair (hpair : BrokerPair C reg) {k : Contract} {po : PurchaseOrder}
    {requested : Offer} {key : C.Key} {salt : C.Salt} {data : Bytes} {cert : C.Cert}
    (hkey : reg.getBrokerKey C = .ok key) (hcert : reg.getBrokerCertificate C = .ok cert)
    (hdata : k.serializeToBytes po requested = .ok data)
    (hsignature : k.signatureBroker = C.signatureCreate key salt data) :
    k.validateSignature C reg po requested = .ok () := by
  have hverify : C.verify cert k.signatureBroker data = true := by
    rw [hsignature]
    exact (hpair key cert hkey hcert salt data data).mpr rfl
  unfold Contract.validateSignature
  simp only [hcert, hdata, bind, Except.bind]
  exact C.signatureValidate_eq_ok.mpr hverify

/-- A sale can be made in other surroundings, with another time and other signatures. -/
lemma IsPurchase.of_ambient (hpair : BrokerPair C reg) {amb : Ambient C} (amb' : Ambient C)
    {requested available : Offer} {buyerIaid bwProfile : String} {startingOn : ℤ}
    {signature : Bytes} {po : PurchaseOrder} {k : Contract} {o : Offer}
    (h : IsPurchase C reg amb requested available buyerIaid startingOn bwProfile signature s po k
      o) :
    ∃ k' o', SameContractRow k k' ∧ SameOfferRow o o' ∧
      IsPurchase C reg amb' requested available buyerIaid startingOn bwProfile signature s po k'
        o' := by
  obtain ⟨key, data, hkey, hdata, hsignature⟩ := h.contract_signature
  obtain ⟨key', offerData, hkey', hofferData, -⟩ := h.offer_signature
  obtain ⟨hid, horder, -⟩ := h.contract_fields
  obtain ⟨cert, hcert⟩ : ∃ cert, reg.getBrokerCertificate C = .ok cert := by
    have hsigned := h.contract_signed
    unfold Contract.validateSignature at hsigned
    rcases hcert : reg.getBrokerCertificate C with e | cert
    · simp [hcert, bind, Except.bind] at hsigned
    · exact ⟨cert, rfl⟩
  obtain ⟨data', hdata'⟩ : ∃ data', Contract.serializeToBytes { k with timestamp := amb'.now } po
      requested = .ok data' :=
    exists_serializeToBytes hdata rfl
  let k' : Contract := { k with
    timestamp := amb'.now
    signatureBroker := C.signatureCreate key amb'.contractSalt data' }
  let o' : Offer := { o with signature := C.signatureCreate key' amb'.offerSalt offerData }
  have hvalid : o'.preSave ((s.addPurchaseOrderRow po).addContractRow k') = .ok () := by
    obtain ⟨hvalid, hreplaces⟩ := preSave_iff_valid.mp h.offer_valid
    refine preSave_iff_valid.mpr ⟨?_, hreplaces⟩
    exact ⟨hvalid.iaid, hvalid.qosClass, hvalid.intList, hvalid.lifespan, hvalid.profile,
      hvalid.template, hvalid.brMtu, hvalid.brLinkTo⟩
  refine ⟨k', o', rfl, rfl, {
    buyer := h.buyer
    order_eq := h.order_eq
    unsold := h.unsold
    order_signed := h.order_signed
    contract_fields := ⟨hid, horder, rfl⟩
    address := h.address
    contract_signature := ⟨key, data', hkey, hdata', rfl⟩
    contract_free := h.contract_free
    contract_signed := validateSignature_of_pair hpair hkey hcert hdata' rfl
    profile := h.profile
    offer_signature := ⟨key', offerData, hkey', hofferData, rfl⟩
    offer_eq := ?_
    offer_valid := hvalid
    latest := h.latest }⟩
  have hoffer := h.offer_eq
  change { o with signature := _ } = _
  rw [hoffer]

/-- What `Purchase` accepts, `PurchaseEquivalent` accepts in other surroundings, with another time
and other signatures. -/
lemma Represents.purchaseEquivalent_of_ambient (h : Represents s cs) (hpair : BrokerPair C reg)
    {amb : Ambient C} (amb' : Ambient C) {request : PurchaseRequest} {m : ContractMessage}
    {s' : Store} (hpurchase : purchase C reg amb request s = (.ok m, s')) :
    ∃ m' s'', purchaseEquivalent C reg amb' request s = (.ok m', s'') ∧ SameContract m m' ∧
      SameStore s' s'' := by
  unfold purchase purchaseWith at hpurchase
  obtain ⟨k, _, htransaction, hmessage⟩ := Tx.bind_eq_ok.mp (Tx.mapError_eq_ok.mp hpurchase)
  obtain ⟨r, a, po, o, hget, ⟨hsame, startingOn, htime, hp⟩, rfl⟩ :=
    purchaseTransaction_eq_ok.mp htransaction
  rw [Tx.bind_read_eq_ok, Tx.liftM_eq_ok] at hmessage
  obtain ⟨hm, rfl⟩ := hmessage
  obtain ⟨k', o', hk', ho', hp'⟩ := hp.of_ambient hpair amb'
  have hderived := hget
  rw [h.derivedOffers_eq hget] at hderived
  obtain ⟨c, hc, rfl, rfl, -⟩ := h.availableOffers_ok hget
  have hm' := h.message_of_purchase hc c.last_mem hp'
  obtain rfl := Except.ok.inj (hm.symm.trans (h.message_of_purchase hc c.last_mem hp))
  refine ⟨Sale.message ⟨c.last, po, k', c.last⟩, s.addSale po k' o', ?_, ?_, ?_⟩
  · unfold purchaseEquivalent purchaseWith
    refine Tx.mapError_eq_ok.mpr (Tx.bind_eq_ok.mpr ⟨k', _, purchaseTransaction_eq_ok.mpr
      ⟨_, _, po, o', hderived, ⟨hsame, startingOn, htime, hp'⟩, rfl⟩, ?_⟩)
    rw [Tx.bind_read_eq_ok, Tx.liftM_eq_ok]
    exact ⟨hm', rfl⟩
  · unfold SameContractRow at hk'
    rw [SameContract, hk']
    rfl
  · rw [hp.addSale_eq, hp'.addSale_eq]
    exact {
      offers := forall₂_concat_self SameOfferRow.refl _ ho'
      purchaseOrders := rfl
      contracts := forall₂_concat_self SameContractRow.refl _ hk'
      nextOffer := rfl
      nextPurchaseOrder := rfl
      nextContract := rfl }

/-- **Derived offers.**  After every run the walk of `get_derived` from every stored offer ends at
the one available offer of its chain, which is not sold, and `get_derived` returns the two; for an
available offer it returns the offer twice.  What `Purchase` accepts, `PurchaseEquivalent` accepts
in the same state: with the same answer and store in the same surroundings, and in others, where
the broker's key and certificate belong together, with an answer and a store that differ in times
and signatures only. -/
theorem run_getDerived (C : Crypto) (reg : Registry) (calls : List (Call C)) :
    let s := (run C reg calls).2
    (∀ o ∈ s.offers, ∃ head ∈ s.heads, o ∈ s.chainOf head ∧
      ∃ avail, s.DerivesFrom (s.chainOf head) o avail) ∧
    (∀ o ∈ s.offers, s.isAvailable o = true → s.getDerived o.id = .ok (o, o)) ∧
    (∀ (amb : Ambient C) (request : PurchaseRequest) (m : ContractMessage) (s' : Store),
      purchase C reg amb request s = (.ok m, s') →
      purchaseEquivalent C reg amb request s = (.ok m, s')) ∧
    (BrokerPair C reg → ∀ (amb amb' : Ambient C) (request : PurchaseRequest) (m : ContractMessage)
      (s' : Store), purchase C reg amb request s = (.ok m, s') →
      ∃ m' s'', purchaseEquivalent C reg amb' request s = (.ok m', s'') ∧ SameContract m m' ∧
        SameStore s' s'') := by
  obtain ⟨cs, hexplains⟩ := exists_chains C reg calls
  have h := hexplains.represents
  refine ⟨fun o ho => ?_, fun o ho havailable => h.getDerived_of_isAvailable ho havailable,
    fun amb request m s' hpurchase => ?_,
    fun hpair amb amb' request m s' hpurchase =>
      h.purchaseEquivalent_of_ambient hpair amb' hpurchase⟩
  · obtain ⟨c, hc, hoc⟩ := h.mem_offers.mp ho
    refine ⟨c.head, ?_, ?_, c.last, h.derivesFrom hc hoc⟩
    · rw [h.heads_eq]
      exact List.mem_map_of_mem hc
    · rwa [h.chainOf_eq hc]
  · obtain ⟨r, a, hget⟩ := exists_availableOffers hpurchase
    rw [h.purchaseEquivalent_eq hget, hpurchase]

end Esdx
