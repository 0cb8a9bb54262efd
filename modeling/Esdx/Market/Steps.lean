import Esdx.Market.Book

/-!
# Steps of the book

Every call of the market is a step on the chains: an accepted `AddOffer` opens a chain, an
accepted purchase extends one, and every other call leaves the store as it was.
-/

namespace Esdx

open Table InetAddress

variable {C : Crypto} {reg : Registry}

/-! ## The offers of a purchase -/

namespace Represents

variable {s : Store} {cs : List (Chain C reg)}

/-- `Purchase` serves the last offer of a chain. -/
lemma availableOffers_ok (h : Represents s cs) {request : PurchaseRequest} {r a : Offer}
    (hget : availableOffers request s = .ok (r, a)) :
    ∃ c ∈ cs, r = c.last ∧ a = c.last ∧ (c.last.id : ℤ) = request.offer.id := by
  unfold availableOffers Store.getAvailable at hget
  split at hget
  · simp [bind, Except.bind] at hget
  · rename_i o hfilter
    simp only [bind, Except.bind, pure, Except.pure, Except.ok.injEq, Prod.mk.injEq] at hget
    obtain ⟨rfl, rfl⟩ := hget
    have ho : o ∈ s.available.filter fun o => (o.id : ℤ) = request.offer.id := by simp [hfilter]
    obtain ⟨havail, hid⟩ := List.mem_filter.mp ho
    obtain ⟨hmem, havail⟩ := List.mem_filter.mp havail
    obtain ⟨c, hc, hoc⟩ := h.mem_offers.mp hmem
    have hlast := (h.isAvailable_iff hc hoc).mp havail
    exact ⟨c, hc, hlast, hlast, by rw [← hlast]; simpa using hid⟩
  · simp [bind, Except.bind] at hget

/-- The last offer of a chain is available under its id. -/
lemma getAvailable_eq (h : Represents s cs) {c : Chain C reg} (hc : c ∈ cs) :
    s.getAvailable c.last.id = .ok c.last := by
  have hmem : c.last ∈ s.available := by
    rw [Store.available, List.mem_filter, h.mem_offers]
    exact ⟨⟨c, hc, c.last_mem⟩, (h.isAvailable_iff hc c.last_mem).mpr rfl⟩
  have hone : s.available.filter (fun o => (o.id : ℤ) = (c.last.id : ℤ)) = [c.last] := by
    refine filter_eq_singleton_of_unique ?_ hmem (by simp) fun x hx hid => ?_
    · exact (h.offer_keys.nodup.of_map _).filter _
    · refine h.offer_inj (List.mem_of_mem_filter hx) (List.mem_of_mem_filter hmem) ?_
      simpa using hid
  rw [Store.getAvailable, hone]

/-- From any offer of a chain the last one is derived. -/
lemma getDerived_eq (h : Represents s cs) {c : Chain C reg} (hc : c ∈ cs) {o : Offer}
    (ho : o ∈ c.offers) : s.getDerived o.id = .ok (o, c.last) := by
  have hmem : o ∈ s.offers := h.mem_offers.mpr ⟨c, hc, ho⟩
  obtain ⟨pre, post, hsplit⟩ := List.append_of_mem ho
  have hfuel : post.length < s.offers.length + 1 := by
    have hlen := h.offers.length_eq
    obtain ⟨cs₁, cs₂, rfl⟩ := List.append_of_mem hc
    rw [List.flatMap_append, List.flatMap_cons, List.length_append, List.length_append, hsplit,
      List.length_append, List.length_cons] at hlen
    omega
  simp [Store.getDerived, h.getOffer_eq hmem, h.walkDeprecatedBy_eq hc hsplit hfuel,
    h.not_isSold_last hc, bind, Except.bind, pure, Except.pure]

/-- `PurchaseEquivalent` serves the last offer of the chain of the offer requested. -/
lemma derivedOffers_ok (h : Represents s cs) {request : PurchaseRequest} {r a : Offer}
    (hget : derivedOffers request s = .ok (r, a)) :
    ∃ c ∈ cs, r ∈ c.offers ∧ a = c.last ∧ (r.id : ℤ) = request.offer.id := by
  rcases hfind : s.offers.find? (fun o => (o.id : ℤ) = request.offer.id) with _ | o
  · simp [derivedOffers, Store.getDerived, Store.getOffer, hfind, bind, Except.bind] at hget
  have hmem := List.mem_of_find?_eq_some hfind
  have hid : (o.id : ℤ) = request.offer.id := by simpa using List.find?_some hfind
  obtain ⟨c, hc, hoc⟩ := h.mem_offers.mp hmem
  rw [derivedOffers, ← hid, h.getDerived_eq hc hoc, Except.ok.injEq, Prod.mk.injEq] at hget
  obtain ⟨rfl, rfl⟩ := hget
  exact ⟨c, hc, hoc, rfl, hid⟩

end Represents

/-! ## Listing -/

/-- An accepted `AddOffer` starts a chain. -/
lemma IsListing.listed {amb : Ambient C} {specs : OfferSpecification} {s : Store}
    {head copy : Offer} (h : IsListing C reg amb specs s head copy) : Listed C reg head copy where
  original := by
    obtain ⟨o, ho, rfl⟩ := h.created
    exact (OfferProtoSerializer.save_fields ho).2.1
  seller_signed := h.seller_signed
  valid := ⟨s, h.head_valid⟩
  copy_eq := by
    have hid : copy.id = s.nextOffer + 1 := by rw [h.copy_eq]
    rw [hid]
    exact h.copy_eq

/-- **Listing.**  The two offers of an accepted `AddOffer` are a new chain. -/
theorem Represents.list {s : Store} {cs : List (Chain C reg)} (h : Represents s cs)
    {amb : Ambient C} {specs : OfferSpecification} {head copy : Offer}
    (hl : IsListing C reg amb specs s head copy) :
    Represents ((s.addOfferRow head).addOfferRow copy) (cs ++ [Chain.opened hl.listed]) := by
  have hhead : head.id = s.nextOffer := by
    obtain ⟨o, -, rfl⟩ := hl.created
    rfl
  have hcopy : copy.id = s.nextOffer + 1 := by rw [hl.copy_eq]
  have hdep : copy.deprecates = some head.id := by rw [hl.copy_eq]
  have hchain : (Chain.opened hl.listed).offers = [head] ++ [copy] := rfl
  rw [hl.addOfferRows_eq]
  exact {
    offers := by
      rw [List.flatMap_append, List.flatMap_singleton, hchain, ← List.append_assoc]
      exact (h.offers.append_right _).append_right _
    orders := by
      simpa [Chain.orders, Chain.opened] using h.orders
    contracts := by
      simpa [Chain.contracts, Chain.opened] using h.contracts
    heads := by
      simp [List.filter_append, h.heads, hl.listed.original, hdep, Chain.opened]
    offer_keys := (h.offer_keys.concat hhead).concat hcopy
    order_keys := h.order_keys
    contract_keys := h.contract_keys }

/-! ## Selling -/

/-- An address is found when the next port is within the range of the template. -/
lemma findAvailableBrAddress_eq_ok {s : Store} {o : Offer} {addr : String} :
    findAvailableBrAddress s o = .ok addr ↔
      ∃ ip lo hi port, ipPortRangeFromStr o.brAddressTemplate = .ok (ip, lo, hi) ∧
        nextPort s o lo = .ok port ∧ port ≤ hi ∧ addr = ipPortToStr ip port := by
  unfold findAvailableBrAddress
  rcases ipPortRangeFromStr o.brAddressTemplate with e | ⟨ip, lo, hi⟩
  · simp [bind, Except.bind]
  rcases hnext : nextPort s o lo with e | port
  · simp [bind, Except.bind, hnext]
  by_cases hport : hi < port
  · have : ¬port ≤ hi := by omega
    simp [bind, Except.bind, hnext, hport, this, throw, throwThe, MonadExceptOf.throw]
  · have : port ≤ hi := by omega
    simp [bind, Except.bind, hnext, hport, this, pure, Except.pure, eq_comm]

/-- An accepted purchase of the last offer of a chain extends the chain. -/
lemma IsPurchase.extends {s : Store} {cs : List (Chain C reg)} (h : Represents s cs)
    {c : Chain C reg} (hc : c ∈ cs) {amb : Ambient C} {requested new : Offer}
    {buyerIaid bwProfile : String} {startingOn : ℤ} {signature : Bytes} {po : PurchaseOrder}
    {k : Contract} (hrequested : requested ∈ c.offers)
    (hp : IsPurchase C reg amb requested c.last buyerIaid startingOn bwProfile signature s po k
      new) :
    Extends C reg c.head c.sales c.last ⟨c.last, po, k, requested⟩ new where
  offer_eq := rfl
  order_offer := by rw [hp.order_eq]
  buyer := by
    rw [hp.order_eq]
    exact hp.buyer
  contract_order := hp.contract_fields.2.1
  requested_mem := hrequested
  order_signed := hp.order_signed
  contract_signed := hp.contract_signed
  contract_sealed := by
    obtain ⟨key, data, hkey, hdata, hsig⟩ := hp.contract_signature
    exact ⟨key, amb.contractSalt, data, hkey, hdata, hsig⟩
  address := by
    obtain ⟨ip, lo, hi, port, hrange, hnext, hmax, haddr⟩ :=
      findAvailableBrAddress_eq_ok.mp hp.address
    rw [h.nextPort_eq hc (by rw [hp.order_eq])] at hnext
    exact ⟨ip, lo, hi, port, hrange, hnext, hmax, haddr⟩
  profile := by
    have hprofile := hp.profile
    rw [hp.order_eq]
    exact hprofile
  new_eq := by
    have hid : new.id = s.nextOffer := by rw [hp.offer_eq]
    rw [hid]
    exact hp.offer_eq

/-- The rows of a sale, added to the store, are one more sale of the chain. -/
lemma Represents.concat_sale {s s' : Store} {pre post : List (Chain C reg)} {c : Chain C reg}
    (h : Represents s (pre ++ c :: post)) {requested new : Offer} {po : PurchaseOrder}
    {k : Contract} (hx : Extends C reg c.head c.sales c.last ⟨c.last, po, k, requested⟩ new)
    (hoffers : s'.offers = s.offers ++ [new])
    (horders : s'.purchaseOrders = s.purchaseOrders ++ [po])
    (hcontracts : s'.contracts = s.contracts ++ [k])
    (hofferKeys : Keyed Offer.id s'.offers s'.nextOffer)
    (horderKeys : Keyed PurchaseOrder.id s'.purchaseOrders s'.nextPurchaseOrder)
    (hcontractKeys : Keyed Contract.id s'.contracts s'.nextContract) :
    Represents s' (pre ++ c.extend _ hx :: post) where
  offers := by
    rw [hoffers]
    exact perm_flatMap_concat h.offers (c.offers_extend _ hx)
  orders := by
    rw [horders]
    exact perm_flatMap_concat h.orders (by simp [Chain.orders, Chain.extend])
  contracts := by
    rw [hcontracts]
    exact perm_flatMap_concat h.contracts (by simp [Chain.contracts, Chain.extend])
  heads := by
    have hheads := h.heads
    have hdep : new.deprecates = some c.last.id := by rw [hx.new_eq]
    simp only [List.map_append, List.map_cons] at hheads ⊢
    rw [hoffers, List.filter_append, hheads]
    simp [hdep, Chain.extend]
  offer_keys := hofferKeys
  order_keys := horderKeys
  contract_keys := hcontractKeys

/-- **Selling.**  The rows of an accepted purchase are one more sale of its chain. -/
theorem Represents.sell {s : Store} {pre post : List (Chain C reg)} {c : Chain C reg}
    (h : Represents s (pre ++ c :: post)) {amb : Ambient C} {requested new : Offer}
    {buyerIaid bwProfile : String} {startingOn : ℤ} {signature : Bytes} {po : PurchaseOrder}
    {k : Contract} (hx : Extends C reg c.head c.sales c.last ⟨c.last, po, k, requested⟩ new)
    (hp : IsPurchase C reg amb requested c.last buyerIaid startingOn bwProfile signature s po k
      new) :
    Represents (s.addSale po k new) (pre ++ c.extend _ hx :: post) := by
  rw [hp.addSale_eq]
  exact h.concat_sale hx rfl rfl rfl (h.offer_keys.concat (by rw [hp.offer_eq]))
    (h.order_keys.concat (by rw [hp.order_eq])) (h.contract_keys.concat hp.contract_fields.1)

/-- The message about the contract of an accepted purchase is made of its rows. -/
lemma Represents.message_of_purchase {s : Store} {cs : List (Chain C reg)} (h : Represents s cs)
    {c : Chain C reg} (hc : c ∈ cs) {amb : Ambient C} {requested new : Offer}
    {buyerIaid bwProfile : String} {startingOn : ℤ} {signature : Bytes} {po : PurchaseOrder}
    {k : Contract} (hrequested : requested ∈ c.offers)
    (hp : IsPurchase C reg amb requested c.last buyerIaid startingOn bwProfile signature s po k
      new) :
    ContractProtoSerializer.message reg (s.addSale po k new) k =
      .ok (Sale.message ⟨c.last, po, k, requested⟩) := by
  have hx := hp.extends h hc hrequested
  obtain ⟨pre, post, rfl⟩ := List.append_of_mem hc
  have hmem : (⟨c.last, po, k, requested⟩ : Sale) ∈ (c.extend _ hx).sales := by simp [Chain.extend]
  exact (h.sell hx hp).message_eq (List.mem_append_right _ List.mem_cons_self) hmem

end Esdx
