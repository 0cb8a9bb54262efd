import Esdx.Market.Steps

/-!
# Runs of the market

What a run of the market leaves behind: chains of offers, one for every accepted `AddOffer`, and
in them one sale for every accepted purchase.
-/

namespace Esdx

open Table

variable {C : Crypto} {reg : Registry}

/-! ## Events -/

/-- An accepted purchase.  `exact` tells `Purchase` from `PurchaseEquivalent`. -/
structure Accepted where
  exact : Bool
  request : PurchaseRequest
  contract : ContractMessage

/-- The accepted `AddOffer` of an event. -/
def Event.listing? (e : Event C) : Option (OfferSpecification × OfferMessage) :=
  match e.2, e.1.request with
  | .ok (.offer m), .addOffer specs => some (specs, m)
  | _, _ => none

/-- The accepted purchase of an event. -/
def Event.purchase? (e : Event C) : Option Accepted :=
  match e.2, e.1.request with
  | .ok (.contract m), .purchase r => some ⟨true, r, m⟩
  | .ok (.contract m), .purchaseEquivalent r => some ⟨false, r, m⟩
  | _, _ => none

/-- The contract that an event returned, by whichever call. -/
def Event.contract? (e : Event C) : Option ContractMessage :=
  match e.2 with
  | .ok (.contract m) => some m
  | _ => none

/-- What a call does to a store that holds the chains `cs`. -/
inductive Outcome (s : Store) (cs : List (Chain C reg)) (call : Call C) :
    Except Exc Response → Store → Prop
  | listed {specs : OfferSpecification} {m : OfferMessage} {head copy : Offer}
      (hcall : call.request = .addOffer specs) (h : IsListing C reg call.amb specs s head copy)
      (hm : OfferProtoSerializer.message copy = .ok m) :
      Outcome s cs call (.ok (.offer m)) ((s.addOfferRow head).addOfferRow copy)
  | sold {exact : Bool} {request : PurchaseRequest} {m : ContractMessage} {c : Chain C reg}
      {requested new : Offer} {po : PurchaseOrder} {k : Contract}
      (hcall : call.request = if exact then .purchase request else .purchaseEquivalent request)
      (hc : c ∈ cs) (hrequested : requested ∈ c.offers)
      (hid : (requested.id : ℤ) = request.offer.id) (hexact : exact = true → requested = c.last)
      (h : IsSale C reg call.amb request requested c.last s po k new)
      (hm : ContractProtoSerializer.message reg (s.addSale po k new) k = .ok m) :
      Outcome s cs call (.ok (.contract m)) (s.addSale po k new)
  | shown {request : GetContractRequest} {m : ContractMessage} {k : Contract}
      (hcall : call.request = .getContract request) (hk : k ∈ s.contracts)
      (hm : ContractProtoSerializer.message reg s k = .ok m) :
      Outcome s cs call (.ok (.contract m)) s
  | offered {l : List OfferMessage} (hcall : call.request = .listOffers) :
      Outcome s cs call (.ok (.offers l)) s
  | refused (e : Exc) : Outcome s cs call (.error e) s

/-! ## Calls that only read -/

lemma readOnly_listOffers : Tx.ReadOnly listOffers :=
  (Tx.readOnly_read.bind fun _ => Tx.readOnly_liftM _).mapError

lemma readOnly_getContract (request : GetContractRequest) :
    Tx.ReadOnly (getContract C reg request) := by
  refine Tx.ReadOnly.mapError (.bind (Tx.readOnly_liftM _) fun _ => ?_)
  refine .bind (Tx.readOnly_liftM _) fun _ => .bind (Tx.readOnly_liftM _) fun _ => ?_
  refine .bind (Tx.readOnly_liftM _) fun _ => .bind Tx.readOnly_read fun _ => ?_
  refine .bind (Tx.readOnly_liftM _) fun _ => .bind (Tx.readOnly_liftM _) fun _ => ?_
  refine .bind (Tx.readOnly_liftM _) fun _ => ?_
  split
  · exact Tx.readOnly_raise _
  · exact Tx.readOnly_liftM _

/-- `GetContract` shows a stored contract. -/
lemma getContract_ok {request : GetContractRequest} {s s' : Store} {m : ContractMessage}
    (h : getContract C reg request s = (.ok m, s')) :
    ∃ k ∈ s.contracts, ContractProtoSerializer.message reg s k = .ok m := by
  unfold getContract at h
  rw [Tx.mapError_eq_ok] at h
  obtain ⟨_, -, h⟩ := Tx.bind_liftM_eq_ok.mp h
  obtain ⟨_, -, h⟩ := Tx.bind_liftM_eq_ok.mp h
  obtain ⟨_, -, h⟩ := Tx.bind_liftM_eq_ok.mp h
  obtain ⟨_, -, h⟩ := Tx.bind_liftM_eq_ok.mp h
  rw [Tx.bind_read_eq_ok] at h
  obtain ⟨k, hk, h⟩ := Tx.bind_liftM_eq_ok.mp h
  obtain ⟨_, -, h⟩ := Tx.bind_liftM_eq_ok.mp h
  obtain ⟨_, -, h⟩ := Tx.bind_liftM_eq_ok.mp h
  split at h
  · simp at h
  · refine ⟨k, ?_, (Tx.liftM_eq_ok.mp h).1⟩
    unfold Store.getContract at hk
    split at hk
    · rename_i hfind
      rw [Except.ok.injEq] at hk
      exact hk ▸ List.mem_of_find?_eq_some hfind
    · simp at hk

/-! ## Purchases -/

/-- A getter of offers that serves the last offer of the chain of the offer requested. -/
def ServesLast (cs : List (Chain C reg)) (exact : Bool) (request : PurchaseRequest)
    (offers : Except Exc (Offer × Offer)) : Prop :=
  ∀ r a, offers = .ok (r, a) → ∃ c ∈ cs, r ∈ c.offers ∧ a = c.last ∧
    (r.id : ℤ) = request.offer.id ∧ (exact = true → r = c.last)

/-- Both purchase calls serve the last offer of the chain of the offer requested. -/
lemma servesLast_offersGetter {s : Store} {cs : List (Chain C reg)} (h : Represents s cs)
    (exact : Bool) (request : PurchaseRequest) :
    ServesLast cs exact request (offersGetter exact request s) := by
  intro r a hget
  cases exact with
  | true =>
    obtain ⟨c, hc, rfl, rfl, hid⟩ := h.availableOffers_ok hget
    exact ⟨c, hc, c.last_mem, rfl, hid, fun _ => rfl⟩
  | false =>
    obtain ⟨c, hc, hr, rfl, hid⟩ := h.derivedOffers_ok hget
    exact ⟨c, hc, hr, rfl, hid, by simp⟩

/-- Serving a purchase is `_purchase` with the offers of the call. -/
lemma serve_purchase {call : Call C} {exact : Bool} {request : PurchaseRequest}
    (hcall : call.request = if exact then .purchase request else .purchaseEquivalent request) :
    serve C reg call = (purchaseWith C reg call.amb request (offersGetter exact request) >>=
      fun m => pure (.contract m)) := by
  cases exact with
  | true =>
    rw [if_pos rfl] at hcall
    simp only [serve, hcall, purchase, offersGetter, if_true]
  | false =>
    rw [if_neg (by decide)] at hcall
    simp only [serve, hcall, purchaseEquivalent, offersGetter]
    rfl

/-- A purchase is served from the last offer of a chain and answered with its contract, or the
store stays as it was. -/
lemma purchaseWith_outcome {s : Store} {cs : List (Chain C reg)} (h : Represents s cs)
    {call : Call C} {exact : Bool} {request : PurchaseRequest}
    (hcall : call.request = if exact then .purchase request else .purchaseEquivalent request)
    {getter : Store → Except Exc (Offer × Offer)} (hget : ServesLast cs exact request (getter s)) :
    (∃ m s', purchaseWith C reg call.amb request getter s = (.ok m, s') ∧
      Outcome s cs call (.ok (.contract m)) s') ∨
    ∃ e, purchaseWith C reg call.amb request getter s = (.error e, s) := by
  rcases Tx.atomic_ok_or_unchanged (purchaseTransactionBody C reg call.amb request getter) s with
    ⟨k, s', htx, -⟩ | ⟨e, htx⟩
  · obtain ⟨r, a, po, new, hoffers, hsale, rfl⟩ := purchaseTransaction_eq_ok.mp htx
    obtain ⟨c, hc, hr, rfl, hid, hexact⟩ := hget r a hoffers
    obtain ⟨startingOn, -, hp⟩ := hsale.purchase
    have hx := hp.extends h hc hr
    obtain ⟨pre, post, rfl⟩ := List.append_of_mem hc
    have hmem : (⟨c.last, po, k, r⟩ : Sale) ∈ (c.extend _ hx).sales := by simp [Chain.extend]
    have hm := (h.sell hx hp).message_eq (List.mem_append_right _ List.mem_cons_self) hmem
    refine .inl ⟨_, _, ?_, .sold hcall hc hr hid hexact hsale hm⟩
    rw [purchaseWith, Tx.mapError_eq_ok]
    exact Tx.bind_eq_ok.mpr ⟨k, _, htx, Tx.bind_read_eq_ok.mpr (Tx.liftM_eq_ok.mpr ⟨hm, rfl⟩)⟩
  · refine .inr ⟨purchaseError e, ?_⟩
    rw [purchaseWith, Tx.mapError_eq_error]
    exact ⟨e, Tx.bind_eq_error.mpr (.inl htx), rfl⟩

/-! ## Calls -/

/-- **Calls.**  Every call has one of the outcomes. -/
theorem serve_outcome {s : Store} {cs : List (Chain C reg)} (h : Represents s cs)
    (call : Call C) : Outcome s cs call (serve C reg call s).1 (serve C reg call s).2 := by
  have hpurchase : ∀ (exact : Bool) (request : PurchaseRequest),
      (call.request = if exact then .purchase request else .purchaseEquivalent request) →
      Outcome s cs call (serve C reg call s).1 (serve C reg call s).2 := by
    intro exact request hcall
    rw [serve_purchase hcall, Tx.bind_pure_apply]
    rcases purchaseWith_outcome h hcall (servesLast_offersGetter h exact request) with
      ⟨m, s', hm, hout⟩ | ⟨e, he⟩
    · rw [hm]
      exact hout
    · rw [he]
      exact .refused e
  rcases hrequest : call.request with _ | specs | request | request | request
  · have hserve : serve C reg call = (listOffers >>= fun l => pure (.offers l)) := by
      simp only [serve, hrequest]
    rw [hserve, Tx.bind_pure_apply, readOnly_listOffers s]
    rcases (listOffers s).1 with e | l
    · exact .refused e
    · exact .offered hrequest
  · have hserve : serve C reg call = (addOffer C reg call.amb specs >>= fun m =>
        pure (.offer m)) := by
      simp only [serve, hrequest]
    rw [hserve, Tx.bind_pure_apply]
    rcases hadd : addOffer C reg call.amb specs s with ⟨e | m, s'⟩
    · rw [addOffer_error hadd]
      exact .refused e
    · obtain ⟨head, copy, hlisting, hm, rfl⟩ := addOffer_ok hadd
      exact .listed hrequest hlisting hm
  · exact hpurchase true request hrequest
  · exact hpurchase false request hrequest
  · have hserve : serve C reg call = (getContract C reg request >>= fun m =>
        pure (.contract m)) := by
      simp only [serve, hrequest]
    rw [hserve, Tx.bind_pure_apply, readOnly_getContract request s]
    rcases hget : getContract C reg request s with ⟨e | m, s'⟩
    · exact .refused e
    · obtain ⟨k, hk, hm⟩ := getContract_ok hget
      exact .shown hrequest hk hm

/-! ## Runs -/

/-- The chain `c` was started by the accepted `AddOffer` `e`. -/
def StartedBy (e : OfferSpecification × OfferMessage) (c : Chain C reg) : Prop :=
  (∃ o, OfferProtoSerializer.save e.1 = .ok o ∧ c.head = { o with id := c.head.id }) ∧
    ∃ copy ∈ c.offers, OfferProtoSerializer.message copy = .ok e.2

/-- A chain goes on to be started by the same `AddOffer`. -/
lemma StartedBy.extend {e : OfferSpecification × OfferMessage} {c : Chain C reg} (x : Sale)
    {new : Offer} (hx : Extends C reg c.head c.sales c.last x new) (he : StartedBy e c) :
    StartedBy e (c.extend x hx) := by
  obtain ⟨ho, copy, hcopy, hm⟩ := he
  refine ⟨ho, copy, ?_, hm⟩
  rw [Chain.offers_extend]
  exact List.mem_append_left _ hcopy

/-- The contract `k` is that of a sale of the chains `cs`, made for the accepted purchase `e`. -/
structure MadeFor (cs : List (Chain C reg)) (e : Accepted) (x : Sale) : Prop where
  sold : ∃ c ∈ cs, x ∈ c.sales
  answer : e.contract = x.message
  same_offer : OfferProtoSerializer.message x.requested = .ok e.request.offer
  same_id : (x.requested.id : ℤ) = e.request.offer.id
  order_eq : x.order.buyer = e.request.buyerIaid ∧ x.order.bwProfile = e.request.bwProfile ∧
    x.order.signature = e.request.signature ∧
    timeFromPbTimestamp e.request.startingOn = .ok x.order.startingOn
  exact_requested : e.exact = true → x.requested = x.offer

/-- The chains `cs` and the store `s` are what the trace `tr` left behind. -/
structure Explains (tr : List (Event C)) (s : Store) (cs : List (Chain C reg)) : Prop where
  represents : Represents s cs
  listings : List.Forall₂ StartedBy (tr.filterMap Event.listing?) cs
  purchases : ∃ xs, List.Forall₂ (MadeFor cs) (tr.filterMap Event.purchase?) xs ∧
    xs.map Sale.contract = s.contracts
  exact_first : (tr.filterMap Event.purchase?).Pairwise fun e e' =>
    e'.exact = true → e.request.offer.id ≠ e'.request.offer.id
  contracts : ∀ m ∈ tr.filterMap Event.contract?, ∃ c ∈ cs, ∃ x ∈ c.sales, m = x.message

/-- The empty trace explains the empty store. -/
lemma Explains.empty : Explains [] {} ([] : List (Chain C reg)) where
  represents := .empty
  listings := .nil
  purchases := ⟨[], .nil, rfl⟩
  exact_first := .nil
  contracts := by simp

/-- What was explained by some chains is explained by chains with more sales. -/
lemma MadeFor.mono {cs cs' : List (Chain C reg)} (h : ∀ c ∈ cs, ∃ c' ∈ cs', c.sales ⊆ c'.sales)
    {e : Accepted} {x : Sale} (hx : MadeFor cs e x) : MadeFor cs' e x := by
  obtain ⟨c, hc, hxc⟩ := hx.sold
  obtain ⟨c', hc', hsub⟩ := h c hc
  exact { hx with sold := ⟨c', hc', hsub hxc⟩ }

/-- An event that changes nothing leaves everything explained. -/
lemma Explains.concat_quiet {tr : List (Event C)} {s : Store} {cs : List (Chain C reg)}
    (h : Explains tr s cs) {e : Event C} (hlisting : e.listing? = none)
    (hpurchase : e.purchase? = none)
    (hcontract : ∀ m ∈ e.contract?, ∃ c ∈ cs, ∃ x ∈ c.sales, m = x.message) :
    Explains (tr ++ [e]) s cs where
  represents := h.represents
  listings := by
    simpa [List.filterMap_append, hlisting] using h.listings
  purchases := by
    simpa [List.filterMap_append, hpurchase] using h.purchases
  exact_first := by
    simpa [List.filterMap_append, hpurchase] using h.exact_first
  contracts := by
    intro m hm
    rw [List.filterMap_append, List.mem_append] at hm
    rcases hm with hm | hm
    · exact h.contracts m hm
    · rw [List.mem_filterMap] at hm
      obtain ⟨e', he', hm⟩ := hm
      rw [List.mem_singleton.mp he'] at hm
      exact hcontract m hm

/-- An accepted `AddOffer` is explained by a new chain. -/
lemma Explains.concat_listed {tr : List (Event C)} {s : Store} {cs : List (Chain C reg)}
    (h : Explains tr s cs) {call : Call C} {specs : OfferSpecification} {m : OfferMessage}
    {head copy : Offer} (hcall : call.request = .addOffer specs)
    (hl : IsListing C reg call.amb specs s head copy)
    (hm : OfferProtoSerializer.message copy = .ok m) :
    Explains (tr ++ [(call, .ok (.offer m))]) ((s.addOfferRow head).addOfferRow copy)
      (cs ++ [Chain.opened hl.listed]) := by
  have hlisting : Event.listing? ((call, .ok (.offer m)) : Event C) = some (specs, m) := by
    simp [Event.listing?, hcall]
  have hpurchase : Event.purchase? ((call, .ok (.offer m)) : Event C) = none := rfl
  have hcontract : Event.contract? ((call, .ok (.offer m)) : Event C) = none := rfl
  have hmono : ∀ c ∈ cs, ∃ c' ∈ cs ++ [Chain.opened hl.listed], c.sales ⊆ c'.sales := fun c hc =>
    ⟨c, List.mem_append_left _ hc, List.Subset.refl _⟩
  have hstarted : StartedBy (specs, m) (Chain.opened hl.listed) := by
    obtain ⟨o, ho, hhead⟩ := hl.created
    have hid : head.id = s.nextOffer := by rw [hhead]
    refine ⟨⟨o, ho, ?_⟩, copy, Chain.last_mem _, hm⟩
    change head = { o with id := head.id }
    rw [hid]
    exact hhead
  have hrows := hl.addOfferRows_eq
  obtain ⟨xs, hxs, hcontracts⟩ := h.purchases
  exact {
    represents := h.represents.list hl
    listings := by
      rw [List.filterMap_append, List.filterMap_cons, hlisting]
      exact List.rel_append h.listings (.cons hstarted .nil)
    purchases := by
      refine ⟨xs, ?_, ?_⟩
      · simpa [List.filterMap_append, hpurchase] using hxs.imp fun _ _ hx => hx.mono hmono
      · rw [hrows]
        exact hcontracts
    exact_first := by
      simpa [List.filterMap_append, hpurchase] using h.exact_first
    contracts := by
      intro k hk
      rw [List.filterMap_append, List.filterMap_cons, hcontract] at hk
      obtain ⟨c, hc, hx⟩ := h.contracts k (by simpa using hk)
      exact ⟨c, List.mem_append_left _ hc, hx⟩ }

/-- An accepted purchase is explained by one more sale. -/
lemma Explains.concat_sold {tr : List (Event C)} {s : Store} {cs : List (Chain C reg)}
    (h : Explains tr s cs) {call : Call C} {exact : Bool} {request : PurchaseRequest}
    {m : ContractMessage} {c : Chain C reg} {requested new : Offer} {po : PurchaseOrder}
    {k : Contract}
    (hcall : call.request = if exact then .purchase request else .purchaseEquivalent request)
    (hc : c ∈ cs) (hrequested : requested ∈ c.offers)
    (hid : (requested.id : ℤ) = request.offer.id) (hexact : exact = true → requested = c.last)
    (hsale : IsSale C reg call.amb request requested c.last s po k new)
    (hm : ContractProtoSerializer.message reg (s.addSale po k new) k = .ok m) :
    ∃ cs' : List (Chain C reg),
      Explains (tr ++ [(call, .ok (.contract m))]) (s.addSale po k new) cs' := by
  have hlisting : Event.listing? ((call, .ok (.contract m)) : Event C) = none := rfl
  have hpurchase : Event.purchase? ((call, .ok (.contract m)) : Event C) =
      some ⟨exact, request, m⟩ := by
    cases exact <;> simp [Event.purchase?, hcall]
  have hcontract : Event.contract? ((call, .ok (.contract m)) : Event C) = some m := rfl
  obtain ⟨startingOn, htime, hp⟩ := hsale.purchase
  have hx := hp.extends h.represents hc hrequested
  obtain ⟨pre, post, rfl⟩ := List.append_of_mem hc
  have hrep := h.represents.sell hx hp
  have hmem : (⟨c.last, po, k, requested⟩ : Sale) ∈ (c.extend _ hx).sales := by simp [Chain.extend]
  have hc' : c.extend _ hx ∈ pre ++ c.extend _ hx :: post :=
    List.mem_append_right _ List.mem_cons_self
  have hmono : ∀ d ∈ pre ++ c :: post, ∃ d' ∈ pre ++ c.extend _ hx :: post, d.sales ⊆ d'.sales := by
    intro d hd
    rcases List.mem_append.mp hd with hd | hd
    · exact ⟨d, List.mem_append_left _ hd, List.Subset.refl _⟩
    rcases List.mem_cons.mp hd with rfl | hd
    · exact ⟨_, hc', List.subset_append_left _ _⟩
    · exact ⟨d, List.mem_append_right _ (List.mem_cons_of_mem _ hd), List.Subset.refl _⟩
  obtain rfl : m = _ := Except.ok.inj (hm.symm.trans (hrep.message_eq hc' hmem))
  have hmade : MadeFor (pre ++ c.extend _ hx :: post) ⟨exact, request, Sale.message _⟩
      ⟨c.last, po, k, requested⟩ := {
    sold := ⟨_, hc', hmem⟩
    answer := rfl
    same_offer := hsale.same_offer
    same_id := hid
    order_eq := by
      rw [hp.order_eq]
      exact ⟨rfl, rfl, rfl, htime⟩
    exact_requested := hexact }
  obtain ⟨xs, hxs, hcontracts⟩ := h.purchases
  have hpurchases : (tr ++ [(call, .ok (.contract (Sale.message ⟨c.last, po, k, requested⟩)))] :
      List (Event C)).filterMap Event.purchase? = tr.filterMap Event.purchase? ++
        [⟨exact, request, Sale.message ⟨c.last, po, k, requested⟩⟩] := by
    rw [List.filterMap_append, List.filterMap_cons, hpurchase]
    rfl
  refine ⟨pre ++ c.extend _ hx :: post, hrep, ?_, ⟨xs ++ [⟨c.last, po, k, requested⟩], ?_, ?_⟩,
    ?_, ?_⟩
  · rw [List.filterMap_append, List.filterMap_cons, hlisting, List.filterMap_nil, List.append_nil]
    exact Machine.forall₂_replace h.listings fun _ he => he.extend _ hx
  · rw [hpurchases]
    exact List.rel_append (hxs.imp fun _ _ hx => hx.mono hmono) (.cons hmade .nil)
  · rw [hp.addSale_eq, List.map_append, hcontracts]
    rfl
  · rw [hpurchases, List.pairwise_append]
    refine ⟨h.exact_first, List.pairwise_singleton _ _, ?_⟩
    intro e he e' he' hexact' heq
    rw [List.mem_singleton.mp he'] at hexact' heq
    obtain ⟨x, -, hx'⟩ := Machine.exists_of_mem_forall₂ hxs he
    obtain ⟨d, hd, hxd⟩ := hx'.sold
    have hlast : x.requested.id = c.last.id := by
      have := hx'.same_id
      rw [heq, ← hid, hexact hexact'] at this
      exact_mod_cast this
    obtain rfl := h.represents.chain_eq hd hc (Chain.requested_mem_offers hxd) c.last_mem hlast
    exact h.represents.requested_id_ne_last hc hxd hlast
  · intro m' hm'
    rw [List.filterMap_append, List.mem_append] at hm'
    rcases hm' with hm' | hm'
    · obtain ⟨d, hd, x, hxd, hm'⟩ := h.contracts m' hm'
      obtain ⟨d', hd', hsub⟩ := hmono d hd
      exact ⟨d', hd', x, hsub hxd, hm'⟩
    · rw [List.filterMap_cons, hcontract] at hm'
      exact ⟨_, hc', _, hmem, by simpa using hm'⟩

/-- **Steps of a run.**  Serving one more call keeps store and trace explained. -/
theorem Explains.serve {tr : List (Event C)} {s : Store} {cs : List (Chain C reg)}
    (h : Explains tr s cs) (call : Call C) :
    ∃ cs' : List (Chain C reg),
      Explains (tr ++ [(call, (serve C reg call s).1)]) (serve C reg call s).2 cs' := by
  have hout := serve_outcome h.represents call
  generalize (Esdx.serve C reg call s).1 = answer at hout ⊢
  generalize (Esdx.serve C reg call s).2 = s' at hout ⊢
  cases hout with
  | listed hcall hl hm => exact ⟨_, h.concat_listed hcall hl hm⟩
  | sold hcall hc hrequested hid hexact hsale hm =>
    exact h.concat_sold hcall hc hrequested hid hexact hsale hm
  | shown hcall hk hm =>
    refine ⟨cs, h.concat_quiet rfl (by simp [Event.purchase?, hcall]) ?_⟩
    rintro _ ⟨rfl⟩
    obtain ⟨c, hc, x, hx, rfl⟩ := h.represents.mem_contracts.mp hk
    exact ⟨c, hc, x, hx, Except.ok.inj (hm.symm.trans (h.represents.message_eq hc hx))⟩
  | offered hcall => exact ⟨cs, h.concat_quiet rfl rfl (by simp [Event.contract?])⟩
  | refused e => exact ⟨cs, h.concat_quiet rfl rfl (by simp [Event.contract?])⟩

/-- **Runs.**  Store and trace of every run are explained by chains. -/
theorem exists_chains (C : Crypto) (reg : Registry) (calls : List (Call C)) :
    ∃ cs : List (Chain C reg), Explains (run C reg calls).1 (run C reg calls).2 cs :=
  Machine.exec_induction (serve C reg) (fun tr s => ∃ cs : List (Chain C reg), Explains tr s cs)
    ⟨[], .empty⟩ (fun _ _ call ⟨_, h⟩ => h.serve call) calls

/-! ## A small market

Two ASes and a broker, with the transparent signature scheme, to run the market on. -/

namespace SmallMarket

/-- The seller has the key `s`, the buyer the key `b`, and the broker the key `k`. -/
def registry : Registry where
  ases := [⟨"1-ff00:0:110", "s"⟩, ⟨"1-ff00:0:111", "b"⟩]
  brokers := [⟨"k", "k"⟩]

/-- The surroundings of every call. -/
def amb : Ambient Crypto.transparent := ⟨1000000, (1 : UInt8), (2 : UInt8)⟩

/-- An unsigned specification of two periods. -/
def specification (template : String) : OfferSpecification where
  iaid := "1-ff00:0:110"
  notbefore := some ⟨0, 0⟩
  notafter := some ⟨1200, 0⟩
  reachablePaths := "p"
  qosClass := 1
  pricePerUnit := ⟨0x3ff0000000000000⟩
  bwProfile := "4,4"
  brAddressTemplate := template
  brMtu := 1500
  brLinkTo := "PARENT"
  signature := []

/-- A specification with the signature of the seller. -/
def signedBySeller (specs : OfferSpecification) : OfferSpecification :=
  match OfferProtoSerializer.save specs with
  | .ok o =>
    match o.serializeToBytes false with
    | .ok data =>
      { specs with signature := Crypto.transparent.signatureCreate 's' (7 : UInt8) data }
    | .error _ => specs
  | .error _ => specs

/-- The offer of the seller, put up with an address template. -/
def offering (template : String) : Call Crypto.transparent :=
  ⟨amb, .addOffer (signedBySeller (specification template))⟩

/-- The request, signed by the buyer, for one unit in the first period of the stored offer `id`. -/
def request (s : Store) (id : ℕ) : Option PurchaseRequest := do
  let o ← (s.getOffer id).toOption
  let offer ← (OfferProtoSerializer.message o).toOption
  let signature ←
    (signPurchaseOrder Crypto.transparent (8 : UInt8) "1-ff00:0:111" 'b' o 0 "1").toOption
  return ⟨offer, "1-ff00:0:111", "1", ⟨0, 0⟩, signature⟩

/-- The store after some calls. -/
def storeAfter (calls : List (Call Crypto.transparent)) : Store :=
  (run Crypto.transparent registry calls).2

end SmallMarket

end Esdx
