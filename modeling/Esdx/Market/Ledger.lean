import Esdx.Market.Sealed

/-!
# What the market remembers

Rows are only ever added, so what a call returned can be asked for again.  `GetContract` returns
the message that the purchase itself returned, to its two parties and in every later state;
`ListOffers` returns one offer for every accepted `AddOffer`, the last one of its chain, signed by
the broker.
-/

namespace Esdx

variable {C : Crypto} {reg : Registry} {s : Store} {cs : List (Chain C reg)}

/-! ## Rows stay -/

/-- Every row of `s` is still in its place in `s'`.  There are two more offers for every listing,
and one more offer, purchase order and contract for every sale, and the next ids have gone on by at
least as much. -/
structure Store.GrowsBy (s s' : Store) (listings sales : ℕ) : Prop where
  offers : s.offers <+: s'.offers ∧ s'.offers.length = s.offers.length + 2 * listings + sales
  purchaseOrders : s.purchaseOrders <+: s'.purchaseOrders ∧
    s'.purchaseOrders.length = s.purchaseOrders.length + sales
  contracts : s.contracts <+: s'.contracts ∧
    s'.contracts.length = s.contracts.length + sales
  nextOffer : s.nextOffer + 2 * listings + sales ≤ s'.nextOffer
  nextPurchaseOrder : s.nextPurchaseOrder + sales ≤ s'.nextPurchaseOrder
  nextContract : s.nextContract + sales ≤ s'.nextContract

lemma Store.GrowsBy.refl (s : Store) : s.GrowsBy s 0 0 :=
  ⟨⟨List.prefix_rfl, rfl⟩, ⟨List.prefix_rfl, rfl⟩, ⟨List.prefix_rfl, rfl⟩, le_rfl, le_rfl, le_rfl⟩

lemma Store.GrowsBy.trans {s s' s'' : Store} {l l' n n' : ℕ} (h : s.GrowsBy s' l n)
    (h' : s'.GrowsBy s'' l' n') : s.GrowsBy s'' (l + l') (n + n') where
  offers := ⟨h.offers.1.trans h'.offers.1, by rw [h'.offers.2, h.offers.2]; ring⟩
  purchaseOrders := ⟨h.purchaseOrders.1.trans h'.purchaseOrders.1, by
    rw [h'.purchaseOrders.2, h.purchaseOrders.2, add_assoc]⟩
  contracts := ⟨h.contracts.1.trans h'.contracts.1, by
    rw [h'.contracts.2, h.contracts.2, add_assoc]⟩
  nextOffer := by
    have hfirst := h.nextOffer
    have hsecond := h'.nextOffer
    omega
  nextPurchaseOrder := by
    have hfirst := h.nextPurchaseOrder
    have hsecond := h'.nextPurchaseOrder
    omega
  nextContract := by
    have hfirst := h.nextContract
    have hsecond := h'.nextContract
    omega

/-- An accepted `AddOffer` adds two offers. -/
lemma IsListing.growsBy {amb : Ambient C} {specs : OfferSpecification} {head copy : Offer}
    (h : IsListing C reg amb specs s head copy) :
    s.GrowsBy ((s.addOfferRow head).addOfferRow copy) 1 0 := by
  rw [h.addOfferRows_eq]
  refine ⟨⟨?_, ?_⟩, ⟨List.prefix_rfl, rfl⟩, ⟨List.prefix_rfl, rfl⟩, le_rfl, le_rfl, le_rfl⟩
  · rw [List.append_assoc]
    exact List.prefix_append _ _
  · simp

/-- An accepted purchase adds one row to each table. -/
lemma IsSale.growsBy {amb : Ambient C} {request : PurchaseRequest} {requested available new : Offer}
    {po : PurchaseOrder} {k : Contract}
    (h : IsSale C reg amb request requested available s po k new) :
    s.GrowsBy (s.addSale po k new) 0 1 := by
  obtain ⟨startingOn, -, hp⟩ := h.purchase
  rw [hp.addSale_eq]
  exact ⟨⟨List.prefix_append _ _, by simp⟩, ⟨List.prefix_append _ _, by simp⟩,
    ⟨List.prefix_append _ _, by simp⟩, le_rfl, le_rfl, le_rfl⟩

/-- A call adds the rows of what it accepted. -/
lemma Represents.serve_growsBy (h : Represents s cs) (call : Call C) :
    s.GrowsBy (serve C reg call s).2
      ([(call, (serve C reg call s).1)].filterMap Event.listing?).length
      ([(call, (serve C reg call s).1)].filterMap Event.purchase?).length := by
  have hout := serve_outcome h call
  generalize (serve C reg call s).1 = answer at hout ⊢
  generalize (serve C reg call s).2 = s' at hout ⊢
  cases hout with
  | @listed specs m head copy hcall hl hm =>
    have hlisting : Event.listing? ((call, .ok (.offer m)) : Event C) = some (specs, m) := by
      simp [Event.listing?, hcall]
    have hpurchase : Event.purchase? ((call, .ok (.offer m)) : Event C) = none := rfl
    simp only [List.filterMap_cons, List.filterMap_nil, hlisting, hpurchase]
    exact hl.growsBy
  | @sold exact request m c requested new po k hcall hc hrequested hid hexact hsale hm =>
    have hlisting : Event.listing? ((call, .ok (.contract m)) : Event C) = none := rfl
    have hpurchase : Event.purchase? ((call, .ok (.contract m)) : Event C) =
        some ⟨exact, request, m⟩ := by
      cases exact <;> simp [Event.purchase?, hcall]
    simp only [List.filterMap_cons, List.filterMap_nil, hlisting, hpurchase]
    exact hsale.growsBy
  | @shown request m k hcall hk hm =>
    have hlisting : Event.listing? ((call, .ok (.contract m)) : Event C) = none := rfl
    have hpurchase : Event.purchase? ((call, .ok (.contract m)) : Event C) = none := by
      simp [Event.purchase?, hcall]
    simp only [List.filterMap_cons, List.filterMap_nil, hlisting, hpurchase]
    exact .refl s
  | offered hcall => exact .refl s
  | refused e => exact .refl s

/-- **Rows stay.**  Further calls change and remove no row.  They add two offers for every accepted
`AddOffer` and one offer, purchase order and contract for every accepted purchase, and nothing
else.  The next ids never go back. -/
theorem run_growsBy (C : Crypto) (reg : Registry) (calls more : List (Call C)) :
    let events := (Machine.exec (serve C reg) more (run C reg calls).2).1
    (run C reg calls).2.GrowsBy (run C reg (calls ++ more)).2
      (events.filterMap Event.listing?).length (events.filterMap Event.purchase?).length := by
  induction more using List.reverseRecOn with
  | nil =>
    rw [List.append_nil]
    exact .refl _
  | append_singleton more call ih =>
    obtain ⟨cs, hexplains⟩ := exists_chains C reg (calls ++ more)
    have hexec : (Machine.exec (serve C reg) (more ++ [call]) (run C reg calls).2).1 =
        (Machine.exec (serve C reg) more (run C reg calls).2).1 ++
          [(call, (serve C reg call (run C reg (calls ++ more)).2).1)] := by
      rw [run_append]
      exact congrArg Prod.fst (Machine.exec_append_singleton (serve C reg) more call _)
    dsimp only
    rw [hexec, List.filterMap_append, List.filterMap_append, List.length_append,
      List.length_append, ← List.append_assoc, run_concat]
    exact ih.trans (hexplains.represents.serve_growsBy call)

/-! ## Contracts -/

/-- The request is signed by its requester, a registered AS. -/
def GetContractRequest.IsSigned (C : Crypto) (reg : Registry) (r : GetContractRequest) : Prop :=
  ∃ as cert data, reg.getAs r.requesterIaid = .ok as ∧
    C.loadCertificate as.certificatePem = .ok cert ∧
    getContractRequestSerialize r.contractId r.requesterIaid none = .ok data ∧
    C.verify cert r.requesterSignature data = true

/-- What `sign_get_contract_request` signs for a registered AS is a signed request. -/
lemma GetContractRequest.isSigned_of_sign {r : GetContractRequest} {as : AS} {key : C.Key}
    {cert : C.Cert} {salt : C.Salt} (has : reg.getAs r.requesterIaid = .ok as)
    (hcert : C.loadCertificate as.certificatePem = .ok cert) (hkey : C.Pair key cert)
    (h : signGetContractRequest C salt key r.requesterIaid r.contractId =
      .ok r.requesterSignature) : r.IsSigned C reg := by
  unfold signGetContractRequest at h
  rcases hdata : getContractRequestSerialize r.contractId r.requesterIaid (some []) with e | data
  · simp [hdata, bind, Except.bind] at h
  · rw [hdata] at h
    refine ⟨as, cert, data, has, hcert, hdata, ?_⟩
    rw [← Except.ok.inj h]
    exact (hkey salt data data).mpr rfl

/-- `GetContract` succeeds exactly when all its checks pass. -/
lemma getContract_eq_ok {r : GetContractRequest} {s' : Store} {m : ContractMessage} :
    getContract C reg r s = (.ok m, s') ↔
      r.IsSigned C reg ∧ (∃ k po offer, s.getContract r.contractId = .ok k ∧
        s.getPurchaseOrder k.purchaseOrder = .ok po ∧ s.getOffer po.offer = .ok offer ∧
        (po.buyer = r.requesterIaid ∨ offer.iaid = r.requesterIaid) ∧
        ContractProtoSerializer.message reg s k = .ok m) ∧ s = s' := by
  unfold getContract GetContractRequest.IsSigned
  rw [Tx.mapError_eq_ok, Tx.bind_liftM_eq_ok]
  constructor
  · rintro ⟨as, has, h⟩
    obtain ⟨cert, hcert, h⟩ := Tx.bind_liftM_eq_ok.mp h
    obtain ⟨data, hdata, h⟩ := Tx.bind_liftM_eq_ok.mp h
    obtain ⟨_, hverify, h⟩ := Tx.bind_liftM_eq_ok.mp h
    obtain ⟨k, hk, h⟩ := Tx.bind_liftM_eq_ok.mp (Tx.bind_read_eq_ok.mp h)
    obtain ⟨po, hpo, h⟩ := Tx.bind_liftM_eq_ok.mp h
    obtain ⟨offer, hoffer, h⟩ := Tx.bind_liftM_eq_ok.mp h
    split at h
    · simp at h
    · rename_i hparty
      obtain ⟨hm, hs⟩ := Tx.liftM_eq_ok.mp h
      refine ⟨⟨as, cert, data, has, hcert, hdata, C.signatureValidate_eq_ok.mp hverify⟩,
        ⟨k, po, offer, hk, hpo, hoffer, ?_, hm⟩, hs⟩
      by_cases hbuyer : po.buyer = r.requesterIaid
      · exact .inl hbuyer
      · exact .inr (by_contra fun hseller => hparty ⟨hbuyer, hseller⟩)
  · rintro ⟨⟨as, cert, data, has, hcert, hdata, hverify⟩,
      ⟨k, po, offer, hk, hpo, hoffer, hparty, hm⟩, rfl⟩
    refine ⟨as, has, Tx.bind_liftM_eq_ok.mpr ⟨cert, hcert, Tx.bind_liftM_eq_ok.mpr ⟨data, hdata,
      Tx.bind_liftM_eq_ok.mpr ⟨(), C.signatureValidate_eq_ok.mpr hverify, ?_⟩⟩⟩⟩
    refine Tx.bind_read_eq_ok.mpr (Tx.bind_liftM_eq_ok.mpr ⟨k, hk, Tx.bind_liftM_eq_ok.mpr
      ⟨po, hpo, Tx.bind_liftM_eq_ok.mpr ⟨offer, hoffer, ?_⟩⟩⟩)
    rw [if_neg fun hother => hparty.elim hother.1 hother.2]
    exact Tx.liftM_eq_ok.mpr ⟨hm, rfl⟩

/-- A contract is found by its id. -/
lemma Represents.getContract_eq (h : Represents s cs) {k : Contract} (hk : k ∈ s.contracts) :
    s.getContract k.id = .ok k := by
  have hfind : s.contracts.find? (fun x => (x.id : ℤ) = (k.id : ℤ)) = some k := by
    refine Table.find?_eq_some_of_unique hk (by simp) fun x hx hid => h.contract_keys.inj hx hk ?_
    simpa using hid
  rw [Store.getContract, hfind]

/-- A contract that is found is stored under the id. -/
lemma Store.mem_of_getContract {id : ℤ} {k : Contract} (h : s.getContract id = .ok k) :
    k ∈ s.contracts ∧ (k.id : ℤ) = id := by
  unfold Store.getContract at h
  split at h
  · rename_i k' hfind
    obtain rfl := Except.ok.inj h
    exact ⟨List.mem_of_find?_eq_some hfind, by simpa using List.find?_some hfind⟩
  · simp at h

/-- `GetContract` returns the message of a sale to its buyer and its seller. -/
lemma Represents.getContract_eq_ok_iff (h : Represents s cs) {r : GetContractRequest}
    {m : ContractMessage} :
    (getContract C reg r s).1 = .ok m ↔
      r.IsSigned C reg ∧ ∃ c ∈ cs, ∃ x ∈ c.sales, m = x.message ∧ m.contractId = r.contractId ∧
        (m.buyerIaid = r.requesterIaid ∨ m.offer.iaid = r.requesterIaid) := by
  have hpair : (getContract C reg r s).1 = .ok m ↔ getContract C reg r s = (.ok m, s) := by
    constructor
    · exact fun hm => Prod.ext hm (readOnly_getContract r s)
    · exact fun hm => congrArg Prod.fst hm
  rw [hpair, getContract_eq_ok]
  refine and_congr_right fun _ => ?_
  constructor
  · rintro ⟨⟨k, po, offer, hk, hpo, hoffer, hparty, hm⟩, -⟩
    obtain ⟨hmem, hid⟩ := Store.mem_of_getContract hk
    obtain ⟨c, hc, x, hx, rfl⟩ := h.mem_contracts.mp hmem
    obtain ⟨hsold, horder⟩ := Chain.sale_links hx
    rw [horder, h.getPurchaseOrder_eq (h.mem_orders.mpr ⟨c, hc, x, hx, rfl⟩),
      Except.ok.injEq] at hpo
    subst hpo
    rw [hsold, h.getOffer_eq (h.mem_offers.mpr ⟨c, hc, Chain.offer_mem hx⟩),
      Except.ok.injEq] at hoffer
    subst hoffer
    rw [h.message_eq hc hx, Except.ok.injEq] at hm
    subst hm
    exact ⟨c, hc, x, hx, rfl, hid, hparty⟩
  · rintro ⟨c, hc, x, hx, rfl, hid, hparty⟩
    obtain ⟨hsold, horder⟩ := Chain.sale_links hx
    refine ⟨⟨x.contract, x.order, x.offer, ?_, ?_, ?_, hparty, h.message_eq hc hx⟩, rfl⟩
    · rw [← hid]
      exact h.getContract_eq (h.mem_contracts.mpr ⟨c, hc, x, hx, rfl⟩)
    · rw [horder]
      exact h.getPurchaseOrder_eq (h.mem_orders.mpr ⟨c, hc, x, hx, rfl⟩)
    · rw [hsold]
      exact h.getOffer_eq (h.mem_offers.mpr ⟨c, hc, Chain.offer_mem hx⟩)

/-- The sales are the accepted purchases of the trace. -/
lemma Explains.exists_purchase_iff {tr : List (Event C)} (h : Explains tr s cs)
    {m : ContractMessage} :
    (∃ e ∈ tr.filterMap Event.purchase?, e.contract = m) ↔
      ∃ c ∈ cs, ∃ x ∈ c.sales, m = x.message := by
  obtain ⟨xs, hxs, hcontracts⟩ := h.purchases
  constructor
  · rintro ⟨e, he, rfl⟩
    obtain ⟨x, -, hx⟩ := Machine.exists_of_mem_forall₂ hxs he
    obtain ⟨c, hc, hxc⟩ := hx.sold
    exact ⟨c, hc, x, hxc, hx.answer⟩
  · rintro ⟨c, hc, x, hx, rfl⟩
    have hk : x.contract ∈ xs.map Sale.contract := by
      rw [hcontracts]
      exact h.represents.mem_contracts.mpr ⟨c, hc, x, hx, rfl⟩
    obtain ⟨y, hy, hyx⟩ := List.mem_map.mp hk
    obtain ⟨e, he, hmade⟩ := Machine.exists_of_mem_forall₂ hxs.flip hy
    have hmade : MadeFor cs e y := hmade
    obtain ⟨c', hc', hyc'⟩ := hmade.sold
    obtain rfl : y = x := h.represents.sale_eq_of_contract hc' hc hyc' hx (by rw [hyx])
    exact ⟨e, he, hmade.answer⟩

/-- Serving `GetContract` is the call itself. -/
lemma serve_getContract {amb : Ambient C} {r : GetContractRequest} {m : ContractMessage} :
    (serve C reg ⟨amb, .getContract r⟩ s).1 = .ok (.contract m) ↔
      (getContract C reg r s).1 = .ok m := by
  have hserve : serve C reg ⟨amb, .getContract r⟩ =
      (getContract C reg r >>= fun m => pure (.contract m)) := rfl
  rw [hserve, Tx.bind_pure_apply]
  rcases (getContract C reg r s).1 with e | m'
  · simp [Except.map]
  · simp [Except.map]

/-- **Contracts stay.**  After every run, `GetContract` returns a contract exactly when the request
is signed by its requester and the contract is the answer to an accepted purchase, with the id asked
for, in which the requester is the buyer or the seller.  It goes on to return the same after any
further calls. -/
theorem run_getContract (C : Crypto) (reg : Registry) (calls : List (Call C)) (amb : Ambient C)
    (r : GetContractRequest) (m : ContractMessage) :
    ((serve C reg ⟨amb, .getContract r⟩ (run C reg calls).2).1 = .ok (.contract m) ↔
      r.IsSigned C reg ∧ ∃ e ∈ (run C reg calls).1.filterMap Event.purchase?, e.contract = m ∧
        m.contractId = r.contractId ∧
        (m.buyerIaid = r.requesterIaid ∨ m.offer.iaid = r.requesterIaid)) ∧
    ∀ (more : List (Call C)) (amb' : Ambient C),
      (serve C reg ⟨amb, .getContract r⟩ (run C reg calls).2).1 = .ok (.contract m) →
      (serve C reg ⟨amb', .getContract r⟩ (run C reg (calls ++ more)).2).1 = .ok (.contract m) := by
  have hiff : ∀ (calls : List (Call C)) (amb : Ambient C),
      (serve C reg ⟨amb, .getContract r⟩ (run C reg calls).2).1 = .ok (.contract m) ↔
      r.IsSigned C reg ∧ ∃ e ∈ (run C reg calls).1.filterMap Event.purchase?, e.contract = m ∧
        m.contractId = r.contractId ∧
        (m.buyerIaid = r.requesterIaid ∨ m.offer.iaid = r.requesterIaid) := by
    intro calls amb
    obtain ⟨cs, hexplains⟩ := exists_chains C reg calls
    rw [serve_getContract, hexplains.represents.getContract_eq_ok_iff]
    refine and_congr_right fun _ => ?_
    constructor
    · rintro ⟨c, hc, x, hx, hm, hid, hparty⟩
      obtain ⟨e, he, hem⟩ := hexplains.exists_purchase_iff.mpr ⟨c, hc, x, hx, hm⟩
      exact ⟨e, he, hem, hid, hparty⟩
    · rintro ⟨e, he, hem, hid, hparty⟩
      obtain ⟨c, hc, x, hx, hm⟩ := hexplains.exists_purchase_iff.mp ⟨e, he, hem⟩
      exact ⟨c, hc, x, hx, hm, hid, hparty⟩
  refine ⟨hiff calls amb, fun more amb' h => (hiff _ _).mpr ?_⟩
  obtain ⟨hsigned, e, he, hrest⟩ := (hiff calls amb).mp h
  refine ⟨hsigned, e, ?_, hrest⟩
  rw [run_append, List.filterMap_append]
  exact List.mem_append_left _ he

/-! ## Offers -/

/-- What `ListOffers` sends for the chain of an accepted `AddOffer`: its last offer, which every
client finds signed by the broker, and which can be named in a purchase. -/
structure Store.Offers (s : Store) (C : Crypto) (cert : C.Cert) (head : Offer)
    (m : OfferMessage) : Prop where
  last : ∃ o, (s.chainOf head).getLast? = some o ∧ OfferProtoSerializer.message o = .ok m ∧
    s.getAvailable m.id = .ok o
  signed : MarketClient.checkOffer C cert m = .ok ()

/-- The available offers are the last ones of the chains. -/
lemma Represents.available_perm (h : Represents s cs) : (cs.map Chain.last).Perm s.available := by
  have hnodup : (cs.map Chain.last).Nodup := by
    have hall := h.nodup_offers.of_map _
    rw [List.nodup_flatMap] at hall
    refine List.Nodup.map_on (fun c hc d hd heq => ?_) ?_
    · exact h.chain_eq hc hd c.last_mem d.last_mem (by rw [heq])
    · have hheads := h.heads ▸ (h.offer_keys.nodup.of_map _).filter _
      exact List.Nodup.of_map _ hheads
  refine (List.perm_ext_iff_of_nodup hnodup ((h.offer_keys.nodup.of_map _).filter _)).mpr
    fun o => ?_
  rw [List.mem_map, List.mem_filter, h.mem_offers]
  constructor
  · rintro ⟨c, hc, rfl⟩
    exact ⟨⟨c, hc, c.last_mem⟩, (h.isAvailable_iff hc c.last_mem).mpr rfl⟩
  · rintro ⟨⟨c, hc, hoc⟩, havailable⟩
    exact ⟨c, hc, ((h.isAvailable_iff hc hoc).mp havailable).symm⟩

/-- The last offer of a chain is sent signed. -/
lemma Represents.offers_last (h : Represents s cs) (hsealed : ∀ o ∈ s.offers, Sealed C reg o)
    (hpair : BrokerPair C reg) {cert : C.Cert} (hcert : reg.getBrokerCertificate C = .ok cert)
    {c : Chain C reg} (hc : c ∈ cs) :
    ∃ m, OfferProtoSerializer.message c.last = .ok m ∧ s.Offers C cert c.head m := by
  have hstored : c.last ∈ s.offers := h.mem_offers.mpr ⟨c, hc, c.last_mem⟩
  have hdep := Option.isSome_iff_ne_none.mp (c.history.deprecates_isSome c.last (by simp))
  obtain ⟨-, m, hm, -, hcheck⟩ := (hsealed c.last hstored).valid hdep hpair hcert
  refine ⟨m, hm, ⟨c.last, ?_, hm, ?_⟩, hcheck⟩
  · rw [h.chainOf_eq hc]
    exact getLast_chainOffers
  · rw [OfferProtoSerializer.id_of_message hm]
    exact h.getAvailable_eq hc

/-- `ListOffers` sends the messages of the available offers, when they all have one. -/
lemma listOffers_eq_ok {l : List OfferMessage} :
    listOffers s = (.ok l, s) ↔
      List.Forall₂ (fun o m => OfferProtoSerializer.message o = .ok m) s.available l := by
  unfold listOffers
  rw [Tx.mapError_eq_ok, Tx.bind_read_eq_ok, Tx.liftM_eq_ok, and_iff_left rfl, mapM_eq_ok]

/-- `ListOffers` succeeds where every stored offer has a finite price. -/
lemma Represents.exists_listOffers (h : Represents s cs)
    (hfinite : ∀ o ∈ s.offers, o.pricePerUnit.isFinite = true) :
    ∃ sent, listOffers s = (.ok sent, s) ∧
      ∃ inOrder, List.Forall₂ (fun c m => OfferProtoSerializer.message c.last = .ok m) cs inOrder ∧
        inOrder.Perm sent := by
  obtain ⟨sent, hsent⟩ : ∃ sent, s.available.mapM OfferProtoSerializer.message = .ok sent :=
    exists_mapM_eq_ok fun o ho => ⟨_, if_pos (hfinite o (List.mem_of_mem_filter ho))⟩
  have hsent := mapM_eq_ok.mp hsent
  obtain ⟨inOrder, hinOrder, hperm⟩ := List.perm_comp_forall₂ h.available_perm hsent
  exact ⟨sent, listOffers_eq_ok.mpr hsent, inOrder, List.forall₂_map_left_iff.mp hinOrder, hperm⟩

/-- **Offers.**  After calls in whole seconds `ListOffers` succeeds.  It sends one offer for every
accepted `AddOffer`: the last one of its chain, which every client finds signed by the broker and
which `Purchase` finds available. -/
theorem run_listOffers (hpair : BrokerPair C reg) {cert : C.Cert}
    (hcert : reg.getBrokerCertificate C = .ok cert) (calls : List (Call C))
    (hcalls : ∀ call ∈ calls, CallsWholeSeconds call) :
    let s := (run C reg calls).2
    ∃ sent inOrder, listOffers s = (.ok sent, s) ∧ inOrder.Perm sent ∧
      List.Forall₂ (s.Offers C cert) s.heads inOrder ∧
      List.Forall₂ (fun e head => CreatedFrom e.1 head)
        ((run C reg calls).1.filterMap Event.listing?) s.heads := by
  obtain ⟨cs, hexplains⟩ := exists_chains C reg calls
  have h := hexplains.represents
  have hlast : ∀ c ∈ cs, ∃ m, OfferProtoSerializer.message c.last = .ok m ∧
      (run C reg calls).2.Offers C cert c.head m := fun c hc =>
    h.offers_last (run_sealed calls hcalls) hpair hcert hc
  obtain ⟨sent, hsent, inOrder, hinOrder, hperm⟩ := h.exists_listOffers fun o ho =>
    (run_sealed calls hcalls o ho).finite
  refine ⟨sent, inOrder, hsent, hperm, ?_, ?_⟩
  · rw [h.heads_eq, List.forall₂_map_left_iff]
    refine ((List.forall₂_and_left _ _).mpr ⟨hlast, hinOrder⟩).imp fun c m hm => ?_
    obtain ⟨⟨m', hm', hoffers⟩, hmessage⟩ := hm
    obtain rfl := Except.ok.inj (hm'.symm.trans hmessage)
    exact hoffers
  · rw [h.heads_eq, List.forall₂_map_right_iff]
    exact hexplains.listings.imp fun _ _ he => he.1

/-- The offer left after two purchases is sent signed. -/
theorem run_listOffers_boughtTwice :
    let s := (run Crypto.transparent SmallMarket.registry SmallMarket.boughtTwice).2
    ∃ sent inOrder, listOffers s = (.ok sent, s) ∧ inOrder.Perm sent ∧
      List.Forall₂ (s.Offers Crypto.transparent 'k') s.heads inOrder ∧
      List.Forall₂ (fun e head => CreatedFrom e.1 head)
        ((run Crypto.transparent SmallMarket.registry
          SmallMarket.boughtTwice).1.filterMap Event.listing?) s.heads :=
  run_listOffers SmallMarket.brokerPair rfl SmallMarket.boughtTwice
    SmallMarket.wholeSeconds_boughtTwice

end Esdx
