import Esdx.Market.Conservation

/-!
# Border router ports

The contracts of a chain get the ports of its address template one after the other.  The code
finds the next port by reading back the address of the last contract, so this rests on addresses
being read back as they were printed.
-/

namespace Esdx

open Table InetAddress

/-- The exception of `find_available_br_address`. -/
def noFreePort (template : String) : Exc :=
  .runtimeError ("cannot find a free port with template " ++ template)

/-- The request passes every check that the code makes before it looks for a port. -/
structure PassesChecks (C : Crypto) (reg : Registry) (s : Store) (request : PurchaseRequest)
    (requested available : Offer) : Prop where
  same_offer : OfferProtoSerializer.message requested = .ok request.offer
  checks : ∃ startingOn buyer profile,
    timeFromPbTimestamp request.startingOn = .ok startingOn ∧
    reg.getAs request.buyerIaid = .ok buyer ∧
    available.purchase request.bwProfile startingOn = .ok (some profile) ∧
    PurchaseOrder.validateSignature C reg ⟨s.nextPurchaseOrder, available.id, request.buyerIaid,
      request.signature, request.bwProfile, startingOn⟩ requested = .ok ()

namespace Store

variable (s : Store)

/-- The contract of an offer that was sold. -/
def contractFor (o : Offer) : Except Exc Contract := do
  let po ← s.purchaseOrderOf o
  s.contractOf po

/-- The contracts of a chain, in its order. -/
def contractsAlong (chain : List Offer) : List Contract :=
  chain.filterMap fun o => (s.contractFor o).toOption

/-- The contracts of the chain that starts at `head` have the ports from `lo` upwards, and a
purchase is refused for lack of ports exactly when all ports up to `hi` are taken. -/
structure AssignsPorts (C : Crypto) (reg : Registry) (head : Offer) (ip : IPAddress)
    (lo hi : ℤ) : Prop where
  complete : (s.contractsAlong (s.chainOf head)).Perm (s.contractsOf (s.chainOf head))
  address : ∀ (k : ℕ) (c : Contract), (s.contractsAlong (s.chainOf head))[k]? = some c →
    c.brAddress = ipPortToStr ip (lo + k) ∧ lo + k ≤ hi ∧
      ipPortFromStr c.brAddress = .ok (ip, lo + k)
  distinct : ((s.contractsAlong (s.chainOf head)).map Contract.brAddress).Nodup
  next : ∀ last, (s.chainOf head).getLast? = some last → ∀ po : PurchaseOrder,
    po.offer = last.id → findAvailableBrAddress (s.addPurchaseOrderRow po) last =
      if (s.contractsAlong (s.chainOf head)).length = hi - lo + 1 then
        .error (noFreePort head.brAddressTemplate)
      else .ok (ipPortToStr ip (lo + (s.contractsAlong (s.chainOf head)).length))
  exhausted : (s.contractsAlong (s.chainOf head)).length = hi - lo + 1 →
    ∀ (call : Call C) (exact : Bool) (request : PurchaseRequest),
      (call.request = if exact then .purchase request else .purchaseEquivalent request) →
      ∀ o ∈ s.chainOf head, (o.id : ℤ) = request.offer.id →
        ∃ e, serve C reg call s = (.error e, s) ∧
          ∀ requested available, offersGetter exact request s = .ok (requested, available) →
            PassesChecks C reg s request requested available →
            e = .marketServiceErrorFrom (noFreePort head.brAddressTemplate)

end Store

variable {C : Crypto} {reg : Registry} {s : Store} {cs : List (Chain C reg)}

/-- A purchase that passes its checks fails with the exception of the port search. -/
lemma purchaseOffer_error_of_address {amb : Ambient C} {requested available : Offer}
    {request : PurchaseRequest} {startingOn : ℤ} {buyer : AS} {profile : String} {e : Exc}
    (hbuyer : reg.getAs request.buyerIaid = .ok buyer)
    (hprofile : available.purchase request.bwProfile startingOn = .ok (some profile))
    (hunsold : ∀ x ∈ s.purchaseOrders, x.offer ≠ available.id)
    (hsigned : PurchaseOrder.validateSignature C reg ⟨s.nextPurchaseOrder, available.id,
      request.buyerIaid, request.signature, request.bwProfile, startingOn⟩ requested = .ok ())
    (haddress : ∀ po : PurchaseOrder, po.offer = available.id →
      findAvailableBrAddress (s.addPurchaseOrderRow po) available = .error e) :
    purchaseOffer C reg amb requested available request.buyerIaid startingOn request.bwProfile
      request.signature s = (.error e, s) := by
  rw [← reg.iaid_of_getAs hbuyer] at hsigned
  have haddr := haddress ⟨0, available.id, buyer.iaid, request.signature, request.bwProfile,
    startingOn⟩ rfl
  unfold purchaseOffer
  rw [Tx.atomic_eq_error]
  refine ⟨⟨s.addPurchaseOrderRow ⟨0, available.id, buyer.iaid, request.signature,
    request.bwProfile, startingOn⟩, ?_⟩, rfl⟩
  rw [Tx.bind_apply_of_ok (Tx.liftM_eq_ok.mpr ⟨hbuyer, rfl⟩),
    Tx.bind_apply_of_ok (Tx.liftM_eq_ok.mpr ⟨hprofile, rfl⟩)]
  dsimp only
  rw [Tx.bind_apply_of_ok (insertPurchaseOrder_eq_ok.mpr ⟨hunsold, rfl, rfl⟩),
    Tx.bind_apply_of_ok (Tx.liftM_eq_ok.mpr ⟨hsigned, rfl⟩),
    Tx.bind_apply_of_ok (Tx.read_eq_ok.mpr ⟨rfl, rfl⟩),
    Tx.bind_apply_of_error (Tx.liftM_eq_error.mpr ⟨haddr, rfl⟩)]

/-- A request that passes its checks is refused with the exception of the port search. -/
lemma purchaseWith_error_of_address {amb : Ambient C} {request : PurchaseRequest}
    {getter : Store → Except Exc (Offer × Offer)} {requested available : Offer} {template : String}
    (hget : getter s = .ok (requested, available))
    (hchecks : PassesChecks C reg s request requested available)
    (hunsold : ∀ x ∈ s.purchaseOrders, x.offer ≠ available.id)
    (haddress : ∀ po : PurchaseOrder, po.offer = available.id →
      findAvailableBrAddress (s.addPurchaseOrderRow po) available = .error (noFreePort template)) :
    purchaseWith C reg amb request getter s =
      (.error (.marketServiceErrorFrom (noFreePort template)), s) := by
  obtain ⟨startingOn, buyer, profile, htime, hbuyer, hprofile, hsigned⟩ := hchecks.checks
  have hoffer : purchaseOffer C reg amb _ _ _ _ _ _ s = _ :=
    purchaseOffer_error_of_address hbuyer hprofile hunsold hsigned haddress
  have hbody : purchaseTransactionBody C reg amb request getter s =
      (.error (noFreePort template), s) := by
    rw [purchaseTransactionBody, Tx.bind_apply_of_ok (Tx.read_eq_ok.mpr ⟨rfl, rfl⟩),
      Tx.bind_apply_of_ok (Tx.liftM_eq_ok.mpr ⟨hget, rfl⟩),
      Tx.bind_apply_of_ok (Tx.liftM_eq_ok.mpr ⟨hchecks.same_offer, rfl⟩),
      if_pos (by simp [pbCompareMessages]),
      Tx.bind_apply_of_ok (Tx.liftM_eq_ok.mpr ⟨htime, rfl⟩), Tx.bind_apply_of_error hoffer]
  have htx : purchaseTransaction C reg amb request getter s = (.error (noFreePort template), s) :=
    Tx.atomic_eq_error.mpr ⟨⟨s, hbody⟩, rfl⟩
  rw [purchaseWith, Tx.mapError_eq_error]
  exact ⟨noFreePort template, Tx.bind_apply_of_error htx, rfl⟩

namespace Represents

/-- A chain's contracts, in its order, are those of its sales. -/
lemma contractsAlong_eq (h : Represents s cs) {c : Chain C reg} (hc : c ∈ cs) :
    s.contractsAlong c.offers = c.contracts := by
  have hnone : ∀ o, s.isSold o = false → (s.contractFor o).toOption = none := by
    intro o ho
    have hfind : s.purchaseOrders.find? (·.offer = o.id) = none := by
      rw [Store.isSold, List.any_eq_false] at ho
      exact List.find?_eq_none.mpr ho
    simp [Store.contractFor, Store.purchaseOrderOf, hfind, bind, Except.bind, Except.toOption]
  have hsome : ∀ x ∈ c.sales, (s.contractFor x.offer).toOption = some x.contract := by
    intro x hx
    simp [Store.contractFor, Store.purchaseOrderOf, h.find_order_of_offer hc hx, Store.contractOf,
      h.find_contract_of_order hc hx, bind, Except.bind, Except.toOption]
  rw [Store.contractsAlong, Chain.offers, chainOffers, List.filterMap_cons,
    hnone _ (h.not_isSold_head hc), List.filterMap_append, List.filterMap_map,
    List.filterMap_cons, hnone _ (h.not_isSold_last hc), List.filterMap_nil, List.append_nil,
    Chain.contracts, ← List.filterMap_eq_map]
  exact List.filterMap_congr hsome

/-- The address search at the end of a chain, whatever purchase order was just inserted. -/
lemma findAvailableBrAddress_eq (h : Represents s cs) {c : Chain C reg} (hc : c ∈ cs)
    {ip : IPAddress} {lo hi : ℤ}
    (htemplate : ipPortRangeFromStr c.head.brAddressTemplate = .ok (ip, lo, hi))
    {po : PurchaseOrder} (hpo : po.offer = c.last.id) :
    findAvailableBrAddress (s.addPurchaseOrderRow po) c.last =
      if c.sales.length = hi - lo + 1 then .error (noFreePort c.head.brAddressTemplate)
      else .ok (ipPortToStr ip (lo + c.sales.length)) := by
  obtain ⟨hip, hlo, hle, hhi⟩ := ipPortRangeFromStr_ok htemplate
  have hconsecutive := c.history.consecutive htemplate
  have hterms : c.last.brAddressTemplate = c.head.brAddressTemplate := by
    rw [c.history.sameTerms c.last c.last_mem]
  have hport := History.portAfter_eq hip hlo hhi hconsecutive
  have hlen : (c.sales.length : ℤ) ≤ hi - lo + 1 := by
    rcases List.eq_nil_or_concat c.sales with hnil | ⟨init, x, hsales⟩
    · rw [hnil]
      simp
      omega
    · have hmax := (hconsecutive init.length x (by simp [hsales])).2
      rw [hsales, List.concat_eq_append, List.length_append, List.length_singleton]
      omega
  rw [findAvailableBrAddress, hterms, htemplate]
  simp only [bind, Except.bind]
  rw [h.nextPort_eq hc hpo, hport]
  dsimp only
  by_cases hfull : (c.sales.length : ℤ) = hi - lo + 1
  · rw [if_pos hfull, if_pos (by omega)]
    rfl
  · rw [if_neg hfull, if_neg (by omega)]
    rfl

/-- The contracts of a chain have the ports of its template, one after the other. -/
lemma assignsPorts (h : Represents s cs) {c : Chain C reg} (hc : c ∈ cs) {ip : IPAddress}
    {lo hi : ℤ} (htemplate : ipPortRangeFromStr c.head.brAddressTemplate = .ok (ip, lo, hi)) :
    s.AssignsPorts C reg c.head ip lo hi := by
  obtain ⟨hip, hlo, -, hhi⟩ := ipPortRangeFromStr_ok htemplate
  have hconsecutive := c.history.consecutive htemplate
  have halong : s.contractsAlong (s.chainOf c.head) = c.contracts := by
    rw [h.chainOf_eq hc, h.contractsAlong_eq hc]
  have hlength : (s.contractsAlong (s.chainOf c.head)).length = c.sales.length := by
    rw [halong, Chain.contracts, List.length_map]
  have haddress : ∀ (k : ℕ) (a : Contract), c.contracts[k]? = some a →
      a.brAddress = ipPortToStr ip (lo + k) ∧ lo + k ≤ hi ∧
        ipPortFromStr a.brAddress = .ok (ip, lo + k) := by
    intro k a hk
    rw [Chain.contracts, List.getElem?_map, Option.map_eq_some_iff] at hk
    obtain ⟨x, hx, rfl⟩ := hk
    obtain ⟨haddr, hmax⟩ := hconsecutive k x hx
    refine ⟨haddr, hmax, ?_⟩
    rw [haddr, ipPortFromStr_ipPortToStr hip (by omega) (by omega)]
  exact {
    complete := by
      rw [halong, h.chainOf_eq hc]
      exact (h.contractsOf_perm hc).symm
    address := by
      rw [halong]
      exact haddress
    distinct := by
      rw [halong]
      refine List.pairwise_iff_getElem.mpr fun i j hi hj hij heq => ?_
      rw [List.getElem_map, List.getElem_map] at heq
      rw [List.length_map] at hi hj
      have hi' := (haddress i _ (List.getElem?_eq_getElem hi)).2.2
      have hj' := (haddress j _ (List.getElem?_eq_getElem hj)).2.2
      rw [heq, hj', Except.ok.injEq, Prod.mk.injEq] at hi'
      omega
    next := by
      intro last hlast po hpo
      rw [h.chainOf_eq hc, Chain.offers, getLast_chainOffers, Option.some.injEq] at hlast
      rw [hlength]
      subst hlast
      exact h.findAvailableBrAddress_eq hc htemplate hpo
    exhausted := by
      intro hfull call exact request hcall o ho hid
      rw [hlength] at hfull
      rw [h.chainOf_eq hc] at ho
      have hnone : ∀ po : PurchaseOrder, po.offer = c.last.id →
          findAvailableBrAddress (s.addPurchaseOrderRow po) c.last =
            .error (noFreePort c.head.brAddressTemplate) := by
        intro po hpo
        rw [h.findAvailableBrAddress_eq hc htemplate hpo, if_pos hfull]
      have hserved : ∀ r a, offersGetter exact request s = .ok (r, a) → a = c.last := by
        intro r a hget
        obtain ⟨c', hc', hr, rfl, hid', -⟩ := servesLast_offersGetter h exact request r a hget
        have hsame : r.id = o.id := by exact_mod_cast hid'.trans hid.symm
        rw [h.chain_eq hc' hc hr ho hsame]
      rw [serve_purchase hcall]
      rcases purchaseWith_outcome h hcall (servesLast_offersGetter h exact request) with
        ⟨m, s', hm, -⟩ | ⟨e, he⟩
      · -- a sale would have found an address
        rw [purchaseWith, Tx.mapError_eq_ok] at hm
        obtain ⟨k, s₁, htx, -⟩ := Tx.bind_eq_ok.mp hm
        obtain ⟨r, a, po, new, hget, hsale, -⟩ := purchaseTransaction_eq_ok.mp htx
        obtain ⟨startingOn, -, hp⟩ := hsale.purchase
        obtain rfl := hserved r a hget
        have haddr := hp.address
        rw [hnone po (by rw [hp.order_eq])] at haddr
        simp at haddr
      · rw [Tx.bind_apply_of_error he]
        refine ⟨e, rfl, fun requested available hget hchecks => ?_⟩
        obtain rfl := hserved requested available hget
        have hunsold : ∀ x ∈ s.purchaseOrders, x.offer ≠ c.last.id := by
          have hsold := h.not_isSold_last hc
          rw [Store.isSold, List.any_eq_false] at hsold
          simpa using hsold
        rw [purchaseWith_error_of_address hget hchecks hunsold hnone, Prod.mk.injEq,
          Except.error.injEq] at he
        exact he.1.symm }

/-- The template of every chain denotes an address with a range of ports, which its contracts
take one after the other. -/
lemma exists_assignsPorts (h : Represents s cs) {c : Chain C reg} (hc : c ∈ cs) :
    ∃ ip lo hi, ipPortRangeFromStr c.head.brAddressTemplate = .ok (ip, lo, hi) ∧ 0 ≤ lo ∧
      lo ≤ hi ∧ hi ≤ 65534 ∧ s.AssignsPorts C reg c.head ip lo hi := by
  obtain ⟨copy, hlisted⟩ := c.history.isListed
  obtain ⟨s₀, hvalid⟩ := hlisted.valid
  obtain ⟨-, -, -, ⟨ip, lo, hi⟩, htemplate⟩ :=
    Offer.checkLifespan_eq_ok.mp (Offer.preSave_eq_ok.mp hvalid).2
  obtain ⟨-, hlo, hle, hhi⟩ := ipPortRangeFromStr_ok htemplate
  exact ⟨ip, lo, hi, htemplate, hlo, hle, hhi, h.assignsPorts hc htemplate⟩

end Represents

/-- **Ports.**  After every run, in the chain of every accepted `AddOffer`, whose template always
denotes an address with a range of ports up to 65534, the contracts have the ports of the range
one after the other, and purchases are refused for lack of ports exactly when all are taken. -/
theorem run_assignsPorts (C : Crypto) (reg : Registry) (calls : List (Call C)) :
    List.Forall₂ (fun e head => CreatedFrom e.1 head ∧
        ∃ ip lo hi, ipPortRangeFromStr head.brAddressTemplate = .ok (ip, lo, hi) ∧ 0 ≤ lo ∧
          lo ≤ hi ∧ hi ≤ 65534 ∧ (run C reg calls).2.AssignsPorts C reg head ip lo hi)
      ((run C reg calls).1.filterMap Event.listing?) (run C reg calls).2.heads := by
  obtain ⟨cs, hexplains⟩ := exists_chains C reg calls
  have h := hexplains.represents
  have hall := (List.forall₂_and_left _ _).mpr
    ⟨fun c hc => h.exists_assignsPorts hc, hexplains.listings.flip⟩
  rw [h.heads_eq, List.forall₂_map_right_iff]
  exact List.Forall₂.flip (hall.imp fun c e ⟨hports, hstarted⟩ => ⟨hstarted.1, hports⟩)

end Esdx
