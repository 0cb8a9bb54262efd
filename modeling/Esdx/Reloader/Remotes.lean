import Esdx.Market.Signatures
import Esdx.Reloader.Refinement

/-!
# Remote addresses in the topologies

`deactivate` finds the interface of a contract by the remote address alone, and its comment says
that the address is unique.  The market gives every contract the next port of the template of its
own chain, and nothing keeps the templates of different chains apart.
-/

namespace Esdx

open InetAddress

variable {C : Crypto} {reg : Registry} {s : Store} {cs : List (Chain C reg)}

/-! ## The contracts of an AS -/

/-- The messages about the contracts of the store. -/
def Store.messages (reg : Registry) (s : Store) : List ContractMessage :=
  s.contracts.filterMap fun k => (ContractProtoSerializer.message reg s k).toOption

/-- The AS is the seller or the buyer. -/
def ContractMessage.Concerns (m : ContractMessage) (ia : String) : Prop :=
  m.offer.iaid = ia ∨ m.buyerIaid = ia

instance (m : ContractMessage) (ia : String) : Decidable (m.Concerns ia) :=
  inferInstanceAs (Decidable (_ ∨ _))

/-- The contracts of every AS have distinct addresses. -/
def RemoteUnique (reg : Registry) (s : Store) : Prop :=
  (s.messages reg).Pairwise fun m m' =>
    ∀ ia, m.Concerns ia → m'.Concerns ia → m.brAddress ≠ m'.brAddress

/-- No contract of the seller or of the buyer has the address that comes next in the chain named in
a purchase: that of the lowest port of the template plus the number of contracts so far. -/
def NextAddressFree (reg : Registry) (call : Call C) (s : Store) : Prop :=
  ∀ (exact : Bool) (request : PurchaseRequest),
    (call.request = if exact then .purchase request else .purchaseEquivalent request) →
    ∀ head ∈ s.heads, ∀ o ∈ s.chainOf head, (o.id : ℤ) = request.offer.id →
    ∀ ip lo hi, ipPortRangeFromStr head.brAddressTemplate = .ok (ip, lo, hi) →
    ∀ m ∈ s.messages reg, m.Concerns head.iaid ∨ m.Concerns request.buyerIaid →
      m.brAddress ≠ ipPortToStr ip (lo + (s.contractsAlong (s.chainOf head)).length)

/-- The contracts of a store are the answers to the accepted purchases. -/
lemma Explains.messages_eq {tr : List (Event C)} (h : Explains tr s cs) :
    s.messages reg = (tr.filterMap Event.purchase?).map Accepted.contract := by
  obtain ⟨xs, hxs, hcontracts⟩ := h.purchases
  have hmessage : ∀ x ∈ xs,
      (ContractProtoSerializer.message reg s x.contract).toOption = some x.message := by
    intro x hx
    obtain ⟨e, -, hmade⟩ := Machine.exists_of_mem_forall₂ hxs.flip hx
    have hmade : MadeFor cs e x := hmade
    obtain ⟨c, hc, hxc⟩ := hmade.sold
    rw [h.represents.message_eq hc hxc]
    rfl
  have hanswers : (tr.filterMap Event.purchase?).map Accepted.contract = xs.map Sale.message := by
    rw [← List.forall₂_eq_eq_eq, List.forall₂_map_left_iff, List.forall₂_map_right_iff]
    exact hxs.imp fun _ _ hmade => hmade.answer
  rw [Store.messages, ← hcontracts, List.filterMap_map, hanswers, ← List.filterMap_eq_map]
  exact List.filterMap_congr hmessage

/-! ## The address of the next contract -/

/-- A sale is answered with the next address of its chain, to the seller and the buyer. -/
lemma Represents.message_of_sale (h : Represents s cs) {c : Chain C reg} (hc : c ∈ cs)
    {amb : Ambient C} {request : PurchaseRequest} {requested new : Offer} {po : PurchaseOrder}
    {k : Contract} (hrequested : requested ∈ c.offers)
    (hsale : IsSale C reg amb request requested c.last s po k new) {m : ContractMessage}
    (hm : ContractProtoSerializer.message reg (s.addSale po k new) k = .ok m) :
    m.offer.iaid = c.head.iaid ∧ m.buyerIaid = request.buyerIaid ∧
      ∀ ip lo hi, ipPortRangeFromStr c.head.brAddressTemplate = .ok (ip, lo, hi) →
        m.brAddress = ipPortToStr ip (lo + c.sales.length) := by
  obtain ⟨startingOn, -, hp⟩ := hsale.purchase
  have hx := hp.extends h hc hrequested
  obtain rfl : m = _ := Except.ok.inj (hm.symm.trans (h.message_of_purchase hc hrequested hp))
  have hterms := c.history.sameTerms c.last c.last_mem
  refine ⟨?_, ?_, fun ip lo hi htemplate => ?_⟩
  · change c.last.iaid = c.head.iaid
    rw [hterms]
  · change po.buyer = request.buyerIaid
    rw [hp.order_eq]
  · exact ((c.extend _ hx).history.consecutive htemplate c.sales.length
      ⟨c.last, po, k, requested⟩ (by simp [Chain.extend])).1

/-- The contract of a sale clashes with no other exactly when its address was free. -/
lemma Represents.nextAddressFree_iff (h : Represents s cs) {call : Call C} {exact : Bool}
    {request : PurchaseRequest} {c : Chain C reg} {requested : Offer}
    (hcall : call.request = if exact then .purchase request else .purchaseEquivalent request)
    (hc : c ∈ cs) (hrequested : requested ∈ c.offers)
    (hid : (requested.id : ℤ) = request.offer.id) {m : ContractMessage}
    (hseller : m.offer.iaid = c.head.iaid) (hbuyer : m.buyerIaid = request.buyerIaid)
    (haddress : ∀ ip lo hi, ipPortRangeFromStr c.head.brAddressTemplate = .ok (ip, lo, hi) →
      m.brAddress = ipPortToStr ip (lo + c.sales.length)) :
    NextAddressFree reg call s ↔ ∀ m' ∈ s.messages reg,
      ∀ ia, m'.Concerns ia → m.Concerns ia → m'.brAddress ≠ m.brAddress := by
  have hlength : (s.contractsAlong (s.chainOf c.head)).length = c.sales.length := by
    rw [h.chainOf_eq hc, h.contractsAlong_eq hc, Chain.contracts, List.length_map]
  constructor
  · intro hfree m' hm' ia hia hia'
    obtain ⟨ip, lo, hi, htemplate, -⟩ := h.exists_assignsPorts hc
    rw [haddress ip lo hi htemplate, ← hlength]
    refine hfree exact request hcall c.head ?_ requested ?_ hid ip lo hi htemplate m' hm' ?_
    · rw [h.heads_eq]
      exact List.mem_map_of_mem hc
    · rwa [h.chainOf_eq hc]
    · rw [← hseller, ← hbuyer]
      rcases hia' with rfl | rfl
      · exact .inl hia
      · exact .inr hia
  · intro hclash exact' request' hcall' head hhead o ho ho' ip lo hi htemplate m' hm' hparty
    obtain rfl : request = request' := by
      cases exact <;> cases exact' <;> simp_all
    rw [h.heads_eq] at hhead
    obtain ⟨c', hc', rfl⟩ := List.mem_map.mp hhead
    rw [h.chainOf_eq hc'] at ho
    have hsame : o.id = requested.id := by exact_mod_cast ho'.trans hid.symm
    obtain rfl := h.chain_eq hc' hc ho hrequested hsame
    rw [hlength, ← haddress ip lo hi htemplate]
    rcases hparty with hparty | hparty
    · exact hclash m' hm' _ hparty (.inl hseller)
    · exact hclash m' hm' _ hparty (.inr hbuyer)

/-- A call keeps the addresses unique exactly when it is refused or its address was free. -/
lemma Explains.clashes_iff {tr : List (Event C)} (h : Explains tr s cs) (call : Call C) :
    (∀ m' ∈ s.messages reg, ∀ e ∈ Event.purchase? (call, (Esdx.serve C reg call s).1),
      ∀ ia, m'.Concerns ia → e.contract.Concerns ia → m'.brAddress ≠ e.contract.brAddress) ↔
      NextAddressFree reg call s ∨ Refused reg call s := by
  have hout := serve_outcome h.represents call
  unfold Refused
  generalize (Esdx.serve C reg call s).1 = answer at hout ⊢
  generalize (Esdx.serve C reg call s).2 = s' at hout
  have hquiet : ∀ {r : Request}, call.request = r →
      (∀ (exact : Bool) q, r ≠ if exact then .purchase q else .purchaseEquivalent q) →
      NextAddressFree reg call s := fun hcall hne exact q hq =>
    absurd (hcall.symm.trans hq) (hne exact q)
  cases hout with
  | listed hcall =>
    refine iff_of_true (by simp [Event.purchase?]) (.inl (hquiet hcall ?_))
    intro exact q
    cases exact <;> simp
  | sold hcall hc hrequested hid hexact hsale hm =>
    rename_i exact request m c requested new po k
    obtain ⟨hseller, hbuyer, haddress⟩ := h.represents.message_of_sale hc hrequested hsale hm
    rw [h.represents.nextAddressFree_iff hcall hc hrequested hid hseller hbuyer haddress]
    have hpurchase : Event.purchase? ((call, .ok (.contract m)) : Event C) =
        some ⟨exact, request, m⟩ := by
      cases exact <;> simp [Event.purchase?, hcall]
    simp [hpurchase]
  | shown hcall hk hm =>
    refine iff_of_true (by simp [Event.purchase?, hcall]) (.inl (hquiet hcall ?_))
    intro exact q
    cases exact <;> simp
  | offered hcall =>
    refine iff_of_true (by simp [Event.purchase?]) (.inl (hquiet hcall ?_))
    intro exact q
    cases exact <;> simp
  | refused e => exact iff_of_true (by simp [Event.purchase?]) (.inr ⟨e, rfl⟩)

/-- The addresses stay unique exactly when no accepted purchase takes one that is in use. -/
lemma remoteUnique_iff (calls : List (Call C)) : RemoteUnique reg (run C reg calls).2 ↔
    EachCall C reg (fun call s => NextAddressFree reg call s ∨ Refused reg call s) calls := by
  induction calls using List.reverseRecOn with
  | nil =>
    exact iff_of_true List.Pairwise.nil fun _ _ _ h => by simp at h
  | append_singleton calls call ih =>
    obtain ⟨cs, hexplains⟩ := exists_chains C reg calls
    obtain ⟨cs', hexplains'⟩ := exists_chains C reg (calls ++ [call])
    rw [eachCall_concat, ← ih, ← hexplains.clashes_iff, RemoteUnique, hexplains'.messages_eq,
      run_concat, List.filterMap_append, List.map_append, ← hexplains.messages_eq,
      List.pairwise_append]
    refine and_congr_right fun _ => ?_
    rcases hpurchase : Event.purchase? (call, (serve C reg call (run C reg calls).2).1) with _ | e
    · simp [hpurchase]
    · simp [hpurchase]

/-! ## The interface of a contract -/

/-- Where the addresses of an AS are unique, `deactivate` takes out the interface of its contract
and no other. -/
lemma RemoteUnique.deactivate (h : RemoteUnique reg s) {J : Type} {start t : Topo J}
    {active : List ContractMessage} {esdx : List (String × Interface J)}
    (hrefines : Refines start t active esdx) (hactive : ∀ c ∈ active, c ∈ s.messages reg)
    {c : ContractMessage} (hc : c ∈ active)
    (hstart : ∀ e ∈ start.interfaces, e.2.remote ≠ c.brAddress) :
    ∃ t' esdx', Topology.deactivated c t = .ok t' ∧ Refines start t' (active.erase c) esdx' := by
  have hconcerns : ∀ c' ∈ active, c'.Concerns start.isdAs := by
    intro c' hc'
    obtain ⟨e, -, hstands⟩ := Machine.exists_of_mem_forall₂ hrefines.standsFor.flip hc'
    have hstands : StandsFor start.isdAs e c' := hstands
    rcases hstands.party with ⟨hseller, -⟩ | ⟨-, hbuyer, -⟩
    · exact .inl hseller.symm
    · exact .inr hbuyer.symm
  refine hrefines.deactivate_mem hc (fun c' hc' heq => ?_) hstart
  by_contra hne
  have hsymm : Std.Symm fun m m' : ContractMessage =>
      ∀ ia, m.Concerns ia → m'.Concerns ia → m.brAddress ≠ m'.brAddress :=
    ⟨fun m m' hmm' ia hia hia' => (hmm' ia hia' hia).symm⟩
  exact h.forall (hactive c' hc') (hactive c hc) hne start.isdAs (hconcerns c' hc')
    (hconcerns c hc) heq

/-- **Remote addresses.**  After every run the contracts of every AS have distinct addresses exactly
when no accepted purchase takes an address that a contract of its seller or its buyer has.  Then
`deactivate` takes out the interface of its contract and no other. -/
theorem run_remoteUnique_iff (C : Crypto) (reg : Registry) (calls : List (Call C)) :
    ((run C reg calls).2.messages reg).length = (run C reg calls).2.contracts.length ∧
    (RemoteUnique reg (run C reg calls).2 ↔
      EachCall C reg (fun call s => NextAddressFree reg call s ∨ Refused reg call s) calls) ∧
    (EachCall C reg (fun call s => NextAddressFree reg call s ∨ Refused reg call s) calls →
      ∀ (J : Type) (start t : Topo J) (active : List ContractMessage)
        (esdx : List (String × Interface J)), Refines start t active esdx →
        (∀ c ∈ active, c ∈ (run C reg calls).2.messages reg) → ∀ c ∈ active,
        (∀ e ∈ start.interfaces, e.2.remote ≠ c.brAddress) →
        ∃ t' esdx', Topology.deactivated c t = .ok t' ∧
          Refines start t' (active.erase c) esdx') := by
  refine ⟨?_, remoteUnique_iff calls, fun h J start t active esdx hrefines hactive c hc hstart =>
    ((remoteUnique_iff calls).mpr h).deactivate hrefines hactive hc hstart⟩
  obtain ⟨cs, hexplains⟩ := exists_chains C reg calls
  obtain ⟨xs, hxs, hcontracts⟩ := hexplains.purchases
  rw [hexplains.messages_eq, ← hcontracts, List.length_map, List.length_map, hxs.length_eq]

/-! ## Two offers with one template -/

namespace SmallMarket

/-- The seller puts up two offers with one template, and the buyer buys from both. -/
def sameTemplate : List (Call Crypto.transparent) :=
  [offering "10.1.1.1:50-51", offering "10.1.1.1:50-51"] ++
    ([2, 4].filterMap (request (storeAfter
      [offering "10.1.1.1:50-51", offering "10.1.1.1:50-51"]))).map fun r => ⟨amb, .purchase r⟩

/-- The contracts of both purchases have the same address. -/
lemma sameTemplate_messages :
    (((storeAfter sameTemplate).messages registry).map fun m => (m.buyerIaid, m.brAddress)) =
      [("1-ff00:0:111", "10.1.1.1:50"), ("1-ff00:0:111", "10.1.1.1:50")] := by
  decide +kernel

end SmallMarket

/-- The contracts of an AS can have the same address. -/
theorem not_run_remoteUnique :
    ¬∀ (C : Crypto) (reg : Registry) (calls : List (Call C)),
      RemoteUnique reg (run C reg calls).2 := by
  intro h
  have hunique := h Crypto.transparent SmallMarket.registry SmallMarket.sameTemplate
  obtain ⟨m, l, hmessages, hm, hl⟩ := List.map_eq_cons_iff.mp SmallMarket.sameTemplate_messages
  obtain ⟨m', rfl, hm'⟩ := List.map_eq_singleton_iff.mp hl
  rw [SmallMarket.storeAfter] at hmessages
  rw [RemoteUnique, hmessages, List.pairwise_pair] at hunique
  obtain ⟨hbuyer, haddress⟩ := Prod.mk.inj hm
  obtain ⟨hbuyer', haddress'⟩ := Prod.mk.inj hm'
  exact hunique "1-ff00:0:111" (.inr hbuyer) (.inr hbuyer') (haddress.trans haddress'.symm)

end Esdx
