import Esdx.Market.Replay

/-!
# Checking a contract

A contract message carries the offer that was sold, while the broker signs the contract over the
offer that was requested.  The two are the same after `Purchase`; after `PurchaseEquivalent` the
offer sold can be a later one of the same chain.
-/

namespace Esdx

/-- The signed bytes of a contract, built from the fields of its message and an offer. -/
def contractMessageBytes (m : ContractMessage) (offer : OfferSpecification) : Except Exc Bytes := do
  let offerBytes ← offerSpecificationSerializeToBytes offer true
  let order ← purchaseOrderFieldsSerializeToBytes offerBytes m.buyerIaid m.buyerBwProfile
    m.buyerStartingOn.seconds
  contractFieldsSerializeToBytes order m.buyerSignature m.contractTimestamp.seconds m.brAddress

/-- The contract's signature verifies under the broker's certificate, over the bytes built from
the message and an offer. -/
def verifiesOver (C : Crypto) (reg : Registry) (m : ContractMessage)
    (offer : OfferSpecification) : Bool :=
  match reg.getBrokerCertificate C, contractMessageBytes m offer with
  | .ok cert, .ok data => C.verify cert m.contractSignature data
  | _, _ => false

variable {C : Crypto} {reg : Registry} {s : Store} {cs : List (Chain C reg)}

/-- The bytes signed in a sale are those of its message with the offer requested. -/
lemma contractMessageBytes_message (x : Sale) (requested : Offer) :
    contractMessageBytes x.message (ContractProtoSerializer.offerMessage requested) =
      x.contract.serializeToBytes x.order requested := by
  have hoffer : offerSpecificationSerializeToBytes
      (ContractProtoSerializer.offerMessage requested) true = requested.serializeToBytes true := rfl
  rw [contractMessageBytes, hoffer, Contract.serializeToBytes, PurchaseOrder.serializeToBytes]
  rcases requested.serializeToBytes true with e | b
  · rfl
  · rfl

/-- The signed bytes of a contract determine the bytes of the offer. -/
lemma contractMessageBytes_inj {m : ContractMessage} {offer offer' : OfferSpecification}
    {data : Bytes} (h : contractMessageBytes m offer = .ok data) :
    contractMessageBytes m offer' = .ok data ↔
      offerSpecificationSerializeToBytes offer' true =
        offerSpecificationSerializeToBytes offer true := by
  unfold contractMessageBytes purchaseOrderFieldsSerializeToBytes
    contractFieldsSerializeToBytes at h ⊢
  rcases hoffer : offerSpecificationSerializeToBytes offer true with e | b
  · simp [bind, Except.bind, hoffer] at h
  rcases hbw : encodeAscii m.buyerBwProfile with e | bw
  · simp [bind, Except.bind, hoffer, hbw] at h
  rcases hia : encodeAscii m.buyerIaid with e | ia
  · simp [bind, Except.bind, hoffer, hbw, hia] at h
  rcases hstart : encodeAscii (toString m.buyerStartingOn.seconds) with e | start
  · simp only [bind, Except.bind, hoffer, hbw, hia, hstart, reduceCtorEq] at h
  rcases htime : encodeAscii (toString m.contractTimestamp.seconds) with e | time
  · simp only [bind, Except.bind, pure, Except.pure, hoffer, hbw, hia, hstart, htime,
      reduceCtorEq] at h
  rcases haddr : encodeAscii m.brAddress with e | addr
  · simp only [bind, Except.bind, pure, Except.pure, hoffer, hbw, hia, hstart, htime, haddr,
      reduceCtorEq] at h
  simp only [bind, Except.bind, pure, Except.pure, hoffer, hbw, hia, hstart, htime, haddr,
    Except.ok.injEq] at h ⊢
  rcases offerSpecificationSerializeToBytes offer' true with e | b'
  · simp
  · simp only [← h, Except.ok.injEq, List.append_cancel_right_eq, List.append_cancel_left_eq]

/-- The broker's signature of a sale verifies over the offer requested, and over another offer
exactly when that has the same bytes. -/
lemma verifiesOver_message (hpair : BrokerPair C reg) {c : Chain C reg} {x : Sale}
    (hx : x ∈ c.sales) (offer : OfferSpecification) :
    verifiesOver C reg x.message offer = true ↔
      offerSpecificationSerializeToBytes offer true = x.requested.serializeToBytes true := by
  obtain ⟨pre, post, hsplit⟩ := List.append_of_mem hx
  obtain ⟨-, new, h⟩ := c.history.extends_of_sales_eq hsplit
  obtain ⟨key, salt, data, hkey, hdata, hsig⟩ := h.contract_sealed
  obtain ⟨cert, hcert⟩ : ∃ cert, reg.getBrokerCertificate C = .ok cert := by
    have hsigned := h.contract_signed
    unfold Contract.validateSignature at hsigned
    rcases hcert : reg.getBrokerCertificate C with e | cert
    · simp [hcert, bind, Except.bind] at hsigned
    · exact ⟨cert, rfl⟩
  have hbytes := contractMessageBytes_message x x.requested
  rw [hdata] at hbytes
  have hoffer : offerSpecificationSerializeToBytes
      (ContractProtoSerializer.offerMessage x.requested) true =
        x.requested.serializeToBytes true := rfl
  rw [← hoffer, ← contractMessageBytes_inj hbytes, verifiesOver, hcert]
  have hsignature : x.message.contractSignature = C.sign key salt data := hsig
  rcases hdata' : contractMessageBytes x.message offer with e | data'
  · simp
  · dsimp only
    rw [hsignature, hpair key cert hkey hcert salt data data', Except.ok.injEq]

/-- Where a contract was sold: its chain, the offer sold and the offer requested. -/
structure SoldFrom (s : Store) (tr : List (Event C)) (m : ContractMessage)
    (sold requested : Offer) : Prop where
  place : ∃ head ∈ s.heads, ∃ pre post, s.chainOf head = pre ++ sold :: post ∧
    requested ∈ pre ++ [sold]
  offer : m.offer = ContractProtoSerializer.offerMessage sold
  request : ∃ e ∈ tr.filterMap Event.purchase?, e.contract = m ∧
    OfferProtoSerializer.message requested = .ok e.request.offer ∧
    (e.exact = true → requested = sold)

/-- The sale behind every contract in the trace. -/
lemma Explains.soldFrom {tr : List (Event C)} (h : Explains tr s cs) {c : Chain C reg}
    (hc : c ∈ cs) {x : Sale} (hx : x ∈ c.sales) : SoldFrom s tr x.message x.offer x.requested where
  place := by
    obtain ⟨pre, post, hsplit⟩ := List.append_of_mem hx
    obtain ⟨-, new, hextends⟩ := c.history.extends_of_sales_eq hsplit
    refine ⟨c.head, ?_, c.head :: pre.map Sale.offer, post.map Sale.offer ++ [c.last], ?_, ?_⟩
    · rw [h.represents.heads_eq]
      exact List.mem_map_of_mem hc
    · rw [h.represents.chainOf_eq hc, Chain.offers, chainOffers, hsplit]
      simp
    · exact hextends.requested_mem
  offer := rfl
  request := by
    obtain ⟨xs, hxs, hcontracts⟩ := h.purchases
    have hk : x.contract ∈ xs.map Sale.contract := by
      rw [hcontracts]
      exact h.represents.mem_contracts.mpr ⟨c, hc, x, hx, rfl⟩
    obtain ⟨y, hy, hyx⟩ := List.mem_map.mp hk
    obtain ⟨e, he, hmade⟩ := Machine.exists_of_mem_forall₂ hxs.flip hy
    have hmade : MadeFor cs e y := hmade
    obtain ⟨c', hc', hyc'⟩ := hmade.sold
    obtain rfl : y = x := h.represents.sale_eq_of_contract hc' hc hyc' hx (by rw [hyx])
    exact ⟨e, he, hmade.answer, hmade.same_offer, hmade.exact_requested⟩

/-- **Checking a contract.**  Every contract that the market returns verifies over the bytes built
from its message and the offer named in the purchase request, an offer of the same chain at or
before the one sold.  It verifies over the message alone exactly when that offer has the same
bytes, as it always has after `Purchase`. -/
theorem run_verifiesOver (hpair : BrokerPair C reg) (calls : List (Call C)) :
    ∀ m ∈ (run C reg calls).1.filterMap Event.contract?,
      ∃ sold requested, SoldFrom (run C reg calls).2 (run C reg calls).1 m sold requested ∧
        verifiesOver C reg m (ContractProtoSerializer.offerMessage requested) = true ∧
        (verifiesOver C reg m m.offer = true ↔
          sold.serializeToBytes true = requested.serializeToBytes true) := by
  obtain ⟨cs, hexplains⟩ := exists_chains C reg calls
  intro m hm
  obtain ⟨c, hc, x, hx, rfl⟩ := hexplains.contracts m hm
  exact ⟨x.offer, x.requested, hexplains.soldFrom hc hx,
    (verifiesOver_message hpair hx _).mpr rfl, verifiesOver_message hpair hx _⟩

/-! ## Contracts checked from themselves -/

/-- The offer named in a `PurchaseEquivalent` has the same signed bytes as the one that it is
served from. -/
def NamesServed (call : Call C) (s : Store) : Prop :=
  ∀ request requested available, call.request = .purchaseEquivalent request →
    derivedOffers request s = .ok (requested, available) →
      requested.serializeToBytes true = available.serializeToBytes true

/-- The market refuses the call. -/
def Refused (reg : Registry) (call : Call C) (s : Store) : Prop :=
  ∃ e, (serve C reg call s).1 = .error e

/-- The contract of an accepted purchase was returned. -/
lemma mem_contracts_of_purchase {tr : List (Event C)} {e : Accepted}
    (he : e ∈ tr.filterMap Event.purchase?) : e.contract ∈ tr.filterMap Event.contract? := by
  obtain ⟨⟨call, answer⟩, hmem, hsome⟩ := List.mem_filterMap.mp he
  refine List.mem_filterMap.mpr ⟨_, hmem, ?_⟩
  unfold Event.purchase? at hsome
  unfold Event.contract?
  split at hsome
  · rw [← Option.some.inj hsome]
    simp_all
  · rw [← Option.some.inj hsome]
    simp_all
  · simp at hsome

/-- The message about a stored contract was returned before. -/
lemma Explains.mem_contracts {tr : List (Event C)} (h : Explains tr s cs) {k : Contract}
    (hk : k ∈ s.contracts) {m : ContractMessage}
    (hm : ContractProtoSerializer.message reg s k = .ok m) :
    m ∈ tr.filterMap Event.contract? := by
  obtain ⟨xs, hxs, hcontracts⟩ := h.purchases
  rw [← hcontracts] at hk
  obtain ⟨x, hx, rfl⟩ := List.mem_map.mp hk
  obtain ⟨e, he, hmade⟩ := Machine.exists_of_mem_forall₂ hxs.flip hx
  have hmade : MadeFor cs e x := hmade
  obtain ⟨c, hc, hxc⟩ := hmade.sold
  obtain rfl : m = x.message := Except.ok.inj (hm.symm.trans (h.represents.message_eq hc hxc))
  exact hmade.answer ▸ mem_contracts_of_purchase he

/-- The contract of a sale verifies from itself exactly when the offer requested has the bytes of
the offer sold. -/
lemma Represents.verifiesItself_iff (hpair : BrokerPair C reg) (h : Represents s cs)
    {c : Chain C reg} (hc : c ∈ cs) {amb : Ambient C} {request : PurchaseRequest}
    {requested new : Offer} {po : PurchaseOrder} {k : Contract} (hrequested : requested ∈ c.offers)
    (hsale : IsSale C reg amb request requested c.last s po k new) {m : ContractMessage}
    (hm : ContractProtoSerializer.message reg (s.addSale po k new) k = .ok m) :
    verifiesOver C reg m m.offer = true ↔
      requested.serializeToBytes true = c.last.serializeToBytes true := by
  obtain ⟨startingOn, -, hp⟩ := hsale.purchase
  have hx := hp.extends h hc hrequested
  obtain ⟨pre, post, rfl⟩ := List.append_of_mem hc
  have hmem : (⟨c.last, po, k, requested⟩ : Sale) ∈ (c.extend _ hx).sales := by simp [Chain.extend]
  obtain rfl : m = _ := Except.ok.inj (hm.symm.trans
    ((h.sell hx hp).message_eq (List.mem_append_right _ List.mem_cons_self) hmem))
  exact (verifiesOver_message hpair hmem _).trans eq_comm

/-- The offer that a sale requested is the one its call names. -/
lemma Represents.namesServed_iff (h : Represents s cs) {call : Call C} {exact : Bool}
    {request : PurchaseRequest} {c : Chain C reg} {requested : Offer}
    (hcall : call.request = if exact then .purchase request else .purchaseEquivalent request)
    (hc : c ∈ cs) (hrequested : requested ∈ c.offers)
    (hid : (requested.id : ℤ) = request.offer.id) (hexact : exact = true → requested = c.last) :
    NamesServed call s ↔ requested.serializeToBytes true = c.last.serializeToBytes true := by
  cases exact with
  | true =>
    rw [hexact rfl]
    refine iff_of_true (fun r _ _ hr => ?_) rfl
    simp [hcall] at hr
  | false =>
    have hserved : derivedOffers request s = .ok (requested, c.last) := by
      rw [derivedOffers, ← hid, h.getDerived_eq hc hrequested]
    constructor
    · exact fun hnames => hnames request requested c.last hcall hserved
    · intro hbytes r requested' available hr hderived
      obtain rfl : request = r := by simpa [hcall] using hr
      rw [hserved, Except.ok.injEq, Prod.mk.injEq] at hderived
      rw [← hderived.1, ← hderived.2]
      exact hbytes

/-- The contract that a call returns verifies from itself exactly when the call names the offer
that it is served from. -/
lemma Explains.verifiesItself_iff (hpair : BrokerPair C reg) {tr : List (Event C)}
    (h : Explains tr s cs) (call : Call C)
    (htr : ∀ m ∈ tr.filterMap Event.contract?, verifiesOver C reg m m.offer = true) :
    (∀ m ∈ Event.contract? (call, (Esdx.serve C reg call s).1),
        verifiesOver C reg m m.offer = true) ↔
      NamesServed call s ∨ Refused reg call s := by
  have hout := serve_outcome h.represents call
  unfold Refused
  generalize (Esdx.serve C reg call s).1 = answer at hout ⊢
  generalize (Esdx.serve C reg call s).2 = s' at hout
  have hquiet : ∀ {r : Request}, call.request = r → (∀ q, r ≠ .purchaseEquivalent q) →
      NamesServed call s := fun hcall hne q _ _ hq => absurd (hcall.symm.trans hq) (hne q)
  cases hout with
  | listed hcall => exact iff_of_true (by simp [Event.contract?]) (.inl (hquiet hcall (by simp)))
  | sold hcall hc hrequested hid hexact hsale hm =>
    rw [h.represents.namesServed_iff hcall hc hrequested hid hexact,
      ← h.represents.verifiesItself_iff hpair hc hrequested hsale hm]
    simp [Event.contract?]
  | shown hcall hk hm =>
    refine iff_of_true ?_ (.inl (hquiet hcall (by simp)))
    rintro _ ⟨rfl⟩
    exact htr _ (h.mem_contracts hk hm)
  | offered hcall => exact iff_of_true (by simp [Event.contract?]) (.inl (hquiet hcall (by simp)))
  | refused e => exact iff_of_true (by simp [Event.contract?]) (.inr ⟨e, rfl⟩)

/-- **Contracts checked from themselves.**  All contracts that a run returns verify from their own
fields exactly when every `PurchaseEquivalent` that the run accepts names an offer with the signed
bytes of the offer it is served from. -/
theorem run_verifiesItself_iff (hpair : BrokerPair C reg) (calls : List (Call C)) :
    (∀ m ∈ (run C reg calls).1.filterMap Event.contract?, verifiesOver C reg m m.offer = true) ↔
      EachCall C reg (fun call s => NamesServed call s ∨ Refused reg call s) calls := by
  induction calls using List.reverseRecOn with
  | nil =>
    exact iff_of_true (fun m hm => by simp [run, Machine.exec] at hm) fun _ _ _ h => by simp at h
  | append_singleton calls call ih =>
    obtain ⟨cs, hexplains⟩ := exists_chains C reg calls
    rw [eachCall_concat, ← ih, run_concat, List.filterMap_append]
    simp only [List.mem_append, or_imp, forall_and]
    refine and_congr_right fun htr => ?_
    rw [← hexplains.verifiesItself_iff hpair call htr]
    simp only [List.mem_filterMap, List.mem_singleton, exists_eq_left, Option.mem_def]

/-! ## A contract that does not verify from itself -/

namespace SmallMarket

/-- The key and the certificate of the broker are the same letter. -/
lemma brokerPair : BrokerPair Crypto.transparent registry := by
  intro key cert hkey hcert
  have hkey : (.ok 'k' : Except Exc Char) = .ok key := hkey
  have hcert : (.ok 'k' : Except Exc Char) = .ok cert := hcert
  obtain rfl := Except.ok.inj hkey
  obtain rfl := Except.ok.inj hcert
  exact Crypto.transparent_pair 'k'

/-- Two purchases that name the offer with id 2. -/
def boughtTwice : List (Call Crypto.transparent) :=
  offering "10.1.1.1:50-51" ::
    (request (storeAfter [offering "10.1.1.1:50-51"]) 2).toList.flatMap fun r =>
      [⟨amb, .purchaseEquivalent r⟩, ⟨amb, .purchaseEquivalent r⟩]

/-- The second of the contracts does not verify from itself. -/
lemma boughtTwice_verify :
    (((run Crypto.transparent registry boughtTwice).1.filterMap Event.contract?).map fun m =>
      verifiesOver Crypto.transparent registry m m.offer) = [true, false] := by
  decide +kernel

/-- The contracts of the two purchases do not all verify from themselves. -/
lemma boughtTwice_not_all :
    ¬∀ m ∈ (run Crypto.transparent registry boughtTwice).1.filterMap Event.contract?,
      verifiesOver Crypto.transparent registry m m.offer = true := by
  intro h
  have hall : ∀ b ∈ [true, false], b = true := by
    rw [← boughtTwice_verify]
    intro b hb
    obtain ⟨m, hm, rfl⟩ := List.mem_map.mp hb
    exact h m hm
  exact absurd (hall false (by simp)) (by decide)

end SmallMarket

/-- A run in which an accepted `PurchaseEquivalent` is served from another offer than the one
named. -/
theorem run_verifiesItself_iff_boughtTwice :
    ¬EachCall Crypto.transparent SmallMarket.registry
      (fun call s => NamesServed call s ∨ Refused SmallMarket.registry call s)
      SmallMarket.boughtTwice := fun h =>
  SmallMarket.boughtTwice_not_all
    ((run_verifiesItself_iff SmallMarket.brokerPair SmallMarket.boughtTwice).mpr h)

/-- Not every contract verifies from itself. -/
theorem not_run_verifiesItself :
    ¬∀ (C : Crypto) (reg : Registry) (calls : List (Call C)), BrokerPair C reg →
      ∀ m ∈ (run C reg calls).1.filterMap Event.contract?,
        verifiesOver C reg m m.offer = true := fun h =>
  SmallMarket.boughtTwice_not_all (h _ _ SmallMarket.boughtTwice SmallMarket.brokerPair)

end Esdx
