import Esdx.Market.Ports

/-!
# Requests submitted again

Nothing in the market remembers the purchase requests it has served.  `Purchase` wants the offer
of the request to be available, and after a purchase it no longer is; `PurchaseEquivalent` takes
the offer derived from it, so there the same request can be served again.
-/

namespace Esdx

open Table

/-- The contract has the buyer, profile, start and signature of the request. -/
def Store.madeFrom (s : Store) (request : PurchaseRequest) (k : Contract) : Bool :=
  match s.getPurchaseOrder k.purchaseOrder, timeFromPbTimestamp request.startingOn with
  | .ok po, .ok startingOn =>
    po.buyer = request.buyerIaid && po.bwProfile = request.bwProfile &&
      po.startingOn = startingOn && po.signature = request.signature
  | _, _ => false

variable {C : Crypto} {reg : Registry} {s : Store} {cs : List (Chain C reg)}

namespace Represents

/-- The contract of a sale that was made for a request has the fields of the request. -/
lemma madeFrom_of_sale (h : Represents s cs) {e : Accepted} {x : Sale} (hx : MadeFor cs e x) :
    s.madeFrom e.request x.contract = true := by
  obtain ⟨c, hc, hxc⟩ := hx.sold
  obtain ⟨hbuyer, hprofile, hsignature, htime⟩ := hx.order_eq
  rw [Store.madeFrom, h.getPurchaseOrder_of_sale hc hxc, htime]
  simp [hbuyer, hprofile, hsignature]

/-- Different sales of one chain together take no more than was offered. -/
lemma sum_bought_le (h : Represents s cs) {c : Chain C reg} (hc : c ∈ cs) {orig : List ℤ}
    (horig : csvToIntlist c.head.bwProfile = .ok orig) {xs : List Sale} (hxs : xs.Nodup)
    (hsub : xs ⊆ c.sales) (i : ℕ) :
    (xs.map fun x => s.bought c.head i x.contract).sum ≤ orig.getD i 0 := by
  obtain ⟨a, hinitial, -, hsold⟩ := c.history.exists_account
  obtain rfl : a.initial = orig := Except.ok.inj (hinitial.symm.trans horig)
  have hmap := h.map_bought hc hsold i
  obtain ⟨l, hperm, hsublist⟩ := List.subperm_of_subset hxs hsub
  calc (xs.map fun x => s.bought c.head i x.contract).sum
      = (l.map fun x => s.bought c.head i x.contract).sum := (hperm.symm.map _).sum_eq
    _ ≤ (c.sales.map fun x => s.bought c.head i x.contract).sum := by
        refine List.Sublist.sum_le_sum (hsublist.map _) fun z hz => ?_
        rw [hmap] at hz
        obtain ⟨w, hw, rfl⟩ := List.mem_map.mp hz
        exact a.sold_nonneg w hw i
    _ = (a.sold.map fun w => Window.amount w.1 w.2 i).sum := by rw [hmap]
    _ ≤ a.initial.getD i 0 := a.sum_sold_le i

end Represents

/-- The accepted submissions of one request together buy no more than the seller offered. -/
lemma Explains.submissions_le {tr : List (Event C)} (h : Explains tr s cs)
    {request : PurchaseRequest} {e : Accepted}
    (he : e ∈ (tr.filterMap Event.purchase?).filter (·.request = request)) :
    ∃ head ∈ s.heads, ∃ orig q startingOn,
      csvToIntlist head.bwProfile = .ok orig ∧ csvToIntlist request.bwProfile = .ok q ∧
      timeFromPbTimestamp request.startingOn = .ok startingOn ∧ q.sum ≠ 0 ∧
      ∀ i, ((tr.filterMap Event.purchase?).filter (·.request = request)).length *
        Window.amount (head.offsetOf startingOn) q i ≤ orig.getD i 0 := by
  obtain ⟨all, hall, hcontracts⟩ := h.purchases
  have hnodup : all.Nodup := List.Nodup.of_map Sale.contract
    (hcontracts ▸ h.represents.contract_keys.nodup.of_map _)
  obtain ⟨xs, hsublist, hxs⟩ := Machine.exists_sublist_forall₂_filter hall
    fun e : Accepted => e.request = request
  -- every sale in `xs` was made for the request
  have hmade : ∀ x ∈ xs, ∃ e, e.request = request ∧ MadeFor cs e x := by
    intro x hx
    obtain ⟨e, he, hex⟩ := Machine.exists_of_mem_forall₂ hxs.flip hx
    exact ⟨e, by simpa using List.of_mem_filter he, hex⟩
  obtain ⟨x, hx, hex⟩ := Machine.exists_of_mem_forall₂ hxs he
  have hrequest : e.request = request := by simpa using List.of_mem_filter he
  obtain ⟨c, hc, hxc⟩ := hex.sold
  obtain ⟨a, hinitial, -, hsold⟩ := c.history.exists_account
  obtain ⟨w, -, -, -, -, hq, hsum⟩ := Machine.exists_of_mem_forall₂ hsold hxc
  have horder := hex.order_eq
  rw [hrequest] at horder
  have hchain : ∀ y ∈ xs, y ∈ c.sales := by
    intro y hy
    obtain ⟨e', he', hey⟩ := hmade y hy
    obtain ⟨c', hc', hyc'⟩ := hey.sold
    have hid : y.requested.id = x.requested.id := by
      have hy' := hey.same_id
      rw [he', ← hrequest, ← hex.same_id] at hy'
      exact_mod_cast hy'
    obtain rfl := h.represents.chain_eq hc' hc (Chain.requested_mem_offers hyc')
      (Chain.requested_mem_offers hxc) hid
    exact hyc'
  refine ⟨c.head, ?_, a.initial, w.2, x.order.startingOn, hinitial, ?_, horder.2.2.2, hsum, ?_⟩
  · rw [h.represents.heads_eq]
    exact List.mem_map_of_mem hc
  · rw [← horder.2.1]
    exact hq
  · intro i
    have hle := h.represents.sum_bought_le hc hinitial (hsublist.nodup hnodup) hchain i
    have hsame : ∀ z ∈ xs.map (fun y => s.bought c.head i y.contract),
        z = Window.amount (c.head.offsetOf x.order.startingOn) w.2 i := by
      intro z hz
      obtain ⟨y, hy, rfl⟩ := List.mem_map.mp hz
      obtain ⟨e', he', hey⟩ := hmade y hy
      obtain ⟨-, hprofile, -, htime⟩ := hey.order_eq
      rw [he'] at hprofile htime
      have hstart : y.order.startingOn = x.order.startingOn :=
        Except.ok.inj (htime.symm.trans horder.2.2.2)
      rw [← hstart]
      refine h.represents.bought_of_sale hc (hchain y hy) ?_ i
      rw [hprofile, ← horder.2.1]
      exact hq
    rw [List.sum_eq_card_nsmul _ _ hsame, List.length_map, ← hxs.length_eq, nsmul_eq_mul] at hle
    exact hle

/-- **Requests submitted again.**  Every accepted submission makes one contract.  Among the
accepted submissions of one request only the first can be a `Purchase`, and all of them together
buy no more than the seller offered. -/
theorem run_purchases (C : Crypto) (reg : Registry) (calls : List (Call C)) :
    List.Forall₂ (fun e k => e.contract.contractId = k.id ∧
        (run C reg calls).2.madeFrom e.request k = true)
      ((run C reg calls).1.filterMap Event.purchase?) (run C reg calls).2.contracts ∧
    ∀ request, ∀ accepted, accepted =
        ((run C reg calls).1.filterMap Event.purchase?).filter (·.request = request) →
      (∀ e ∈ accepted.tail, e.exact = false) ∧
      ∀ e ∈ accepted, ∃ head ∈ (run C reg calls).2.heads, ∃ orig q startingOn,
        csvToIntlist head.bwProfile = .ok orig ∧ csvToIntlist request.bwProfile = .ok q ∧
        timeFromPbTimestamp request.startingOn = .ok startingOn ∧ q.sum ≠ 0 ∧
        ∀ i, accepted.length * Window.amount (head.offsetOf startingOn) q i ≤ orig.getD i 0 := by
  obtain ⟨cs, hexplains⟩ := exists_chains C reg calls
  have h := hexplains.represents
  obtain ⟨xs, hxs, hcontracts⟩ := hexplains.purchases
  refine ⟨?_, ?_⟩
  · rw [← hcontracts, List.forall₂_map_right_iff]
    refine hxs.imp fun e x hx => ⟨?_, h.madeFrom_of_sale hx⟩
    rw [hx.answer]
    rfl
  · rintro request accepted rfl
    refine ⟨fun e he => ?_, fun e he => ?_⟩
    · have hfirst := hexplains.exact_first.filter fun e : Accepted => e.request = request
      have hrequest : ∀ e ∈ ((run C reg calls).1.filterMap Event.purchase?).filter
          (fun e : Accepted => e.request = request), e.request = request := fun e he => by
        simpa using List.of_mem_filter he
      rcases hlist : ((run C reg calls).1.filterMap Event.purchase?).filter
        (fun e : Accepted => e.request = request) with _ | ⟨a, l⟩
      · simp [hlist] at he
      · rw [hlist] at he hfirst hrequest
        rw [Bool.eq_false_iff]
        intro hexact
        refine (List.pairwise_cons.mp hfirst).1 e he hexact ?_
        rw [hrequest a List.mem_cons_self, hrequest e (List.mem_cons_of_mem _ he)]
    · exact hexplains.submissions_le he

/-! ## A request served twice -/

namespace SmallMarket

/-- An offer put up, and a purchase request submitted twice for it. -/
def submittedTwice (r : PurchaseRequest) : List (Call Crypto.transparent) :=
  [offering "10.1.1.1:50-51", ⟨amb, .purchaseEquivalent r⟩, ⟨amb, .purchaseEquivalent r⟩]

/-- The buyer's request for the offer just put up is served both times. -/
lemma submittedTwice_served :
    ((request (storeAfter [offering "10.1.1.1:50-51"]) 2).any fun r =>
      ((storeAfter (submittedTwice r)).contracts.filter
        ((storeAfter (submittedTwice r)).madeFrom r)).length == 2) = true := by
  decide +kernel

end SmallMarket

/-- One request can end up in more than one contract. -/
theorem not_atMostOneContract :
    ¬∀ (C : Crypto) (reg : Registry) (calls : List (Call C)) (request : PurchaseRequest),
      ((run C reg calls).2.contracts.filter ((run C reg calls).2.madeFrom request)).length ≤ 1 := by
  intro h
  obtain ⟨r, -, hr⟩ := (Option.any_eq_true _ _).mp SmallMarket.submittedTwice_served
  have hle := h Crypto.transparent SmallMarket.registry (SmallMarket.submittedTwice r) r
  rw [beq_iff_eq] at hr
  rw [SmallMarket.storeAfter] at hr
  omega

end Esdx
