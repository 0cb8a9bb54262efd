import Esdx.Market.Shape

/-!
# Conservation of bandwidth

What was offered in a period is what is still available in it plus what the contracts of the
chain bought in it.  The account of a chain says so for its sales; here the sum is taken over the
contracts in the store.
-/

namespace Esdx

open Table

namespace Store

variable (s : Store)

/-- The contracts whose purchase order is for an offer of the chain. -/
def contractsOf (chain : List Offer) : List Contract :=
  s.contracts.filter fun k =>
    match s.getPurchaseOrder k.purchaseOrder with
    | .ok po => chain.any (·.id = po.offer)
    | .error _ => false

/-- What a contract buys in period `i` of the chain that starts at `head`: the values of its
profile, shifted by the periods between `notbefore` and its start. -/
def bought (head : Offer) (i : ℕ) (k : Contract) : ℤ :=
  match s.getPurchaseOrder k.purchaseOrder with
  | .ok po =>
    match csvToIntlist po.bwProfile with
    | .ok q => Window.amount (head.offsetOf po.startingOn) q i
    | .error _ => 0
  | .error _ => 0

/-- A contract of the chain that starts at `head` buys a window of its periods. -/
def BuysWindow (head : Offer) (periods : ℕ) (k : Contract) : Prop :=
  ∃ po q, s.getPurchaseOrder k.purchaseOrder = .ok po ∧ csvToIntlist po.bwProfile = .ok q ∧
    bwPeriod ∣ po.startingOn - head.notbefore ∧ head.notbefore ≤ po.startingOn ∧
    head.offsetOf po.startingOn + q.length ≤ periods

/-- Bandwidth is conserved in the chain that starts at `head`. -/
def Conserves (head : Offer) : Prop :=
  ∃ last orig remaining, (s.chainOf head).getLast? = some last ∧ s.isAvailable last = true ∧
    csvToIntlist head.bwProfile = .ok orig ∧ csvToIntlist last.bwProfile = .ok remaining ∧
    remaining.length = orig.length ∧
    (∀ k ∈ s.contractsOf (s.chainOf head), s.BuysWindow head orig.length k) ∧
    ∀ i, orig.getD i 0 =
        remaining.getD i 0 + ((s.contractsOf (s.chainOf head)).map (s.bought head i)).sum ∧
      0 ≤ remaining.getD i 0 ∧
      ((s.contractsOf (s.chainOf head)).map (s.bought head i)).sum ≤ orig.getD i 0

end Store

variable {C : Crypto} {reg : Registry} {s : Store} {cs : List (Chain C reg)}

namespace Represents

/-- The purchase order of the contract of a sale is found in the store. -/
lemma getPurchaseOrder_of_sale (h : Represents s cs) {c : Chain C reg} (hc : c ∈ cs) {x : Sale}
    (hx : x ∈ c.sales) : s.getPurchaseOrder x.contract.purchaseOrder = .ok x.order := by
  rw [(Chain.sale_links hx).2]
  exact h.getPurchaseOrder_eq (h.mem_orders.mpr ⟨c, hc, x, hx, rfl⟩)

/-- The contracts of a chain are those of its sales. -/
lemma contractsOf_perm (h : Represents s cs) {c : Chain C reg} (hc : c ∈ cs) :
    (s.contractsOf c.offers).Perm c.contracts := by
  obtain ⟨pre, post, rfl⟩ := List.append_of_mem hc
  refine filter_perm_group h.contracts (fun k hk => ?_) fun c' hc' k hk => ?_
  · obtain ⟨x, hx, rfl⟩ := List.mem_map.mp hk
    rw [h.getPurchaseOrder_of_sale hc hx]
    exact List.any_eq_true.mpr
      ⟨x.offer, Chain.offer_mem hx, by simpa using (Chain.sale_links hx).1.symm⟩
  · obtain ⟨x, hx, rfl⟩ := List.mem_map.mp hk
    have hmem : c' ∈ pre ++ c :: post := by
      simp only [List.mem_append, List.mem_cons] at hc' ⊢
      tauto
    rw [h.getPurchaseOrder_of_sale hmem hx]
    refine List.any_eq_false.mpr fun o ho hid => ?_
    rw [(Chain.sale_links hx).1, decide_eq_true_eq] at hid
    exact group_disjoint h.nodup_offers hc' ho (Chain.offer_mem hx) hid

/-- What a sale takes from a period of its chain, read off the store. -/
lemma bought_of_sale (h : Represents s cs) {c : Chain C reg} (hc : c ∈ cs) {x : Sale}
    (hx : x ∈ c.sales) {q : List ℤ} (hq : csvToIntlist x.order.bwProfile = .ok q) (i : ℕ) :
    s.bought c.head i x.contract = Window.amount (c.head.offsetOf x.order.startingOn) q i := by
  rw [Store.bought, h.getPurchaseOrder_of_sale hc hx]
  dsimp only
  rw [hq]

/-- What the sales of a chain take from a period is what its account has sold in it. -/
lemma map_bought (h : Represents s cs) {c : Chain C reg} (hc : c ∈ cs) {sold : List (ℕ × List ℤ)}
    (hsold : List.Forall₂ (History.Takes c.head) c.sales sold) (i : ℕ) :
    (c.sales.map fun x => s.bought c.head i x.contract) =
      sold.map fun w => Window.amount w.1 w.2 i := by
  refine List.forall₂_eq_eq_eq ▸ ?_
  rw [List.forall₂_map_left_iff, List.forall₂_map_right_iff]
  refine ((List.forall₂_and_left _ _).mpr ⟨fun x hx => hx, hsold⟩).imp fun x w ⟨hx, hw⟩ => ?_
  obtain ⟨-, -, hoffset, hprofile, -⟩ := hw
  rw [h.bought_of_sale hc hx hprofile, hoffset]

/-- Bandwidth is conserved in every chain. -/
lemma conserves (h : Represents s cs) {c : Chain C reg} (hc : c ∈ cs) : s.Conserves c.head := by
  obtain ⟨a, hinitial, hremaining, hsold⟩ := c.history.exists_account
  have hperm := h.contractsOf_perm hc
  have hlast : (s.chainOf c.head).getLast? = some c.last := by
    rw [h.chainOf_eq hc]
    exact getLast_chainOffers
  have hsum : ∀ i, ((s.contractsOf c.offers).map (s.bought c.head i)).sum =
      (a.sold.map fun w => Window.amount w.1 w.2 i).sum := by
    intro i
    rw [(hperm.map _).sum_eq, Chain.contracts, List.map_map]
    exact congrArg List.sum (h.map_bought hc hsold i)
  refine ⟨c.last, a.initial, a.remaining, hlast, (h.isAvailable_iff hc c.last_mem).mpr rfl,
    hinitial, hremaining, a.length_remaining, ?_, fun i => ?_⟩
  · rw [h.chainOf_eq hc]
    intro k hk
    obtain ⟨x, hx, rfl⟩ := List.mem_map.mp (hperm.mem_iff.mp hk)
    obtain ⟨w, hw, hdvd, hle, hoffset, hprofile, -⟩ := Machine.exists_of_mem_forall₂ hsold hx
    refine ⟨x.order, w.2, h.getPurchaseOrder_of_sale hc hx, hprofile, hdvd, hle, ?_⟩
    rw [← hoffset]
    exact a.windows w hw
  · rw [h.chainOf_eq hc, hsum]
    exact ⟨a.conserved i, a.remaining_nonneg i, a.sum_sold_le i⟩

end Represents

/-- **Conservation.**  After every run, in the chain of every accepted `AddOffer`, every period
of the seller's original profile is what is left in the available offer plus what the contracts
of the chain bought, and nothing that is left is negative. -/
theorem run_conserves (C : Crypto) (reg : Registry) (calls : List (Call C)) :
    List.Forall₂ (fun e head => CreatedFrom e.1 head ∧ (run C reg calls).2.Conserves head)
      ((run C reg calls).1.filterMap Event.listing?) (run C reg calls).2.heads := by
  obtain ⟨cs, hexplains⟩ := exists_chains C reg calls
  have h := hexplains.represents
  have hall := (List.forall₂_and_left _ _).mpr ⟨fun c hc => h.conserves hc, hexplains.listings.flip⟩
  rw [h.heads_eq, List.forall₂_map_right_iff]
  exact List.Forall₂.flip (hall.imp fun c e ⟨hconserves, hstarted⟩ => ⟨hstarted.1, hconserves⟩)

end Esdx
