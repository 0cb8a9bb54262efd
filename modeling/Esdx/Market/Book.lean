import Esdx.Foundations.Table
import Esdx.Market.Chains

/-!
# The store as a book of chains

`Represents s cs` says that the rows of the store `s` are exactly the rows of the chains `cs`.
From it the queries of the market can be computed: which offers are available, which are sold,
what follows an offer, and which port comes next.
-/

namespace Esdx

open Table

variable {C : Crypto} {reg : Registry}

namespace Chain

/-- The offers of a chain. -/
def offers (c : Chain C reg) : List Offer := chainOffers c.head c.sales c.last

/-- The purchase orders of a chain. -/
def orders (c : Chain C reg) : List PurchaseOrder := c.sales.map Sale.order

/-- The contracts of a chain. -/
def contracts (c : Chain C reg) : List Contract := c.sales.map Sale.contract

/-- A chain that was listed. -/
def opened {head copy : Offer} (h : Listed C reg head copy) : Chain C reg :=
  ⟨head, [], copy, .listed h⟩

/-- A chain after one more sale. -/
def extend (c : Chain C reg) (x : Sale) {new : Offer}
    (h : Extends C reg c.head c.sales c.last x new) : Chain C reg :=
  ⟨c.head, c.sales ++ [x], new, .sold c.history h⟩

lemma head_mem (c : Chain C reg) : c.head ∈ c.offers := by simp [offers, chainOffers]

lemma last_mem (c : Chain C reg) : c.last ∈ c.offers := by simp [offers, chainOffers]

lemma offer_mem {c : Chain C reg} {x : Sale} (hx : x ∈ c.sales) : x.offer ∈ c.offers := by
  simp only [offers, chainOffers, List.mem_cons, List.mem_append, List.mem_map]
  exact .inr (.inl ⟨x, hx, rfl⟩)

/-- The purchase order of a sale is for the offer sold, and its contract is for the order. -/
lemma sale_links {c : Chain C reg} {x : Sale} (hx : x ∈ c.sales) :
    x.order.offer = x.offer.id ∧ x.contract.purchaseOrder = x.order.id := by
  obtain ⟨pre, post, hsplit⟩ := List.append_of_mem hx
  obtain ⟨-, new, h⟩ := c.history.extends_of_sales_eq hsplit
  exact ⟨by rw [h.order_offer, h.offer_eq], h.contract_order⟩

/-- The buyer of a sale is registered. -/
lemma buyer_of_sale {c : Chain C reg} {x : Sale} (hx : x ∈ c.sales) :
    ∃ a, reg.getAs x.order.buyer = .ok a := by
  obtain ⟨pre, post, hsplit⟩ := List.append_of_mem hx
  obtain ⟨-, new, h⟩ := c.history.extends_of_sales_eq hsplit
  exact h.buyer

/-- The offer requested in a sale is one before the last offer. -/
lemma requested_mem {c : Chain C reg} {x : Sale} (hx : x ∈ c.sales) :
    x.requested ∈ c.head :: c.sales.map Sale.offer := by
  obtain ⟨pre, post, hsplit⟩ := List.append_of_mem hx
  obtain ⟨-, new, h⟩ := c.history.extends_of_sales_eq hsplit
  have hmem := h.requested_mem
  rw [chainOffers] at hmem
  rw [hsplit, List.map_append, List.map_cons]
  simp only [List.mem_cons, List.mem_append] at hmem ⊢
  tauto

lemma requested_mem_offers {c : Chain C reg} {x : Sale} (hx : x ∈ c.sales) :
    x.requested ∈ c.offers := by
  rw [offers, chainOffers, ← List.cons_append]
  exact List.mem_append_left _ (requested_mem hx)

/-- A sale puts the new offer at the end of the chain. -/
lemma offers_extend (c : Chain C reg) (x : Sale) {new : Offer}
    (h : Extends C reg c.head c.sales c.last x new) :
    (c.extend x h).offers = c.offers ++ [new] := by
  rw [offers, extend, chainOffers_concat, h.offer_eq, offers]

/-- An offer of a chain is its head or replaces the offer before it. -/
lemma eq_head_or_successor {c : Chain C reg} {o : Offer} (ho : o ∈ c.offers) :
    o = c.head ∨ ∃ pre a post, c.offers = pre ++ a :: o :: post ∧ o.deprecates = some a.id := by
  rcases List.mem_cons.mp ho with rfl | ho'
  · exact .inl rfl
  obtain ⟨pre, post, hsplit⟩ := List.append_of_mem ho'
  have hoffers : c.offers = c.head :: pre ++ o :: post := by
    rw [offers, chainOffers, hsplit, List.cons_append]
  obtain ⟨init, a, ha⟩ := List.eq_nil_or_concat (c.head :: pre) |>.resolve_left (by simp)
  rw [ha, List.concat_eq_append, List.append_assoc, List.singleton_append] at hoffers
  have hlinked := c.history.linked
  rw [← offers, hoffers, List.isChain_append] at hlinked
  exact .inr ⟨init, a, post, hoffers, (List.isChain_cons_cons.mp hlinked.2.1).1⟩

end Chain

/-- The rows of the store are the rows of the chains. -/
structure Represents (s : Store) (cs : List (Chain C reg)) : Prop where
  offers : (cs.flatMap Chain.offers).Perm s.offers
  orders : (cs.flatMap Chain.orders).Perm s.purchaseOrders
  contracts : (cs.flatMap Chain.contracts).Perm s.contracts
  heads : s.offers.filter (·.deprecates = none) = cs.map Chain.head
  offer_keys : Keyed Offer.id s.offers s.nextOffer
  order_keys : Keyed PurchaseOrder.id s.purchaseOrders s.nextPurchaseOrder
  contract_keys : Keyed Contract.id s.contracts s.nextContract

namespace Represents

variable {s : Store} {cs : List (Chain C reg)}

/-! ## Rows -/

/-- The empty store has no chains. -/
lemma empty : Represents {} ([] : List (Chain C reg)) where
  offers := .nil
  orders := .nil
  contracts := .nil
  heads := rfl
  offer_keys := ⟨List.nodup_nil, by simp⟩
  order_keys := ⟨List.nodup_nil, by simp⟩
  contract_keys := ⟨List.nodup_nil, by simp⟩

/-- Every offer belongs to a chain. -/
lemma mem_offers (h : Represents s cs) {o : Offer} : o ∈ s.offers ↔ ∃ c ∈ cs, o ∈ c.offers := by
  rw [← h.offers.mem_iff, List.mem_flatMap]

/-- Every purchase order belongs to a sale of a chain. -/
lemma mem_orders (h : Represents s cs) {po : PurchaseOrder} :
    po ∈ s.purchaseOrders ↔ ∃ c ∈ cs, ∃ x ∈ c.sales, x.order = po := by
  simp only [← h.orders.mem_iff, List.mem_flatMap, Chain.orders, List.mem_map]

/-- Every contract belongs to a sale of a chain. -/
lemma mem_contracts (h : Represents s cs) {k : Contract} :
    k ∈ s.contracts ↔ ∃ c ∈ cs, ∃ x ∈ c.sales, x.contract = k := by
  simp only [← h.contracts.mem_iff, List.mem_flatMap, Chain.contracts, List.mem_map]

/-- The ids of the offers of all chains are distinct. -/
lemma nodup_offers (h : Represents s cs) : ((cs.flatMap Chain.offers).map Offer.id).Nodup :=
  (h.offers.map Offer.id).nodup_iff.mpr h.offer_keys.nodup

/-- Offers with the same id are in the same chain. -/
lemma chain_eq (h : Represents s cs) {c c' : Chain C reg} (hc : c ∈ cs) (hc' : c' ∈ cs)
    {o o' : Offer} (ho : o ∈ c.offers) (ho' : o' ∈ c'.offers) (hid : o.id = o'.id) : c = c' :=
  group_eq_of_key_eq h.nodup_offers hc hc' ho ho' hid

/-- An offer has one place in its chain. -/
lemma split_eq (h : Represents s cs) {c : Chain C reg} (hc : c ∈ cs)
    {pre pre' post post' : List Offer} {o o' : Offer} (ho : c.offers = pre ++ o :: post)
    (ho' : c.offers = pre' ++ o' :: post') (hid : o.id = o'.id) :
    pre = pre' ∧ o = o' ∧ post = post' :=
  split_eq_of_nodup (group_nodup h.nodup_offers hc) ho ho' hid

/-- Offers with the same id are equal. -/
lemma offer_inj (h : Represents s cs) {o o' : Offer} (ho : o ∈ s.offers) (ho' : o' ∈ s.offers)
    (hid : o.id = o'.id) : o = o' :=
  h.offer_keys.inj ho ho' hid

/-- An offer is found by its id. -/
lemma getOffer_eq (h : Represents s cs) {o : Offer} (ho : o ∈ s.offers) :
    s.getOffer o.id = .ok o := by
  have hfind : s.offers.find? (fun x => (x.id : ℤ) = (o.id : ℤ)) = some o := by
    refine find?_eq_some_of_unique ho (by simp) fun x hx hid => h.offer_inj hx ho ?_
    simpa using hid
  rw [Store.getOffer, hfind]

/-! ## Availability -/

/-- An offer that replaces `a` comes right after it. -/
lemma successor_eq (h : Represents s cs) {c : Chain C reg} (hc : c ∈ cs) {pre post : List Offer}
    {a x : Offer} (ha : c.offers = pre ++ a :: post) (hx : x ∈ s.offers)
    (hdep : x.deprecates = some a.id) : post.head? = some x := by
  obtain ⟨c', hc', hxc⟩ := h.mem_offers.mp hx
  rcases Chain.eq_head_or_successor hxc with rfl | ⟨pre', a', post', hsplit, hdep'⟩
  · obtain ⟨copy, hlisted⟩ := c'.history.isListed
    rw [hlisted.original] at hdep
    simp at hdep
  · have hid : a.id = a'.id := Option.some.inj (hdep.symm.trans hdep')
    have hac : a ∈ c.offers := by simp [ha]
    have hac' : a' ∈ c'.offers := by simp [hsplit]
    obtain rfl := h.chain_eq hc hc' hac hac' hid
    obtain ⟨-, -, rfl⟩ := h.split_eq hc ha hsplit hid
    rfl

/-- The offer after `a` in its chain is the one that replaces it. -/
lemma deprecatedBy_eq (h : Represents s cs) {c : Chain C reg} (hc : c ∈ cs)
    {pre post : List Offer} {a : Offer} (ha : c.offers = pre ++ a :: post) :
    s.deprecatedBy a = post.head? := by
  rcases post with _ | ⟨b, post⟩
  · refine List.find?_eq_none.mpr fun x hx hdep => ?_
    have := h.successor_eq hc ha hx (by simpa using hdep)
    simp at this
  · have hb : b ∈ c.offers := by simp [ha]
    have hlinked := c.history.linked
    rw [← Chain.offers, ha, List.isChain_append] at hlinked
    have hdep := (List.isChain_cons_cons.mp hlinked.2.1).1
    refine find?_eq_some_of_unique (h.mem_offers.mpr ⟨c, hc, hb⟩) (by simpa using hdep) ?_
    intro x hx hdep'
    have := h.successor_eq hc ha hx (by simpa using hdep')
    simpa using this.symm

/-- The available offers are the last ones of the chains. -/
lemma isAvailable_iff (h : Represents s cs) {c : Chain C reg} (hc : c ∈ cs) {o : Offer}
    (ho : o ∈ c.offers) : s.isAvailable o = true ↔ o = c.last := by
  obtain ⟨pre, post, hsplit⟩ := List.append_of_mem ho
  have hlast : (pre ++ o :: post).getLast? = some c.last := by
    rw [← hsplit, Chain.offers, getLast_chainOffers]
  rw [Store.isAvailable, h.deprecatedBy_eq hc hsplit]
  rcases List.eq_nil_or_concat post with rfl | ⟨init, b, rfl⟩
  · rw [List.getLast?_concat, Option.some.injEq] at hlast
    simp [hlast]
  · rw [List.concat_eq_append, ← List.cons_append, ← List.append_assoc, List.getLast?_concat,
      Option.some.injEq] at hlast
    refine iff_of_false (by simp) fun heq => ?_
    have hsplit' : c.offers = (pre ++ o :: init) ++ b :: [] := by simp [hsplit]
    obtain ⟨hpre, -, -⟩ := h.split_eq hc hsplit hsplit' (by rw [hlast, heq])
    have := congrArg List.length hpre
    simp at this

/-- Following `deprecated_by` from any offer of a chain ends at its last offer. -/
lemma walkDeprecatedBy_eq (h : Represents s cs) {c : Chain C reg} (hc : c ∈ cs) {o : Offer}
    {pre post : List Offer} (ho : c.offers = pre ++ o :: post) {fuel : ℕ}
    (hfuel : post.length < fuel) : s.walkDeprecatedBy fuel o = .ok c.last := by
  induction post generalizing pre o fuel with
  | nil =>
    obtain ⟨fuel, rfl⟩ := Nat.exists_eq_add_of_lt hfuel
    have hlast : c.offers.getLast? = some c.last := by rw [Chain.offers, getLast_chainOffers]
    rw [ho, List.getLast?_concat, Option.some.injEq] at hlast
    rw [Store.walkDeprecatedBy, h.deprecatedBy_eq hc ho, hlast]
    rfl
  | cons b post ih =>
    obtain ⟨fuel, rfl⟩ : ∃ n, fuel = n + 1 := ⟨fuel - 1, by omega⟩
    rw [Store.walkDeprecatedBy, h.deprecatedBy_eq hc ho]
    have hsplit : c.offers = (pre ++ [o]) ++ b :: post := by simp [ho]
    exact ih hsplit (by simpa using hfuel)

/-! ## Sold offers -/

/-- The sold offers are those of the sales. -/
lemma isSold_iff (h : Represents s cs) {c : Chain C reg} (hc : c ∈ cs) {o : Offer}
    (ho : o ∈ c.offers) : s.isSold o = true ↔ ∃ x ∈ c.sales, x.offer = o := by
  rw [Store.isSold, List.any_eq_true]
  constructor
  · rintro ⟨po, hpo, hid⟩
    obtain ⟨c', hc', x, hx, rfl⟩ := h.mem_orders.mp hpo
    have hid : x.offer.id = o.id := by
      rw [← (Chain.sale_links hx).1]
      simpa using hid
    obtain rfl := h.chain_eq hc' hc (Chain.offer_mem hx) ho hid
    exact ⟨x, hx, h.offer_inj (h.mem_offers.mpr ⟨_, hc, Chain.offer_mem hx⟩)
      (h.mem_offers.mpr ⟨_, hc, ho⟩) hid⟩
  · rintro ⟨x, hx, rfl⟩
    exact ⟨x.order, h.mem_orders.mpr ⟨c, hc, x, hx, rfl⟩, by simpa using (Chain.sale_links hx).1⟩

/-- The head of a chain is not sold. -/
lemma not_isSold_head (h : Represents s cs) {c : Chain C reg} (hc : c ∈ cs) :
    s.isSold c.head = false := by
  rw [Bool.eq_false_iff, ne_eq, h.isSold_iff hc c.head_mem]
  rintro ⟨x, hx, heq⟩
  obtain ⟨pre, post, hsplit⟩ := List.append_of_mem hx
  have hfirst : c.offers = [] ++ c.head :: (c.sales.map Sale.offer ++ [c.last]) := rfl
  have hlater : c.offers = (c.head :: pre.map Sale.offer) ++ x.offer ::
      (post.map Sale.offer ++ [c.last]) := by
    simp [Chain.offers, chainOffers, hsplit]
  have := (h.split_eq hc hfirst hlater (by rw [heq])).1
  simp at this

/-- The last offer of a chain is not sold. -/
lemma not_isSold_last (h : Represents s cs) {c : Chain C reg} (hc : c ∈ cs) :
    s.isSold c.last = false := by
  rw [Bool.eq_false_iff, ne_eq, h.isSold_iff hc c.last_mem]
  rintro ⟨x, hx, heq⟩
  obtain ⟨pre, post, hsplit⟩ := List.append_of_mem hx
  have hlast : c.offers = (c.head :: c.sales.map Sale.offer) ++ c.last :: [] := rfl
  have hearlier : c.offers = (c.head :: pre.map Sale.offer) ++ x.offer ::
      (post.map Sale.offer ++ [c.last]) := by
    simp [Chain.offers, chainOffers, hsplit]
  have := (h.split_eq hc hlast hearlier (by rw [heq])).2.2
  simp at this

/-- The head of a chain is not its last offer. -/
lemma head_id_ne_last (h : Represents s cs) {c : Chain C reg} (hc : c ∈ cs) :
    c.head.id ≠ c.last.id := by
  have hnodup := group_nodup h.nodup_offers hc
  rw [Chain.offers, chainOffers, ← List.cons_append, List.map_append, List.nodup_append] at hnodup
  exact hnodup.2.2 _ (by simp) _ (by simp)

/-- The last offer of a chain has been requested in no sale. -/
lemma requested_id_ne_last (h : Represents s cs) {c : Chain C reg} (hc : c ∈ cs) {x : Sale}
    (hx : x ∈ c.sales) : x.requested.id ≠ c.last.id := by
  have hnodup := group_nodup h.nodup_offers hc
  rw [Chain.offers, chainOffers, ← List.cons_append, List.map_append, List.nodup_append] at hnodup
  exact hnodup.2.2 _ (List.mem_map_of_mem (Chain.requested_mem hx)) _ (by simp)

/-! ## Sales -/

/-- No offer is sold twice. -/
lemma sale_eq_of_offer (h : Represents s cs) {c c' : Chain C reg} (hc : c ∈ cs) (hc' : c' ∈ cs)
    {x x' : Sale} (hx : x ∈ c.sales) (hx' : x' ∈ c'.sales) (hid : x.offer.id = x'.offer.id) :
    c = c' ∧ x = x' := by
  obtain rfl := h.chain_eq hc hc' (Chain.offer_mem hx) (Chain.offer_mem hx') hid
  refine ⟨rfl, List.inj_on_of_nodup_map (f := fun y : Sale => y.offer.id) ?_ hx hx' hid⟩
  have hnodup := group_nodup h.nodup_offers hc
  rw [Chain.offers, chainOffers, ← List.cons_append, List.map_append, List.map_cons,
    List.map_map] at hnodup
  exact (List.nodup_cons.mp (List.nodup_append.mp hnodup).1).2

/-- The ids of the purchase orders of all sales are distinct. -/
lemma nodup_orders (h : Represents s cs) :
    ((cs.flatMap Chain.sales).map fun x => x.order.id).Nodup := by
  have hperm := (h.orders.map PurchaseOrder.id).nodup_iff.mpr h.order_keys.nodup
  simpa [Chain.orders, List.map_flatMap, List.map_map, Function.comp_def] using hperm

/-- The ids of the contracts of all sales are distinct. -/
lemma nodup_contracts (h : Represents s cs) :
    ((cs.flatMap Chain.sales).map fun x => x.contract.id).Nodup := by
  have hperm := (h.contracts.map Contract.id).nodup_iff.mpr h.contract_keys.nodup
  simpa [Chain.contracts, List.map_flatMap, List.map_map, Function.comp_def] using hperm

/-- A purchase order belongs to one sale. -/
lemma sale_eq_of_order (h : Represents s cs) {c c' : Chain C reg} (hc : c ∈ cs) (hc' : c' ∈ cs)
    {x x' : Sale} (hx : x ∈ c.sales) (hx' : x' ∈ c'.sales) (hid : x.order.id = x'.order.id) :
    x = x' :=
  List.inj_on_of_nodup_map h.nodup_orders (List.mem_flatMap.mpr ⟨c, hc, hx⟩)
    (List.mem_flatMap.mpr ⟨c', hc', hx'⟩) hid

/-- A contract belongs to one sale. -/
lemma sale_eq_of_contract (h : Represents s cs) {c c' : Chain C reg} (hc : c ∈ cs) (hc' : c' ∈ cs)
    {x x' : Sale} (hx : x ∈ c.sales) (hx' : x' ∈ c'.sales) (hid : x.contract.id = x'.contract.id) :
    x = x' :=
  List.inj_on_of_nodup_map h.nodup_contracts (List.mem_flatMap.mpr ⟨c, hc, hx⟩)
    (List.mem_flatMap.mpr ⟨c', hc', hx'⟩) hid

/-- The offer of a sale has no other purchase order. -/
lemma order_unique (h : Represents s cs) {c : Chain C reg} (hc : c ∈ cs) {x : Sale}
    (hx : x ∈ c.sales) {po : PurchaseOrder} (hpo : po ∈ s.purchaseOrders)
    (hoffer : po.offer = x.offer.id) : po = x.order := by
  obtain ⟨c', hc', x', hx', rfl⟩ := h.mem_orders.mp hpo
  rw [(Chain.sale_links hx').1] at hoffer
  rw [(h.sale_eq_of_offer hc' hc hx' hx hoffer).2]

/-- The purchase order of a sale has no other contract. -/
lemma contract_unique (h : Represents s cs) {c : Chain C reg} (hc : c ∈ cs) {x : Sale}
    (hx : x ∈ c.sales) {k : Contract} (hk : k ∈ s.contracts)
    (horder : k.purchaseOrder = x.order.id) : k = x.contract := by
  obtain ⟨c', hc', x', hx', rfl⟩ := h.mem_contracts.mp hk
  rw [(Chain.sale_links hx').2] at horder
  rw [h.sale_eq_of_order hc' hc hx' hx horder]

/-- The purchase order of a sale is found from the offer sold. -/
lemma find_order_of_offer (h : Represents s cs) {c : Chain C reg} (hc : c ∈ cs) {x : Sale}
    (hx : x ∈ c.sales) : s.purchaseOrders.find? (·.offer = x.offer.id) = some x.order :=
  find?_eq_some_of_unique (h.mem_orders.mpr ⟨c, hc, x, hx, rfl⟩)
    (by simpa using (Chain.sale_links hx).1) fun _ hpo hoffer =>
      h.order_unique hc hx hpo (by simpa using hoffer)

/-- The contract of a sale is found from its purchase order. -/
lemma find_contract_of_order (h : Represents s cs) {c : Chain C reg} (hc : c ∈ cs) {x : Sale}
    (hx : x ∈ c.sales) :
    s.contracts.find? (·.purchaseOrder = x.order.id) = some x.contract :=
  find?_eq_some_of_unique (h.mem_contracts.mpr ⟨c, hc, x, hx, rfl⟩)
    (by simpa using (Chain.sale_links hx).2) fun _ hk horder =>
      h.contract_unique hc hx hk (by simpa using horder)

/-- The purchase order of a sale is found by its id. -/
lemma getPurchaseOrder_eq (h : Represents s cs) {po : PurchaseOrder} (hpo : po ∈ s.purchaseOrders) :
    s.getPurchaseOrder po.id = .ok po := by
  have hfind : s.purchaseOrders.find? (·.id = po.id) = some po :=
    find?_eq_some_of_unique hpo (by simp) fun x hx hid =>
      h.order_keys.inj hx hpo (by simpa using hid)
  rw [Store.getPurchaseOrder, hfind]

/-- The message about the contract of a sale is made of the rows of the sale. -/
lemma message_eq (h : Represents s cs) {c : Chain C reg} (hc : c ∈ cs) {x : Sale}
    (hx : x ∈ c.sales) : ContractProtoSerializer.message reg s x.contract = .ok x.message := by
  obtain ⟨a, ha⟩ := Chain.buyer_of_sale hx
  have hpo := h.getPurchaseOrder_eq (h.mem_orders.mpr ⟨c, hc, x, hx, rfl⟩)
  have hoffer := h.getOffer_eq (h.mem_offers.mpr ⟨c, hc, Chain.offer_mem hx⟩)
  rw [ContractProtoSerializer.message, (Chain.sale_links hx).2, hpo]
  simp only [bind, Except.bind, pure, Except.pure]
  rw [(Chain.sale_links hx).1, hoffer, ha]
  simp only [reg.iaid_of_getAs ha]
  rfl

/-! ## The port of the next sale -/

/-- The next port of a chain follows from its own sales only, whatever purchase order was just
inserted for its last offer. -/
lemma nextPort_eq (h : Represents s cs) {c : Chain C reg} (hc : c ∈ cs) {po : PurchaseOrder}
    (hpo : po.offer = c.last.id) (lo : ℤ) :
    nextPort (s.addPurchaseOrderRow po) c.last lo = portAfter c.sales lo := by
  have hget : ∀ o ∈ c.offers, (s.addPurchaseOrderRow po).getOffer o.id = .ok o := fun o ho =>
    h.getOffer_eq (h.mem_offers.mpr ⟨c, hc, ho⟩)
  rcases c.history.last_deprecates with ⟨hnil, hdep⟩ | ⟨init, x, hsales, hdep⟩
  · -- the head is before the last offer, and it is never sold
    have hne := (h.head_id_ne_last hc).symm
    have hunsold : (s.addPurchaseOrderRow po).isSold c.head = false := by
      have hhead := h.not_isSold_head hc
      rw [Store.isSold] at hhead ⊢
      simp [Store.addPurchaseOrderRow, hhead, hpo, hne]
    rw [nextPort, hdep]
    dsimp only
    rw [hget _ c.head_mem, hnil]
    simp [bind, Except.bind, hunsold, portAfter, pure, Except.pure]
  · have hx : x ∈ c.sales := by simp [hsales]
    have horder : (s.addPurchaseOrderRow po).purchaseOrderOf x.offer = .ok x.order := by
      rw [Store.purchaseOrderOf, Store.addPurchaseOrderRow]
      simp only [List.find?_append, h.find_order_of_offer hc hx, Option.some_or]
    have hcontract : (s.addPurchaseOrderRow po).contractOf x.order = .ok x.contract := by
      rw [Store.contractOf, Store.addPurchaseOrderRow]
      simp only [h.find_contract_of_order hc hx]
    have hsold : (s.addPurchaseOrderRow po).isSold x.offer = true := by
      have hx' := (h.isSold_iff hc (Chain.offer_mem hx)).mpr ⟨x, hx, rfl⟩
      rw [Store.isSold] at hx' ⊢
      simp only [Store.addPurchaseOrderRow, List.any_append, hx', Bool.true_or]
    rw [nextPort, hdep]
    dsimp only
    rw [hget _ (Chain.offer_mem hx), hsales, portAfter, List.getLast?_concat]
    simp [bind, Except.bind, hsold, horder, hcontract]

end Represents

end Esdx
