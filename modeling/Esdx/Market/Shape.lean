import Esdx.Market.Runs

/-!
# The shape of the store

The chains as they can be read off the store alone, by following `deprecated_by` from the offers
that replace no other one.  In every reachable state these chains have the shape that the queries
of `OfferManager` rely on.
-/

namespace Esdx

open Table

namespace Store

variable (s : Store)

/-- The offers that replace no other one. -/
def heads : List Offer := s.offers.filter (·.deprecates = none)

/-- Follow `deprecated_by` for at most `fuel` offers. -/
def chainFrom : ℕ → Offer → List Offer
  | 0, _ => []
  | fuel + 1, o => o :: match s.deprecatedBy o with
    | none => []
    | some next => chainFrom fuel next

/-- The chain of offers that starts at an offer. -/
def chainOf (o : Offer) : List Offer := s.chainFrom s.offers.length o

/-- The chain of the store has a head signed by the seller, which is not sold and not available;
then offers that are sold, each with one purchase order and one contract; and then an offer that
is available and not sold.  All of them have the same terms. -/
structure ChainShape (C : Crypto) (reg : Registry) (chain : List Offer) : Prop where
  linked : chain.IsChain fun a b => b.deprecates = some a.id ∧ s.deprecatedBy a = some b
  sameTerms : ∀ a ∈ chain, ∀ b ∈ chain, SameTerms a b
  ends : ∃ head middle last, chain = head :: (middle ++ [last]) ∧
    head.deprecates = none ∧ head.validateSignatureFromSeller C reg = .ok () ∧
    s.isSold head = false ∧ s.isAvailable head = false ∧
    (∀ o ∈ middle, ∃ po k, s.purchaseOrders.filter (·.offer = o.id) = [po] ∧
      s.contracts.filter (·.purchaseOrder = po.id) = [k]) ∧
    s.isAvailable last = true ∧ s.isSold last = false

end Store

/-- The head was created from the specification of an `AddOffer`. -/
def CreatedFrom (specs : OfferSpecification) (head : Offer) : Prop :=
  ∃ o, OfferProtoSerializer.save specs = .ok o ∧ head = { o with id := head.id }

variable {C : Crypto} {reg : Registry} {s : Store} {cs : List (Chain C reg)}

/-- Offers with the terms of a third one have the same terms. -/
lemma SameTerms.of_head {head a b : Offer} (ha : SameTerms head a) (hb : SameTerms head b) :
    SameTerms a b := by
  unfold SameTerms at ha hb ⊢
  rw [ha]
  exact hb

namespace Represents

/-- The heads of the store are the heads of the chains. -/
lemma heads_eq (h : Represents s cs) : s.heads = cs.map Chain.head := h.heads

/-- Following `deprecated_by` lists the rest of a chain. -/
lemma chainFrom_eq (h : Represents s cs) {c : Chain C reg} (hc : c ∈ cs) {pre post : List Offer}
    {o : Offer} (ho : c.offers = pre ++ o :: post) {fuel : ℕ} (hfuel : post.length < fuel) :
    s.chainFrom fuel o = o :: post := by
  induction post generalizing pre o fuel with
  | nil =>
    obtain ⟨fuel, rfl⟩ : ∃ n, fuel = n + 1 := ⟨fuel - 1, by omega⟩
    rw [Store.chainFrom, h.deprecatedBy_eq hc ho]
    rfl
  | cons b post ih =>
    obtain ⟨fuel, rfl⟩ : ∃ n, fuel = n + 1 := ⟨fuel - 1, by omega⟩
    rw [Store.chainFrom, h.deprecatedBy_eq hc ho]
    have hrest : c.offers = (pre ++ [o]) ++ b :: post := by simp [ho]
    have hlen : post.length < fuel := by simpa using hfuel
    rw [List.head?_cons]
    dsimp only
    rw [ih hrest hlen]

/-- A chain is no longer than the store. -/
lemma length_offers_le (h : Represents s cs) {c : Chain C reg} (hc : c ∈ cs) :
    c.offers.length ≤ s.offers.length := by
  rw [← h.offers.length_eq]
  obtain ⟨pre, post, rfl⟩ := List.append_of_mem hc
  rw [List.flatMap_append, List.flatMap_cons, List.length_append, List.length_append]
  omega

/-- The chain read off the store from a head is the chain. -/
lemma chainOf_eq (h : Represents s cs) {c : Chain C reg} (hc : c ∈ cs) :
    s.chainOf c.head = c.offers := by
  have hlen := h.length_offers_le hc
  have hsplit : c.offers = [] ++ c.head :: (c.sales.map Sale.offer ++ [c.last]) := rfl
  refine h.chainFrom_eq hc hsplit ?_
  rw [Chain.offers, chainOffers, List.length_cons] at hlen
  omega

/-- Every chain has the shape. -/
lemma chainShape (h : Represents s cs) {c : Chain C reg} (hc : c ∈ cs) :
    s.ChainShape C reg c.offers where
  linked := by
    refine List.isChain_iff_forall_rel_of_append_cons_cons.mpr fun a b pre post hsplit => ?_
    have hlinked := c.history.linked
    rw [← Chain.offers, hsplit, List.isChain_append] at hlinked
    exact ⟨(List.isChain_cons_cons.mp hlinked.2.1).1, h.deprecatedBy_eq hc hsplit⟩
  sameTerms a ha b hb := (c.history.sameTerms a ha).of_head (c.history.sameTerms b hb)
  ends := by
    obtain ⟨copy, hlisted⟩ := c.history.isListed
    refine ⟨c.head, c.sales.map Sale.offer, c.last, rfl, hlisted.original, hlisted.seller_signed,
      h.not_isSold_head hc, ?_, ?_, (h.isAvailable_iff hc c.last_mem).mpr rfl,
      h.not_isSold_last hc⟩
    · rw [Bool.eq_false_iff, ne_eq, h.isAvailable_iff hc c.head_mem]
      exact fun heq => h.head_id_ne_last hc (by rw [heq])
    · intro o ho
      obtain ⟨x, hx, rfl⟩ := List.mem_map.mp ho
      obtain ⟨horder, hcontract⟩ := Chain.sale_links hx
      refine ⟨x.order, x.contract, ?_, ?_⟩
      · exact filter_eq_singleton_of_unique (h.order_keys.nodup.of_map _)
          (h.mem_orders.mpr ⟨c, hc, x, hx, rfl⟩) (by simpa using horder) fun po hpo hoffer =>
            h.order_unique hc hx hpo (by simpa using hoffer)
      · exact filter_eq_singleton_of_unique (h.contract_keys.nodup.of_map _)
          (h.mem_contracts.mpr ⟨c, hc, x, hx, rfl⟩) (by simpa using hcontract) fun k hk hid =>
            h.contract_unique hc hx hk (by simpa using hid)

/-- The chains read off the store are disjoint and make up all offers. -/
lemma perm_chains (h : Represents s cs) : (s.heads.flatMap s.chainOf).Perm s.offers := by
  refine List.Perm.trans (List.Perm.of_eq ?_) h.offers
  rw [h.heads_eq, List.flatMap_map]
  exact List.flatMap_congr fun c hc => h.chainOf_eq hc

/-- The available offers are the ends of the chains. -/
lemma mem_available (h : Represents s cs) {o : Offer} :
    o ∈ s.available ↔ ∃ head ∈ s.heads, (s.chainOf head).getLast? = some o := by
  rw [Store.available, List.mem_filter, h.mem_offers, h.heads_eq]
  constructor
  · rintro ⟨⟨c, hc, ho⟩, havail⟩
    refine ⟨c.head, List.mem_map_of_mem hc, ?_⟩
    rw [h.chainOf_eq hc, (h.isAvailable_iff hc ho).mp havail]
    exact getLast_chainOffers
  · rintro ⟨head, hhead, hlast⟩
    obtain ⟨c, hc, rfl⟩ := List.mem_map.mp hhead
    rw [h.chainOf_eq hc, Chain.offers, getLast_chainOffers, Option.some.injEq] at hlast
    rw [← hlast]
    exact ⟨⟨c, hc, c.last_mem⟩, (h.isAvailable_iff hc c.last_mem).mpr rfl⟩

/-- The original offers are the heads of the chains. -/
lemma originalOffers_eq (h : Represents s cs) : s.originalOffers = s.heads := by
  refine List.filter_congr fun o ho => ?_
  obtain ⟨c, hc, hoc⟩ := h.mem_offers.mp ho
  rcases List.mem_cons.mp hoc with rfl | hlater
  · obtain ⟨copy, hlisted⟩ := c.history.isListed
    have hunavailable : s.isAvailable c.head = false := by
      rw [Bool.eq_false_iff, ne_eq, h.isAvailable_iff hc c.head_mem]
      exact fun heq => h.head_id_ne_last hc (by rw [heq])
    rw [hunavailable, h.not_isSold_head hc, hlisted.original]
    rfl
  · -- a later offer replaces another one, and it is sold or available
    have hdep := Option.isSome_iff_ne_none.mp (c.history.deprecates_isSome o hlater)
    rw [decide_eq_false hdep]
    rcases List.mem_append.mp hlater with hsold | hlast
    · rw [(h.isSold_iff hc hoc).mpr (List.mem_map.mp hsold)]
      simp
    · rw [(h.isAvailable_iff hc hoc).mpr (List.mem_singleton.mp hlast)]
      rfl

/-- No offer is available and sold. -/
lemma not_available_and_sold (h : Represents s cs) {o : Offer} (ho : o ∈ s.offers) :
    ¬(s.isAvailable o = true ∧ s.isSold o = true) := by
  obtain ⟨c, hc, hoc⟩ := h.mem_offers.mp ho
  rintro ⟨havail, hsold⟩
  rw [(h.isAvailable_iff hc hoc).mp havail, h.not_isSold_last hc] at hsold
  simp at hsold

end Represents

/-- **The shape of the store.**  After every run the offers form disjoint chains, one for every
accepted `AddOffer`, in their order; every chain has the shape, its end is what `available`
returns, its head is what `_original_offers` returns, and no offer is both available and sold. -/
theorem run_chainShape (C : Crypto) (reg : Registry) (calls : List (Call C)) :
    let s := (run C reg calls).2
    (s.offers.map Offer.id).Nodup ∧ (s.heads.flatMap s.chainOf).Perm s.offers ∧
      List.Forall₂ (fun e head => CreatedFrom e.1 head)
        ((run C reg calls).1.filterMap Event.listing?) s.heads ∧
      (∀ head ∈ s.heads, s.ChainShape C reg (s.chainOf head)) ∧
      (∀ o, o ∈ s.available ↔ ∃ head ∈ s.heads, (s.chainOf head).getLast? = some o) ∧
      s.originalOffers = s.heads ∧
      ∀ o ∈ s.offers, ¬(s.isAvailable o = true ∧ s.isSold o = true) := by
  obtain ⟨cs, hexplains⟩ := exists_chains C reg calls
  have h := hexplains.represents
  refine ⟨h.offer_keys.nodup, h.perm_chains, ?_, ?_, fun o => h.mem_available,
    h.originalOffers_eq, fun o ho => h.not_available_and_sold ho⟩
  · rw [h.heads_eq, List.forall₂_map_right_iff]
    exact hexplains.listings.imp fun _ _ he => he.1
  · intro head hhead
    rw [h.heads_eq] at hhead
    obtain ⟨c, hc, rfl⟩ := List.mem_map.mp hhead
    rw [h.chainOf_eq hc]
    exact h.chainShape hc

end Esdx
