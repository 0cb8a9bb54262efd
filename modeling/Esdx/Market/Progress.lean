import Esdx.Market.Clients

/-!
# Every client gets its contract

When what is put up has room for all clients, every client of `integration_test.py` and of
`experiment1.py` comes to its end with a contract, in every order of their calls.  A client that
fails to buy was overtaken by another one that bought, so it fails less often than there are
clients, and the number of attempts that the program makes is enough.
-/

namespace Esdx

open Table

variable {C : Crypto} {reg : Registry} {s : Store} {cs : List (Chain C reg)} {ι : Type}

/-! ## Room -/

/-- The profile has room for the requests of all clients in `P`, and the template has ports for
them after `sold` contracts. -/
structure HasRoom (q : ι → List ℤ) (P : Finset ι) (profile template : String) (sold : ℕ) :
    Prop where
  profile : ∃ p, csvToIntlist profile = .ok p ∧ (∀ j, ∑ i ∈ P, (q i).getD j 0 ≤ p.getD j 0) ∧
    ∀ i ∈ P, (q i).length ≤ p.length
  ports : ∃ ip lo hi, ipPortRangeFromStr template = .ok (ip, lo, hi) ∧
    (sold : ℤ) + P.card ≤ hi - lo + 1

/-- The client is registered and buys the profile `q`, which takes something and no negative
amount. -/
structure Client.Ready (reg : Registry) (client : Client C) (q : List ℤ) : Prop where
  registered : client.toMarketClient.Registered reg
  ascii : PythonText.isAsciiText client.bwProfile = true
  profile : csvToIntlist client.bwProfile = .ok q
  nonneg : ∀ j, 0 ≤ q.getD j 0
  something : ∃ j < q.length, 0 < q.getD j 0

namespace HasRoom

variable {q : ι → List ℤ} {P P' : Finset ι} {profile template : String} {sold : ℕ}

/-- There is room for fewer clients. -/
lemma mono (h : HasRoom q P profile template sold) (hsub : P' ⊆ P)
    (hnonneg : ∀ i j, 0 ≤ (q i).getD j 0) : HasRoom q P' profile template sold where
  profile := by
    obtain ⟨p, hp, hsum, hlength⟩ := h.profile
    refine ⟨p, hp, fun j => le_trans ?_ (hsum j), fun i hi => hlength i (hsub hi)⟩
    exact Finset.sum_le_sum_of_subset_of_nonneg hsub fun i _ _ => hnonneg i j
  ports := by
    obtain ⟨ip, lo, hi, htemplate, hports⟩ := h.ports
    have hcard := Finset.card_le_card hsub
    exact ⟨ip, lo, hi, htemplate, by omega⟩

/-- After the sale to a client there is room for the others. -/
lemma sell [DecidableEq ι] (h : HasRoom q P profile template sold) {i : ι} (hi : i ∈ P)
    {p : List ℤ} (hp : csvToIntlist profile = .ok p) :
    HasRoom q (P.erase i) (intlistToCsv (Window.deduct p 0 (q i))) template (sold + 1) where
  profile := by
    obtain ⟨p', hp', hsum, hlength⟩ := h.profile
    obtain rfl := Except.ok.inj (hp.symm.trans hp')
    have hfits : 0 + (q i).length ≤ p.length := by
      rw [Nat.zero_add]
      exact hlength i hi
    have hdeduct := Window.length_deduct hfits
    refine ⟨Window.deduct p 0 (q i), ?_, fun j => ?_, fun k hk => ?_⟩
    · refine csvToIntlist_intlistToCsv fun hnil => csvToIntlist_ne_nil hp ?_
      rw [← List.length_eq_zero_iff, ← hdeduct, hnil, List.length_nil]
    · have hamount : Window.amount 0 (q i) j = (q i).getD j 0 := by
        rw [← Window.amount_add (k := 0) j, Nat.zero_add]
      have htotal := hsum j
      rw [← Finset.add_sum_erase _ _ hi] at htotal
      rw [Window.getD_deduct hfits, hamount]
      omega
    · rw [hdeduct]
      exact hlength k (Finset.mem_of_mem_erase hk)
  ports := by
    obtain ⟨ip, lo, hi', htemplate, hports⟩ := h.ports
    have hcard := Finset.card_erase_add_one hi
    refine ⟨ip, lo, hi', htemplate, ?_⟩
    push_cast
    omega

end HasRoom

/-! ## A stocked market -/

/-- The store holds the chains, its offers are in messages as they are in their rows, and every
chain has room for the clients in `P`. -/
structure Stocked (q : ι → List ℤ) (P : Finset ι) (s : Store) (cs : List (Chain C reg)) :
    Prop where
  represents : Represents s cs
  sealed : ∀ o ∈ s.offers, Sealed C reg o ∧ Dated o
  room : ∀ c ∈ cs, HasRoom q P c.last.bwProfile c.last.brAddressTemplate c.sales.length

/-- The call buys nothing, and what it puts up is in whole seconds, starts after the first day of
the calendar and has room for all clients. -/
structure Supplies [Fintype ι] (q : ι → List ℤ) (call : Call C) : Prop where
  buysNothing : ∀ r, call.request ≠ .purchase r ∧ call.request ≠ .purchaseEquivalent r
  whole : CallsWholeSeconds call
  later : ∀ specs, call.request = .addOffer specs → StartsLater specs
  room : ∀ specs o, call.request = .addOffer specs → OfferProtoSerializer.save specs = .ok o →
    HasRoom q Finset.univ o.bwProfile o.brAddressTemplate 0

/-- The empty market is stocked. -/
lemma Stocked.empty (q : ι → List ℤ) (P : Finset ι) :
    Stocked q P {} ([] : List (Chain C reg)) where
  represents := .empty
  sealed := by simp
  room := by simp

/-- Offers with the same start are read alike from their messages. -/
lemma Dated.of_notbefore {o o' : Offer} (h : Dated o) (heq : o'.notbefore = o.notbefore) :
    Dated o' := by
  rw [Dated, heq]
  exact h

/-- A call that supplies the market keeps all chains and leaves it stocked. -/
lemma Stocked.serve [Fintype ι] {q : ι → List ℤ} {P : Finset ι} (h : Stocked q P s cs)
    (hnonneg : ∀ i j, 0 ≤ (q i).getD j 0) {call : Call C} (hcall : Supplies q call) :
    ∃ cs' : List (Chain C reg), Stocked q P (serve C reg call s).2 cs' ∧ cs <+: cs' := by
  have hout := serve_outcome h.represents call
  generalize (Esdx.serve C reg call s).1 = answer at hout
  generalize (Esdx.serve C reg call s).2 = s' at hout ⊢
  cases hout with
  | @listed specs m head copy hrequest hl hm =>
    obtain ⟨o, hsave, hhead⟩ := hl.created
    have hcopy := hl.copy_eq
    have hwhole := hcall.whole specs hrequest
    have hsaved := OfferProtoSerializer.save_dated hsave hwhole (hcall.later specs hrequest)
    have hdated : Dated head ∧ Dated copy :=
      ⟨hsaved.of_notbefore (by rw [hhead]), hsaved.of_notbefore (by rw [hcopy, hhead])⟩
    obtain ⟨hsealedHead, hsealedCopy⟩ := hl.sealed hwhole hm
    refine ⟨cs ++ [Chain.opened hl.listed], ⟨h.represents.list hl, fun x hx => ?_, fun c hc => ?_⟩,
      List.prefix_append _ _⟩
    · rw [hl.addOfferRows_eq, List.mem_append, List.mem_append, List.mem_singleton,
        List.mem_singleton] at hx
      rcases hx with (hx | rfl) | rfl
      · exact h.sealed x hx
      · exact ⟨hsealedHead, hdated.1⟩
      · exact ⟨hsealedCopy, hdated.2⟩
    · rcases List.mem_append.mp hc with hc | hc
      · exact h.room c hc
      · rw [List.mem_singleton.mp hc]
        have hroom := (hcall.room specs o hrequest hsave).mono (Finset.subset_univ P) hnonneg
        change HasRoom q P copy.bwProfile copy.brAddressTemplate 0
        rw [hcopy, hhead]
        exact hroom
  | @sold exact request m c requested new po k hrequest hc hrequested hid hexact hsale hm =>
    cases exact with
    | true => exact absurd hrequest (hcall.buysNothing request).1
    | false => exact absurd hrequest (hcall.buysNothing request).2
  | shown hrequest hk hm => exact ⟨cs, h, List.prefix_rfl⟩
  | offered hrequest => exact ⟨cs, h, List.prefix_rfl⟩
  | refused e => exact ⟨cs, h, List.prefix_rfl⟩

/-- A sale to the client `i` leaves the market stocked for the others. -/
lemma Stocked.sell [DecidableEq ι] {q : ι → List ℤ} {P : Finset ι} {pre post : List (Chain C reg)}
    {c : Chain C reg} (h : Stocked q P s (pre ++ c :: post))
    (hnonneg : ∀ i j, 0 ≤ (q i).getD j 0) {i : ι} (hi : i ∈ P) {amb : Ambient C}
    {request : PurchaseRequest} {requested new : Offer} {po : PurchaseOrder} {k : Contract}
    (hrequested : requested ∈ c.offers)
    (hsale : IsSale C reg amb request requested c.last s po k new)
    (hprofile : csvToIntlist request.bwProfile = .ok (q i))
    (hstart : timeFromPbTimestamp request.startingOn = .ok c.last.notbefore) :
    ∃ (x : Sale) (hx : Extends C reg c.head c.sales c.last x new), x = ⟨c.last, po, k, requested⟩ ∧
      Stocked q (P.erase i) (s.addSale po k new) (pre ++ c.extend x hx :: post) := by
  obtain ⟨startingOn, hstart', hp⟩ := hsale.purchase
  obtain rfl := Except.ok.inj (hstart'.symm.trans hstart)
  have hc : c ∈ pre ++ c :: post := List.mem_append_right _ List.mem_cons_self
  have hx := hp.extends h.represents hc hrequested
  have hlast := h.represents.mem_offers.mpr ⟨c, hc, c.last_mem⟩
  have hroom := h.room c hc
  obtain ⟨p, hlastProfile, -⟩ := hroom.profile
  obtain ⟨period, hsell, hleft⟩ :=
    (Offer.purchase_eq_some_iff hlastProfile hprofile).mp hp.profile
  obtain rfl : period = 0 := by
    have hzero := (Offer.start_iff.mp hsell.start).2.2
    rw [hzero, Offer.offsetOf, sub_self]
    rfl
  refine ⟨_, hx, rfl, h.represents.sell hx hp, fun o ho => ?_, fun d hd => ?_⟩
  · rw [hp.addSale_eq] at ho
    rcases List.mem_append.mp ho with ho | ho
    · exact h.sealed o ho
    · rw [List.mem_singleton.mp ho]
      exact ⟨hp.sealed (h.sealed _ hlast).1,
        (h.sealed _ hlast).2.of_notbefore (by rw [hp.offer_eq])⟩
  · have hother : ∀ d ∈ pre ++ c :: post,
        HasRoom q (P.erase i) d.last.bwProfile d.last.brAddressTemplate d.sales.length :=
      fun d hd => (h.room d hd).mono (Finset.erase_subset i P) hnonneg
    rcases List.mem_append.mp hd with hd | hd
    · exact hother d (List.mem_append_left _ hd)
    rcases List.mem_cons.mp hd with rfl | hd
    · have hsold := hroom.sell hi hlastProfile
      have hlength : (c.sales ++ [(⟨c.last, po, k, requested⟩ : Sale)]).length =
          c.sales.length + 1 := by simp
      change HasRoom q (P.erase i) new.bwProfile new.brAddressTemplate
        (c.sales ++ [(⟨c.last, po, k, requested⟩ : Sale)]).length
      have htemplate : new.brAddressTemplate = c.last.brAddressTemplate := by rw [hp.offer_eq]
      rw [hlength, hleft, htemplate]
      exact hsold
    · exact hother d (List.mem_append_right _ (List.mem_cons_of_mem _ hd))

/-! ## The program as a retry -/

/-- The offer of the message is available. -/
def Store.isFresh (s : Store) (m : OfferMessage) : Bool := s.offers.any fun o =>
  (o.id : ℤ) = m.id && s.isAvailable o

/-- The phase of the retry that a phase of `client` stands for. -/
def Client.Phase.toRetry (s : Store) : Client.Phase → Retry.Phase
  | .listing attempt => .trying attempt
  | .buying attempt offers => .holding attempt (offers.head?.any s.isFresh)
  | .checking _ => .won
  | .returned _ | .raised _ | .indexError => .done

/-- The client has not bought yet. -/
def Client.Phase.isPending : Client.Phase → Bool
  | .listing _ | .buying _ _ => true
  | _ => false

/-- What a phase says about the chains: the first offer listed is an offer of a chain, signed by the
broker; the contract bought is that of a sale to the client. -/
def Client.Phase.Ok (cs : List (Chain C reg)) (client : Client C) : Client.Phase → Prop
  | .listing _ => True
  | .buying _ offers => ∃ m rest, offers = m :: rest ∧ ∃ c ∈ cs, ∃ o ∈ c.offers,
      o.deprecates ≠ none ∧ OfferProtoSerializer.message o = .ok m
  | .checking m => ∃ c ∈ cs, ∃ x ∈ c.sales, m = x.message ∧ x.order.buyer = client.ia
  | .returned code => code = 0
  | .raised _ | .indexError => False

/-- The chains of `cs'` are those of `cs`, with more offers and sales. -/
def ChainsGrow (cs cs' : List (Chain C reg)) : Prop :=
  ∀ c ∈ cs, ∃ c' ∈ cs', c.offers ⊆ c'.offers ∧ c.sales ⊆ c'.sales

/-- One more sale makes a chain grow. -/
lemma ChainsGrow.extend {pre post : List (Chain C reg)} {c : Chain C reg} {x : Sale} {new : Offer}
    (hx : Extends C reg c.head c.sales c.last x new) :
    ChainsGrow (pre ++ c :: post) (pre ++ c.extend x hx :: post) := by
  intro d hd
  rcases List.mem_append.mp hd with hd | hd
  · exact ⟨d, List.mem_append_left _ hd, List.Subset.refl _, List.Subset.refl _⟩
  rcases List.mem_cons.mp hd with rfl | hd
  · refine ⟨d.extend x hx, List.mem_append_right _ List.mem_cons_self, ?_,
      List.subset_append_left _ _⟩
    rw [Chain.offers_extend]
    exact List.subset_append_left _ _
  · exact ⟨d, List.mem_append_right _ (List.mem_cons_of_mem _ hd), List.Subset.refl _,
      List.Subset.refl _⟩

/-- What a phase says about the chains stays true. -/
lemma Client.Phase.Ok.mono {cs' : List (Chain C reg)} (hgrow : ChainsGrow cs cs')
    {client : Client C} {phase : Client.Phase} (h : phase.Ok cs client) : phase.Ok cs' client := by
  cases phase with
  | listing _ => trivial
  | buying _ _ =>
    obtain ⟨m, rest, hoffers, c, hc, o, ho, hrest⟩ := h
    obtain ⟨c', hc', hsub, -⟩ := hgrow c hc
    exact ⟨m, rest, hoffers, c', hc', o, hsub ho, hrest⟩
  | checking _ =>
    obtain ⟨c, hc, x, hx, hrest⟩ := h
    obtain ⟨c', hc', -, hsub⟩ := hgrow c hc
    exact ⟨c', hc', x, hsub hx, hrest⟩
  | returned _ => exact h
  | raised _ => exact h
  | indexError => exact h

namespace Stocked

variable {q : ι → List ℤ} {P : Finset ι} {client : Client C} (salt : C.Salt)
  (amb : Ambient C)

/-- A client lists the last offers of the chains. -/
lemma listOffers (h : Stocked q P s cs) :
    ∃ sent, Esdx.listOffers s = (.ok sent, s) ∧ sent.length = cs.length ∧
      ∀ m ∈ sent, ∃ c ∈ cs, OfferProtoSerializer.message c.last = .ok m := by
  obtain ⟨sent, hsent, inOrder, hinOrder, hperm⟩ := h.represents.exists_listOffers
    fun o ho => (h.sealed o ho).1.finite
  refine ⟨sent, hsent, hperm.length_eq.symm.trans hinOrder.length_eq.symm, fun m hm => ?_⟩
  exact Machine.exists_of_mem_forall₂ hinOrder.flip (hperm.mem_iff.mpr hm)

/-- A client lists an available offer first. -/
lemma list (h : Stocked q P s cs) (hcs : cs ≠ []) :
    ∃ m rest, MarketClient.list s = (.ok (m :: rest), s) ∧
      ∃ c ∈ cs, OfferProtoSerializer.message c.last = .ok m := by
  obtain ⟨sent, hsent, hlength, hmessage⟩ := h.listOffers
  rcases sent with _ | ⟨m, rest⟩
  · exact absurd (List.length_eq_zero_iff.mp hlength.symm) hcs
  · exact ⟨m, rest, hsent, hmessage m List.mem_cons_self⟩

/-- A client gets the contract that it bought again. -/
lemma getContract (h : Stocked q P s cs) {i : ι} (hready : client.Ready reg (q i))
    {c : Chain C reg} (hc : c ∈ cs) {x : Sale} (hx : x ∈ c.sales)
    (hbuyer : x.order.buyer = client.ia) :
    client.getContract reg salt x.message.contractId s = (.ok x.message, s) := by
  obtain ⟨r, hid, hia, hsigned, heq⟩ := hready.registered.getContract_eq salt x.message.contractId
  rw [heq]
  refine Prod.ext (h.represents.getContract_eq_ok_iff.mpr ⟨hsigned, c, hc, x, hx, rfl, hid.symm,
    .inl (hbuyer.trans hia.symm)⟩) (readOnly_getContract r s)

end Stocked

section System

variable [Fintype ι] [DecidableEq ι]

/-- The clients that have not bought yet. -/
def pending (phases : ι → Client.Phase) : Finset ι := Retry.active Client.Phase.isPending phases

/-- The retry that a state of the system stands for. -/
def System.toRetry (st : System ι) : ι → Retry.Phase := fun i => (st.phases i).toRetry st.store

/-- The market is stocked for the clients that have not bought yet, and no phase is wrong about
it. -/
structure System.Inv (reg : Registry) (clients : ι → Client C) (q : ι → List ℤ) (st : System ι)
    (cs : List (Chain C reg)) : Prop where
  stocked : Stocked q (pending st.phases) st.store cs
  offered : cs ≠ []
  phases : ∀ i, (st.phases i).Ok cs (clients i)

variable {clients : ι → Client C} {q : ι → List ℤ} {st : System ι}

/-- A client that only reads leaves the market and the other clients alone. -/
lemma System.Inv.update (h : st.Inv reg clients q cs) {i : ι} (phase : Client.Phase)
    (hok : phase.Ok cs (clients i)) (hpending : phase.isPending = (st.phases i).isPending) :
    System.Inv reg clients q ⟨st.store, Function.update st.phases i phase⟩ cs ∧
      Retry.SameOthers i st.toRetry
        (System.toRetry ⟨st.store, Function.update st.phases i phase⟩) := by
  refine ⟨⟨?_, h.offered, fun j => ?_⟩, fun j hj => ?_⟩
  · change Stocked q (pending (Function.update st.phases i phase)) st.store cs
    rw [pending, Retry.active_update_of_eq st.phases i hpending]
    exact h.stocked
  · change (Function.update st.phases i phase j).Ok cs (clients j)
    by_cases hj : j = i
    · subst hj
      rwa [Function.update_self]
    · rw [Function.update_of_ne hj]
      exact h.phases j
  · change (Function.update st.phases i phase j).toRetry st.store = _
    rw [Function.update_of_ne hj]
    rfl

end System

/-! ## Two clients of a small market -/

namespace SmallMarket

/-- The seller and the buyer both buy a half of the offer, and try twice. -/
def clients : Fin 2 → Client Crypto.transparent
  | 0 => ⟨⟨"1-ff00:0:110", 's', 'k'⟩, "2,2", 2⟩
  | 1 => ⟨⟨"1-ff00:0:111", 'b', 'k'⟩, "2,2", 2⟩

end SmallMarket

end Esdx
