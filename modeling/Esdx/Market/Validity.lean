import Esdx.Market.Runs
import Esdx.Market.Windows

/-!
# The remainder of a sale is valid

`_pre_save` checks an offer before it is stored.  The offer that a sale stores for what is left is
checked too, after the purchase order and the contract were created.  This file shows that the check
never fails: the remainder of a valid offer is valid.
-/

namespace Esdx

open PythonText Window

/-! ## What the checks ask -/

/-- The offer passes every check of `_pre_save` but the one of the offer that it replaces. -/
structure Offer.Valid (o : Offer) : Prop where
  iaid : o.iaid ≠ "" ∧ (∃ v, iaStrToInt o.iaid = .ok v) ∧ o.iaid.toList.length ≤ 255
  qosClass : -2147483648 ≤ o.qosClass ∧ o.qosClass ≤ 2147483647
  intList : o.bwProfile ≠ "" ∧ isIntList o.bwProfile = true
  lifespan : o.notbefore ≤ o.notafter ∧ bwPeriod ∣ o.notafter - o.notbefore
  profile : ∃ p, csvToIntlist o.bwProfile = .ok p ∧ (∀ z ∈ p, 0 ≤ z) ∧ 1 ≤ p.length ∧
    p.length = (o.notafter - o.notbefore) / bwPeriod
  template : o.brAddressTemplate ≠ "" ∧ ∃ range, ipPortRangeFromStr o.brAddressTemplate = .ok range
  brMtu : 100 ≤ o.brMtu ∧ o.brMtu ≤ 65534
  brLinkTo : o.brLinkTo ∈ brLinkToChoices

/-- The offer replaces none, or one that is stored and that no stored offer replaces. -/
def Offer.ReplacesLatest (o : Offer) (s : Store) : Prop :=
  ∀ d, o.deprecates = some d → (∃ x ∈ s.offers, x.id = d) ∧
    ∀ x ∈ s.offers, x.deprecates ≠ some d

/-- The check of the offer replaced. -/
lemma deprecatesErrors_eq_nil {o : Offer} {s : Store} :
    o.deprecatesErrors s = [] ↔ o.ReplacesLatest s := by
  unfold Offer.deprecatesErrors Offer.ReplacesLatest
  rcases o.deprecates with _ | d
  · simp
  dsimp only
  split
  · rename_i hmissing
    refine iff_of_false (by simp) fun h => ?_
    obtain ⟨⟨x, hx, hid⟩, -⟩ := h d rfl
    have hne := List.all_eq_true.mp hmissing x hx
    simp [hid] at hne
  · rename_i hstored
    split
    · rename_i hclash
      refine iff_of_false (by simp) fun h => ?_
      obtain ⟨x, hx, hdep⟩ := List.any_eq_true.mp hclash
      exact (h d rfl).2 x hx (by simpa using hdep)
    · rename_i hlatest
      refine iff_of_true rfl fun d' hd' => ?_
      obtain rfl := Option.some.inj hd'
      constructor
      · simpa using hstored
      · intro x hx hdep
        exact hlatest (List.any_eq_true.mpr ⟨x, hx, by simpa using hdep⟩)

/-- `_pre_save` passes exactly the valid offers that replace the latest one. -/
lemma preSave_iff_valid {o : Offer} {s : Store} :
    o.preSave s = .ok () ↔ o.Valid ∧ o.ReplacesLatest s := by
  rw [Offer.preSave_eq_ok, Offer.cleanFields_eq_nil, Offer.checkLifespan_eq_ok,
    deprecatesErrors_eq_nil]
  constructor
  · rintro ⟨⟨hiaid, hqos, hlist, htemplate, hmtu, hlink, hreplaces⟩, hle, hdvd,
      ⟨p, hp, hlength⟩, hrange⟩
    refine ⟨⟨hiaid, hqos, hlist, ⟨hle, hdvd⟩, ⟨p, hp, Offer.nonneg_of_isIntList hlist.2 hp, ?_,
      hlength⟩, ⟨htemplate, hrange⟩, hmtu, hlink⟩, hreplaces⟩
    exact List.length_pos_iff.mpr (csvToIntlist_ne_nil hp)
  · rintro ⟨h, hreplaces⟩
    obtain ⟨p, hp, -, -, hlength⟩ := h.profile
    exact ⟨⟨h.iaid, h.qosClass, h.intList, h.template.1, h.brMtu, h.brLinkTo, hreplaces⟩,
      h.lifespan.1, h.lifespan.2, ⟨p, hp, hlength⟩, h.template.2⟩

/-! ## The remainder -/

/-- A plain list passes the regular expression of the validator. -/
lemma isIntList_of_isPlainCsv {s : String} (h : IsPlainCsv s) : isIntList s = true := by
  refine List.all_eq_true.mpr fun part hpart => ?_
  obtain ⟨hne, hdigits⟩ := h part hpart
  rw [Bool.and_eq_true, List.all_eq_true]
  refine ⟨by simpa using hne, fun c hc => ?_⟩
  have hdigit := hdigits c hc
  have hrange : '0' ≤ c ∧ c ≤ '9' := by
    simp only [Char.isDigit, Bool.and_eq_true, decide_eq_true_eq] at hdigit
    exact hdigit
  rw [isDecimal, decimalValue, if_pos (isAscii_of_isDigit hdigit), if_pos hrange]
  rfl

/-- The empty text is no plain list. -/
lemma IsPlainCsv.ne_empty {s : String} (h : IsPlainCsv s) : s ≠ "" := by
  rintro rfl
  exact (h [] (by simp)).1 rfl

/-- The remainder of a valid offer is valid. -/
lemma Offer.Valid.remainder {o o' : Offer} (h : o.Valid) {request result : String} {starting : ℤ}
    (hpurchase : o.purchase request starting = .ok (some result))
    (ho' : o' = { o with
      id := o'.id
      signature := o'.signature
      bwProfile := result
      deprecates := o'.deprecates }) : o'.Valid := by
  obtain ⟨p, hp, hnonneg, hpos, hlength⟩ := h.profile
  obtain ⟨p', q, hp', hq, -⟩ := purchase_eq_some.mp hpurchase
  obtain ⟨k, hsell, hresult⟩ := (purchase_eq_some_iff hp hq).mp hpurchase
  have hleft : (deduct p k q).length = p.length := length_deduct hsell.within
  have hne : deduct p k q ≠ [] := List.length_pos_iff.mp (by omega)
  have hplain : IsPlainCsv result := by
    rw [hresult]
    exact isPlainCsv_intlistToCsv hne (hsell.deduct_nonneg hnonneg)
  rw [ho']
  exact {
    iaid := h.iaid
    qosClass := h.qosClass
    intList := ⟨hplain.ne_empty, isIntList_of_isPlainCsv hplain⟩
    lifespan := h.lifespan
    profile := by
      refine ⟨deduct p k q, ?_, hsell.deduct_nonneg hnonneg, by omega, by rw [hleft]; exact hlength⟩
      rw [hresult]
      exact csvToIntlist_intlistToCsv hne
    template := h.template
    brMtu := h.brMtu
    brLinkTo := h.brLinkTo }

/-! ## Stored offers -/

variable {C : Crypto} {reg : Registry}

/-- All offers of a chain are valid. -/
lemma History.valid {head last : Offer} {sales : List Sale} (h : History C reg head sales last) :
    ∀ o ∈ chainOffers head sales last, o.Valid := by
  induction h with
  | listed h =>
    obtain ⟨s, hs⟩ := h.valid
    have hhead := (preSave_iff_valid.mp hs).1
    intro o ho
    simp only [chainOffers, List.map_nil, List.nil_append, List.mem_cons, List.not_mem_nil,
      or_false] at ho
    rcases ho with rfl | rfl
    · exact hhead
    · rw [h.copy_eq]
      exact ⟨hhead.iaid, hhead.qosClass, hhead.intList, hhead.lifespan, hhead.profile,
        hhead.template, hhead.brMtu, hhead.brLinkTo⟩
  | @sold last new sales x history h ih =>
    intro o ho
    rw [chainOffers_concat, h.offer_eq, List.mem_append, List.mem_singleton] at ho
    rcases ho with ho | rfl
    · exact ih o ho
    · have hlast : last.Valid := ih last (by simp [chainOffers])
      apply hlast.remainder h.profile
      rw [h.new_eq]

/-- All offers of the store are valid. -/
lemma Represents.valid {s : Store} {cs : List (Chain C reg)} (h : Represents s cs) {o : Offer}
    (ho : o ∈ s.offers) : o.Valid := by
  obtain ⟨c, -, hoc⟩ := h.mem_offers.mp ho
  exact c.history.valid o hoc

/-- The last offer of a chain is replaced by none. -/
lemma Represents.latest {s : Store} {cs : List (Chain C reg)} (h : Represents s cs)
    {c : Chain C reg} (hc : c ∈ cs) : ∀ x ∈ s.offers, x.deprecates ≠ some c.last.id := by
  have havailable := (h.isAvailable_iff hc c.last_mem).mpr rfl
  rw [Store.isAvailable, Option.isNone_iff_eq_none, Store.deprecatedBy, List.find?_eq_none]
    at havailable
  intro x hx hdep
  exact havailable x hx (by simpa using hdep)

/-! ## The transaction up to the last check -/

variable (C reg)

/-- `purchase_offer` until the offer for what is left is saved. -/
def purchaseOfferUnsaved (amb : Ambient C) (requestedOffer availableOffer : Offer)
    (buyerIaid : String) (buyerStartingOn : ℤ) (buyerBwProfile : String) (buyerSignature : Bytes) :
    Db (Contract × Offer) := do
  let buyer ← reg.getAs buyerIaid
  let some newProfile ← availableOffer.purchase buyerBwProfile buyerStartingOn
    | Tx.raise (.runtimeError "offer does not contain the requested BW profile")
  let purchaseOrder ← insertPurchaseOrder
    { offer := availableOffer.id
      buyer := buyer.iaid
      signature := buyerSignature
      bwProfile := buyerBwProfile
      startingOn := buyerStartingOn }
  purchaseOrder.validateSignature C reg requestedOffer
  let s ← Tx.read
  let brAddress ← findAvailableBrAddress s availableOffer
  let contract ← Contract.stampSignature C reg amb
    { purchaseOrder := purchaseOrder.id, timestamp := amb.now, brAddress, signatureBroker := [] }
    purchaseOrder requestedOffer
  let contract ← insertContract contract
  contract.validateSignature C reg purchaseOrder requestedOffer
  let newOffer ← Offer.signWithBroker C reg amb.offerSalt
    { availableOffer.clone with
      id := 0
      deprecates := some availableOffer.id
      bwProfile := newProfile }
  return (contract, newOffer)

/-- What is left of `purchase_offer` is to save the offer. -/
lemma purchaseOffer_eq (amb : Ambient C) (requested available : Offer) (buyerIaid : String)
    (startingOn : ℤ) (bwProfile : String) (signature : Bytes) :
    purchaseOffer C reg amb requested available buyerIaid startingOn bwProfile signature =
      Tx.atomic do
        let (contract, newOffer) ← purchaseOfferUnsaved C reg amb requested available buyerIaid
          startingOn bwProfile signature
        let newOffer ← newOffer.save
        return (contract, newOffer) := by
  unfold purchaseOffer purchaseOfferUnsaved
  congr 1
  rw [Tx.bind_assoc]
  congr 1
  funext buyer
  rw [Tx.bind_assoc]
  congr 1
  funext profile
  rcases profile with _ | profile
  · rfl
  · simp only [Tx.bind_assoc, Tx.pure_bind]

variable {C reg}

/-- Before the last check the purchase order and the contract are stored, and the offer for what is
left is built. -/
lemma purchaseOfferUnsaved_ok {amb : Ambient C} {requested available : Offer} {buyerIaid : String}
    {startingOn : ℤ} {bwProfile : String} {signature : Bytes} {s s' : Store} {c : Contract}
    {o : Offer}
    (h : purchaseOfferUnsaved C reg amb requested available buyerIaid startingOn bwProfile signature
      s = (.ok (c, o), s')) :
    available.purchase bwProfile startingOn = .ok (some o.bwProfile) ∧
      o = { available with
        id := o.id
        signature := o.signature
        bwProfile := o.bwProfile
        deprecates := some available.id } ∧
      s'.offers = s.offers ∧ ∃ po, po ∈ s'.purchaseOrders ∧ po.offer = available.id ∧
        c ∈ s'.contracts ∧ c.purchaseOrder = po.id := by
  unfold purchaseOfferUnsaved at h
  obtain ⟨buyer, -, h⟩ := Tx.bind_liftM_eq_ok.mp h
  obtain ⟨profile, hprofile, h⟩ := Tx.bind_liftM_eq_ok.mp h
  rcases profile with _ | profile
  · simp at h
  obtain ⟨po, _, hpo, h⟩ := Tx.bind_eq_ok.mp h
  obtain ⟨-, rfl, rfl⟩ := insertPurchaseOrder_eq_ok.mp hpo
  obtain ⟨_, -, h⟩ := Tx.bind_liftM_eq_ok.mp h
  obtain ⟨address, -, h⟩ := Tx.bind_liftM_eq_ok.mp (Tx.bind_read_eq_ok.mp h)
  obtain ⟨c₁, hstamp, h⟩ := Tx.bind_liftM_eq_ok.mp h
  obtain ⟨key, data, -, -, rfl⟩ := stampSignature_eq_ok.mp hstamp
  obtain ⟨c₂, _, hc, h⟩ := Tx.bind_eq_ok.mp h
  obtain ⟨-, rfl, rfl⟩ := insertContract_eq_ok.mp hc
  obtain ⟨_, -, h⟩ := Tx.bind_liftM_eq_ok.mp h
  obtain ⟨o₁, hsign, h⟩ := Tx.bind_liftM_eq_ok.mp h
  obtain ⟨key', data', -, -, rfl⟩ := signWithBroker_eq_ok.mp hsign
  obtain ⟨hret, rfl⟩ := Tx.pure_eq_ok.mp h
  obtain ⟨rfl, rfl⟩ := Prod.mk.inj hret
  exact ⟨hprofile, rfl, rfl, _, List.mem_append_right _ (List.mem_singleton_self _), rfl,
    List.mem_append_right _ (List.mem_singleton_self _), rfl⟩

/-- The offer for what is left passes its check. -/
lemma Represents.save_remainder {s s' : Store} {cs : List (Chain C reg)} (h : Represents s cs)
    {exact : Bool} {request : PurchaseRequest} {requested available : Offer}
    (hget : offersGetter exact request s = .ok (requested, available)) {amb : Ambient C}
    {buyerIaid : String} {startingOn : ℤ} {bwProfile : String} {signature : Bytes} {c : Contract}
    {o : Offer}
    (hunsaved : purchaseOfferUnsaved C reg amb requested available buyerIaid startingOn bwProfile
      signature s = (.ok (c, o), s')) :
    o.save s' = (.ok { o with id := s'.nextOffer }, s'.addOfferRow o) := by
  obtain ⟨chain, hchain, -, rfl, -, -⟩ := servesLast_offersGetter h exact request _ _ hget
  obtain ⟨hprofile, ho, hoffers, -⟩ := purchaseOfferUnsaved_ok hunsaved
  have hstored : chain.last ∈ s.offers := h.mem_offers.mpr ⟨chain, hchain, chain.last_mem⟩
  have hdeprecates : o.deprecates = some chain.last.id := by rw [ho]
  have hlatest : ∀ d, o.deprecates = some d → ∀ x ∈ s'.offers, x.deprecates ≠ some d := by
    intro d hd x hx
    obtain rfl := Option.some.inj (hdeprecates.symm.trans hd)
    rw [hoffers] at hx
    exact h.latest hchain x hx
  have hvalid : o.Valid := by
    apply (h.valid hstored).remainder hprofile
    rw [hdeprecates]
    exact ho
  refine save_eq_ok.mpr ⟨preSave_iff_valid.mpr ⟨hvalid, fun d hd => ⟨?_, hlatest d hd⟩⟩, hlatest,
    rfl, rfl⟩
  obtain rfl := Option.some.inj (hdeprecates.symm.trans hd)
  exact ⟨chain.last, by rwa [hoffers], rfl⟩

/-- **Derived offers are valid.**  The offer for what a purchase leaves of a valid offer is valid,
and passes `_pre_save` where the offer sold is stored and not replaced.  After every run all stored
offers are valid, and a purchase that has come to saving the offer for what is left, with its
purchase order and its contract stored, saves it. -/
theorem run_remainderValid (C : Crypto) (reg : Registry) (calls : List (Call C)) :
    (∀ (s₀ : Store) (o : Offer), o.preSave s₀ = .ok () →
      ∀ (request result : String) (starting : ℤ),
        o.purchase request starting = .ok (some result) → ∀ (signature : Bytes) (s : Store),
        let new : Offer := { o.clone with
          id := 0
          signature := signature
          deprecates := some o.id
          bwProfile := result }
        new.Valid ∧ (o ∈ s.offers → (∀ x ∈ s.offers, x.deprecates ≠ some o.id) →
          new.preSave s = .ok ())) ∧
    (∀ o ∈ (run C reg calls).2.offers, o.Valid) ∧
    ∀ (exact : Bool) (request : PurchaseRequest) (requested available : Offer),
      offersGetter exact request (run C reg calls).2 = .ok (requested, available) →
      ∀ (amb : Ambient C) (buyerIaid : String) (startingOn : ℤ) (bwProfile : String)
        (signature : Bytes) (c : Contract) (o : Offer) (s : Store),
        purchaseOfferUnsaved C reg amb requested available buyerIaid startingOn bwProfile signature
          (run C reg calls).2 = (.ok (c, o), s) →
        (∃ po, po ∈ s.purchaseOrders ∧ po.offer = available.id ∧ c ∈ s.contracts ∧
          c.purchaseOrder = po.id) ∧
        o.save s = (.ok { o with id := s.nextOffer }, s.addOfferRow o) ∧
        purchaseOffer C reg amb requested available buyerIaid startingOn bwProfile signature
          (run C reg calls).2 = (.ok (c, { o with id := s.nextOffer }), s.addOfferRow o) := by
  obtain ⟨cs, hexplains⟩ := exists_chains C reg calls
  have h := hexplains.represents
  refine ⟨?_, fun o ho => h.valid ho, ?_⟩
  · intro s₀ o ho request result starting hpurchase signature s new
    have hvalid : new.Valid := (preSave_iff_valid.mp ho).1.remainder hpurchase rfl
    refine ⟨hvalid, fun hstored hlatest => preSave_iff_valid.mpr ⟨hvalid, fun d hd => ?_⟩⟩
    obtain rfl := Option.some.inj hd
    exact ⟨⟨o, hstored, rfl⟩, hlatest⟩
  · intro exact request requested available hget amb buyerIaid startingOn bwProfile signature c o s
      hunsaved
    have hsave := h.save_remainder hget hunsaved
    obtain ⟨-, -, -, hstored⟩ := purchaseOfferUnsaved_ok hunsaved
    refine ⟨hstored, hsave, ?_⟩
    rw [purchaseOffer_eq, Tx.atomic_eq_ok]
    exact Tx.bind_eq_ok.mpr ⟨_, _, hunsaved, Tx.bind_eq_ok.mpr ⟨_, _, hsave, rfl⟩⟩

end Esdx
