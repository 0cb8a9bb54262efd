import Esdx.Market.Services
import Esdx.Util.AddressGrammar

/-!
# Chains of offers

The abstract view of the market.  An accepted `AddOffer` starts a chain with the seller's offer,
its head, and the copy signed by the broker.  Every sale takes the last offer of a chain and puts
a new one after it.  `History` says how a chain came about; everything else about a chain, its
links, terms, profile and ports, follows from it by induction.
-/

namespace Esdx

open InetAddress

/-- A sale: the offer sold, its purchase order and contract, and the offer that was requested. -/
structure Sale where
  offer : Offer
  order : PurchaseOrder
  contract : Contract
  requested : Offer

/-- The message about the contract of a sale. -/
def Sale.message (x : Sale) : ContractMessage :=
  ContractProtoSerializer.dataToMessage x.contract x.order x.order.buyer x.offer

/-- The offers agree on everything but id, signature, profile and the offer replaced. -/
def SameTerms (a b : Offer) : Prop :=
  b = { a with
    id := b.id
    signature := b.signature
    bwProfile := b.bwProfile
    deprecates := b.deprecates }

/-- The offers of a chain, from the head to the last one. -/
def chainOffers (head : Offer) (sales : List Sale) (last : Offer) : List Offer :=
  head :: (sales.map Sale.offer ++ [last])

/-- The port after the last sale. -/
def portAfter (sales : List Sale) (minPort : ℤ) : Except Exc ℤ :=
  match sales.getLast? with
  | none => .ok minPort
  | some x => do
    let (_, port) ← ipPortFromStr x.contract.brAddress
    return port + 1

/-- `head` and `copy` start a chain. -/
structure Listed (C : Crypto) (reg : Registry) (head copy : Offer) : Prop where
  original : head.deprecates = none
  seller_signed : head.validateSignatureFromSeller C reg = .ok ()
  valid : ∃ s, head.preSave s = .ok ()
  copy_eq : copy = { head with
    id := copy.id
    signature := copy.signature
    deprecates := some head.id }

/-- The sale `x` takes the last offer of a chain and puts `new` after it. -/
structure Extends (C : Crypto) (reg : Registry) (head : Offer) (sales : List Sale) (last : Offer)
    (x : Sale) (new : Offer) : Prop where
  offer_eq : x.offer = last
  order_offer : x.order.offer = last.id
  buyer : ∃ a, reg.getAs x.order.buyer = .ok a
  contract_order : x.contract.purchaseOrder = x.order.id
  requested_mem : x.requested ∈ chainOffers head sales last
  order_signed : x.order.validateSignature C reg x.requested = .ok ()
  contract_signed : x.contract.validateSignature C reg x.order x.requested = .ok ()
  contract_sealed : ∃ key salt data, reg.getBrokerKey C = .ok key ∧
    x.contract.serializeToBytes x.order x.requested = .ok data ∧
    x.contract.signatureBroker = C.signatureCreate key salt data
  address : ∃ ip lo hi port, ipPortRangeFromStr last.brAddressTemplate = .ok (ip, lo, hi) ∧
    portAfter sales lo = .ok port ∧ port ≤ hi ∧ x.contract.brAddress = ipPortToStr ip port
  profile : last.purchase x.order.bwProfile x.order.startingOn = .ok (some new.bwProfile)
  new_eq : new = { last with
    id := new.id
    signature := new.signature
    bwProfile := new.bwProfile
    deprecates := some last.id }

/-- How a chain came about: it was listed, and then sold sale by sale. -/
inductive History (C : Crypto) (reg : Registry) : Offer → List Sale → Offer → Prop
  | listed {head copy : Offer} (h : Listed C reg head copy) : History C reg head [] copy
  | sold {head last new : Offer} {sales : List Sale} {x : Sale}
      (history : History C reg head sales last) (h : Extends C reg head sales last x new) :
      History C reg head (sales ++ [x]) new

/-- A chain of offers with its sales. -/
structure Chain (C : Crypto) (reg : Registry) where
  head : Offer
  sales : List Sale
  last : Offer
  history : History C reg head sales last

variable {C : Crypto} {reg : Registry}

/-! ## Links and terms -/

/-- A sale puts the new offer at the end. -/
lemma chainOffers_concat {head new : Offer} {sales : List Sale} {x : Sale} :
    chainOffers head (sales ++ [x]) new = chainOffers head sales x.offer ++ [new] := by
  simp [chainOffers]

/-- The last offer of a chain is at its end. -/
lemma getLast_chainOffers {head last : Offer} {sales : List Sale} :
    (chainOffers head sales last).getLast? = some last := by
  rw [chainOffers, ← List.cons_append, List.getLast?_concat]

namespace History

variable {head last : Offer} {sales : List Sale}

/-- The head replaces no offer and was signed by the seller. -/
lemma isListed (h : History C reg head sales last) : ∃ copy, Listed C reg head copy := by
  induction h with
  | listed h => exact ⟨_, h⟩
  | sold _ _ ih => exact ih

/-- Every offer of a chain replaces the one before it. -/
lemma linked (h : History C reg head sales last) :
    (chainOffers head sales last).IsChain fun a b => b.deprecates = some a.id := by
  induction h with
  | listed h =>
    rw [chainOffers, List.map_nil, List.nil_append, List.isChain_pair, h.copy_eq]
  | @sold last new sales x history h ih =>
    rw [chainOffers_concat, h.offer_eq]
    refine List.isChain_append.mpr ⟨ih, List.isChain_singleton _, fun a ha b hb => ?_⟩
    have hlast : last = a := by simpa [getLast_chainOffers] using ha
    have hnew : new = b := by simpa using hb
    rw [← hnew, ← hlast, h.new_eq]

/-- The last offer replaces the head, or the offer of the last sale. -/
lemma last_deprecates (h : History C reg head sales last) :
    (sales = [] ∧ last.deprecates = some head.id) ∨
      ∃ init x, sales = init ++ [x] ∧ last.deprecates = some x.offer.id := by
  cases h with
  | listed h => exact .inl ⟨rfl, by rw [h.copy_eq]⟩
  | sold history h => exact .inr ⟨_, _, rfl, by rw [h.new_eq, h.offer_eq]⟩

/-- All offers of a chain have the terms of the head. -/
lemma sameTerms (h : History C reg head sales last) :
    ∀ o ∈ chainOffers head sales last, SameTerms head o := by
  induction h with
  | listed h =>
    intro o ho
    simp only [chainOffers, List.map_nil, List.nil_append, List.mem_cons, List.not_mem_nil,
      or_false] at ho
    rcases ho with rfl | rfl
    · rfl
    · rw [h.copy_eq]
      rfl
  | @sold last new sales x history h ih =>
    intro o ho
    rw [chainOffers_concat, h.offer_eq, List.mem_append, List.mem_singleton] at ho
    rcases ho with ho | rfl
    · exact ih o ho
    · have hlast : SameTerms head last := ih last (by simp [chainOffers])
      rw [h.new_eq]
      unfold SameTerms at hlast ⊢
      rw [hlast]

/-- Every offer of a chain but the head replaces another one. -/
lemma deprecates_isSome (h : History C reg head sales last) :
    ∀ o ∈ sales.map Sale.offer ++ [last], o.deprecates.isSome := by
  induction h with
  | listed h =>
    intro o ho
    obtain rfl : o = _ := by simpa using ho
    rw [h.copy_eq]
    rfl
  | @sold last new sales x history h ih =>
    intro o ho
    rw [List.map_append, List.map_singleton, h.offer_eq, List.mem_append, List.mem_singleton] at ho
    rcases ho with ho | rfl
    · exact ih o ho
    · rw [h.new_eq]
      rfl

/-- Every sale of a chain extends the history before it. -/
lemma extends_of_sales_eq (h : History C reg head sales last) {pre post : List Sale} {x : Sale}
    (hsales : sales = pre ++ x :: post) :
    History C reg head pre x.offer ∧ ∃ new, Extends C reg head pre x.offer x new := by
  induction h generalizing post with
  | listed h => simp at hsales
  | @sold last new sales y history h ih =>
    rcases List.eq_nil_or_concat post with rfl | ⟨post, z, rfl⟩
    · obtain ⟨rfl, hxy⟩ := List.append_inj' hsales rfl
      obtain rfl : y = x := by simpa using hxy
      rw [h.offer_eq]
      exact ⟨history, new, h⟩
    · rw [List.concat_eq_append, ← List.cons_append, ← List.append_assoc] at hsales
      exact ih (List.append_inj_left' hsales rfl)

/-! ## Profiles -/

/-- What the sale `x` takes from the profile of its chain: the first period, and the amounts. -/
def Takes (head : Offer) (x : Sale) (window : ℕ × List ℤ) : Prop :=
  bwPeriod ∣ x.order.startingOn - head.notbefore ∧ head.notbefore ≤ x.order.startingOn ∧
    window.1 = head.offsetOf x.order.startingOn ∧ csvToIntlist x.order.bwProfile = .ok window.2 ∧
    window.2.sum ≠ 0

/-- **The account of a chain.**  The profile of the head is the account's opening, the profile of
the last offer is what remains, and the sales are the windows sold. -/
theorem exists_account (h : History C reg head sales last) :
    ∃ a : Window.Account ℤ, csvToIntlist head.bwProfile = .ok a.initial ∧
      csvToIntlist last.bwProfile = .ok a.remaining ∧ List.Forall₂ (Takes head) sales a.sold := by
  induction h with
  | @listed copy h =>
    obtain ⟨s, hs⟩ := h.valid
    obtain ⟨hclean, hlife⟩ := Offer.preSave_eq_ok.mp hs
    obtain ⟨-, -, ⟨profile, hprofile, -⟩, -⟩ := Offer.checkLifespan_eq_ok.mp hlife
    have hnonneg := Offer.nonneg_of_isIntList (Offer.cleanFields_eq_nil.mp hclean).2.2.1.2 hprofile
    have hcopy : copy.bwProfile = head.bwProfile := by rw [h.copy_eq]
    refine ⟨.opened profile (Window.getD_nonneg hnonneg), hprofile, ?_, .nil⟩
    rw [hcopy]
    exact hprofile
  | @sold last new sales x history h ih =>
    obtain ⟨a, hinitial, hremaining, hsold⟩ := ih
    obtain ⟨orig, that, horig, hthat, hdvd, hle, hfits, hsum, hnew⟩ :=
      Offer.purchase_eq_some.mp h.profile
    obtain rfl : a.remaining = orig := Except.ok.inj (hremaining.symm.trans horig)
    have hterms := history.sameTerms last (by simp [chainOffers])
    have hstart : last.notbefore = head.notbefore := by rw [hterms]
    have hoffset : last.offsetOf x.order.startingOn = head.offsetOf x.order.startingOn := by
      rw [Offer.offsetOf, Offer.offsetOf, hstart]
    rw [hoffset] at hfits hnew
    refine ⟨a.sell _ that hfits, hinitial, ?_, ?_⟩
    · rw [hnew]
      refine csvToIntlist_intlistToCsv fun hnil => csvToIntlist_ne_nil hremaining ?_
      rw [← List.length_eq_zero_iff, ← Window.length_deduct hfits.1, hnil, List.length_nil]
    · refine List.rel_append hsold (.cons ⟨?_, ?_, rfl, hthat, hsum⟩ .nil)
      · rw [← hstart]
        exact hdvd
      · rw [← hstart]
        exact hle

/-! ## Ports -/

/-- The sales have the ports from `lo` upwards, all of them up to `hi`. -/
def Consecutive (ip : IPAddress) (lo hi : ℤ) (sales : List Sale) : Prop :=
  ∀ (k : ℕ) (x : Sale), sales[k]? = some x →
    x.contract.brAddress = ipPortToStr ip (lo + k) ∧ lo + k ≤ hi

/-- The address of the last sale is read back, so the next port is the next one in the row. -/
lemma portAfter_eq {ip : IPAddress} {lo hi : ℤ} {sales : List Sale} (hip : Reparsable ip)
    (hlo : 0 ≤ lo) (hhi : hi ≤ 65534) (hsales : Consecutive ip lo hi sales) :
    portAfter sales lo = .ok (lo + sales.length) := by
  rcases List.eq_nil_or_concat sales with rfl | ⟨init, x, rfl⟩
  · simp [portAfter]
  · obtain ⟨haddr, hmax⟩ := hsales init.length x (by simp)
    rw [portAfter, List.concat_eq_append, List.getLast?_concat]
    dsimp only
    rw [haddr, ipPortFromStr_ipPortToStr hip (by omega) (by omega), List.length_append,
      List.length_singleton, Nat.cast_add, ← add_assoc]
    rfl

/-- **Ports.**  The sales of a chain have the ports from the lowest one of the template upwards. -/
theorem consecutive (h : History C reg head sales last) {ip : IPAddress} {lo hi : ℤ}
    (htemplate : ipPortRangeFromStr head.brAddressTemplate = .ok (ip, lo, hi)) :
    Consecutive ip lo hi sales := by
  obtain ⟨hip, hlo, -, hhi⟩ := ipPortRangeFromStr_ok htemplate
  induction h with
  | listed h =>
    intro k x hx
    simp at hx
  | @sold last new sales y history h ih =>
    intro k x hx
    rcases Nat.lt_or_ge k sales.length with hlt | hge
    · rw [List.getElem?_append_left hlt] at hx
      exact ih k x hx
    · obtain ⟨ip', lo', hi', port, htemplate', hport, hmax, haddr⟩ := h.address
      have hterms : last.brAddressTemplate = head.brAddressTemplate := by
        rw [history.sameTerms last (by simp [chainOffers])]
      rw [hterms, htemplate, Except.ok.injEq, Prod.mk.injEq, Prod.mk.injEq] at htemplate'
      obtain ⟨rfl, rfl, rfl⟩ := htemplate'
      rw [portAfter_eq hip hlo hhi ih, Except.ok.injEq] at hport
      have hk : k = sales.length := by
        have := (List.getElem?_eq_some_iff.mp hx).1
        rw [List.length_append, List.length_singleton] at this
        omega
      subst hk hport
      rw [List.getElem?_concat_length, Option.some.injEq] at hx
      rw [← hx]
      exact ⟨haddr, hmax⟩

end History

end Esdx
