import Esdx.Market.Offers

/-!
# Windows of one offer

`Offer.purchase` takes a window from the profile of an offer, and prints the profile that is left.
This file says exactly which windows can be taken and what is left, as the numbers that the texts
stand for, and that windows taken one after the other can be taken in any order.
-/

namespace Esdx

open PythonText Window

/-! ## Printed profiles -/

/-- The text is a comma-separated list of plain decimal numbers. -/
def IsPlainCsv (s : String) : Prop :=
  ∀ part ∈ s.toList.splitOn ',', part ≠ [] ∧ ∀ c ∈ part, c.isDigit

/-- A natural number is printed with digits only. -/
lemma isDigit_of_mem_toString {z : ℤ} (hz : 0 ≤ z) {c : Char} (hc : c ∈ (toString z).toList) :
    c.isDigit := by
  obtain ⟨n, rfl⟩ := Int.eq_ofNat_of_zero_le hz
  have hc : c ∈ n.repr.toList := hc
  rw [Nat.toList_repr] at hc
  exact isDigit_of_mem_toDigits hc

/-- A number is printed with at least one character. -/
lemma toString_ne_nil (z : ℤ) : (toString z).toList ≠ [] := by
  intro hnil
  have hread := pyInt_toString z
  have hempty : pyInt 10 [] = none := by decide
  rw [hnil, hempty] at hread
  simp at hread

/-- The parts of a printed list are its printed numbers. -/
lemma splitOn_intlistToCsv {l : List ℤ} (h : l ≠ []) :
    (intlistToCsv l).toList.splitOn ',' = l.map fun z => (toString z).toList := by
  rw [intlistToCsv, String.toList_ofList]
  exact List.splitOn_intercalate _ (by simpa using fun z _ => comma_notMem_toString z)
    (by simpa using h)

/-- Natural numbers are printed as a plain list. -/
lemma isPlainCsv_intlistToCsv {l : List ℤ} (h : l ≠ []) (hnonneg : ∀ z ∈ l, 0 ≤ z) :
    IsPlainCsv (intlistToCsv l) := by
  intro part hpart
  rw [splitOn_intlistToCsv h, List.mem_map] at hpart
  obtain ⟨z, hz, rfl⟩ := hpart
  exact ⟨toString_ne_nil z, fun c hc => isDigit_of_mem_toString (hnonneg z hz) hc⟩

/-! ## One window -/

namespace Offer

/-- The request `q` starts `k` periods after the start of the offer, lies within its profile `p`,
takes no negative amount and none above what is left, and takes something. -/
structure CanSell (o : Offer) (p q : List ℤ) (starting : ℤ) (k : ℕ) : Prop where
  start : starting = o.notbefore + k * bwPeriod
  within : k + q.length ≤ p.length
  available : ∀ i < q.length, 0 ≤ q.getD i 0 ∧ q.getD i 0 ≤ p.getD (k + i) 0
  something : ∃ i < q.length, 0 < q.getD i 0

/-- Amounts without a negative one have a sum that is not zero when one of them is positive. -/
lemma sum_ne_zero_iff {q : List ℤ} (h : ∀ i < q.length, 0 ≤ q.getD i 0) :
    q.sum ≠ 0 ↔ ∃ i < q.length, 0 < q.getD i 0 := by
  have hnonneg : ∀ z ∈ q, 0 ≤ z := by
    intro z hz
    obtain ⟨i, hi, rfl⟩ := List.getElem_of_mem hz
    have hi' := h i hi
    rwa [List.getD_eq_getElem _ _ hi] at hi'
  constructor
  · intro hsum
    by_contra hnone
    apply hsum
    refine List.sum_eq_zero fun z hz => ?_
    obtain ⟨i, hi, rfl⟩ := List.getElem_of_mem hz
    have hle : ¬0 < q.getD i 0 := fun hpos => hnone ⟨i, hi, hpos⟩
    have hi' := h i hi
    rw [List.getD_eq_getElem _ _ hi] at hle hi'
    omega
  · rintro ⟨i, hi, hpos⟩ hsum
    have hzero := List.all_zero_of_le_zero_le_of_sum_eq_zero hnonneg hsum (List.getElem_mem hi)
    rw [List.getD_eq_getElem _ _ hi] at hpos
    omega

/-- A purchase starts some number of periods after the start of the offer. -/
lemma start_iff {o : Offer} {starting : ℤ} {k : ℕ} :
    starting = o.notbefore + k * bwPeriod ↔
      bwPeriod ∣ starting - o.notbefore ∧ o.notbefore ≤ starting ∧ k = o.offsetOf starting := by
  have hpos : 0 < bwPeriod := by decide
  rw [offsetOf]
  constructor
  · rintro rfl
    have hsub : o.notbefore + k * bwPeriod - o.notbefore = k * bwPeriod := by ring
    rw [hsub, Int.mul_ediv_cancel _ hpos.ne']
    refine ⟨Dvd.intro_left _ rfl, ?_, rfl⟩
    have : 0 ≤ (k : ℤ) * bwPeriod := mul_nonneg (Int.natCast_nonneg k) hpos.le
    omega
  · rintro ⟨⟨n, hn⟩, hle, rfl⟩
    rw [hn, Int.mul_ediv_cancel_left _ hpos.ne', Int.toNat_of_nonneg, mul_comm, ← hn]
    · ring
    · by_contra hneg
      have : bwPeriod * n < 0 := mul_neg_of_pos_of_neg hpos (not_le.mp hneg)
      omega

/-- A purchase succeeds exactly with a window that can be sold, and leaves the rest. -/
lemma purchase_eq_some_iff {o : Offer} {p q : List ℤ} {request result : String} {starting : ℤ}
    (hp : csvToIntlist o.bwProfile = .ok p) (hq : csvToIntlist request = .ok q) :
    o.purchase request starting = .ok (some result) ↔
      ∃ k, o.CanSell p q starting k ∧ result = intlistToCsv (deduct p k q) := by
  rw [purchase_eq_some]
  constructor
  · rintro ⟨p', q', hp', hq', hdvd, hle, hfits, hsum, hresult⟩
    obtain rfl := Except.ok.inj (hp.symm.trans hp')
    obtain rfl := Except.ok.inj (hq.symm.trans hq')
    have hsome := (sum_ne_zero_iff fun i hi => (hfits.2 i hi).1).mp hsum
    exact ⟨_, ⟨start_iff.mpr ⟨hdvd, hle, rfl⟩, hfits.1, hfits.2, hsome⟩, hresult⟩
  · rintro ⟨k, hsell, hresult⟩
    obtain ⟨hdvd, hle, rfl⟩ := start_iff.mp hsell.start
    have hsum := (sum_ne_zero_iff fun i hi => (hsell.available i hi).1).mpr hsell.something
    exact ⟨p, q, hp, hq, hdvd, hle, ⟨hsell.within, hsell.available⟩, hsum, hresult⟩

/-- A purchase of readable profiles does not raise. -/
lemma exists_purchase_eq {o : Offer} {p q : List ℤ} {request : String}
    (hp : csvToIntlist o.bwProfile = .ok p) (hq : csvToIntlist request = .ok q) (starting : ℤ) :
    ∃ result, o.purchase request starting = .ok result := by
  unfold purchase
  simp only [hp, hq, bind, Except.bind]
  repeat' split
  all_goals exact ⟨_, rfl⟩

/-- What is left has no negative amount. -/
lemma CanSell.deduct_nonneg {o : Offer} {p q : List ℤ} {starting : ℤ} {k : ℕ}
    (h : o.CanSell p q starting k) (hp : ∀ z ∈ p, 0 ≤ z) : ∀ z ∈ deduct p k q, 0 ≤ z := by
  intro z hz
  obtain ⟨i, hi, rfl⟩ := List.getElem_of_mem hz
  have hfits : Fits p k q := ⟨h.within, h.available⟩
  have hle := (hfits.amount_le (getD_nonneg hp) i).2
  rw [← List.getD_eq_getElem _ 0 hi, getD_deduct h.within]
  exact sub_nonneg.mpr hle

/-- The profile `r` is the profile `p` without the window of `q` that starts at `k`. -/
structure IsLeft (p q : List ℤ) (k : ℕ) (r : List ℤ) : Prop where
  length : r.length = p.length
  taken : ∀ i < q.length, r.getD (k + i) 0 = p.getD (k + i) 0 - q.getD i 0
  kept : ∀ i, i < k ∨ k + q.length ≤ i → r.getD i 0 = p.getD i 0

/-- Taking a window leaves the profile without the window. -/
lemma isLeft_deduct {p q : List ℤ} {k : ℕ} (h : k + q.length ≤ p.length) :
    IsLeft p q k (deduct p k q) where
  length := length_deduct h
  taken i _ := by rw [getD_deduct h, amount_add]
  kept i hi := by rw [getD_deduct h, amount_of_notMem hi, sub_zero]

end Offer

/-- **Purchase of one window.**  `purchase` returns a profile exactly when the request starts at a
period of the offer, lies within its profile, fits what is left and takes something, and returns
nothing otherwise.  The text that it returns is a plain list, and is read as the profile without the
window. -/
theorem purchase_exact {o : Offer} {p q : List ℤ} {request : String}
    (hp : csvToIntlist o.bwProfile = .ok p) (hnonneg : ∀ z ∈ p, 0 ≤ z)
    (hq : csvToIntlist request = .ok q) (starting : ℤ) :
    ((∃ result, o.purchase request starting = .ok (some result)) ↔
      ∃ k, o.CanSell p q starting k) ∧
    ((¬∃ k, o.CanSell p q starting k) → o.purchase request starting = .ok none) ∧
    ∀ k result, o.CanSell p q starting k → o.purchase request starting = .ok (some result) →
      IsPlainCsv result ∧ ∃ r, csvToIntlist result = .ok r ∧ Offer.IsLeft p q k r := by
  have hiff : (∃ result, o.purchase request starting = .ok (some result)) ↔
      ∃ k, o.CanSell p q starting k := by
    constructor
    · rintro ⟨result, hresult⟩
      obtain ⟨k, hsell, -⟩ := (Offer.purchase_eq_some_iff hp hq).mp hresult
      exact ⟨k, hsell⟩
    · rintro ⟨k, hsell⟩
      exact ⟨_, (Offer.purchase_eq_some_iff hp hq).mpr ⟨k, hsell, rfl⟩⟩
  refine ⟨hiff, fun hnone => ?_, fun k result hsell hresult => ?_⟩
  · obtain ⟨result, hresult⟩ := Offer.exists_purchase_eq hp hq starting
    cases result with
    | none => exact hresult
    | some result => exact absurd (hiff.mp ⟨result, hresult⟩) hnone
  · obtain ⟨k', hsell', rfl⟩ := (Offer.purchase_eq_some_iff hp hq).mp hresult
    obtain ⟨-, -, hk⟩ := Offer.start_iff.mp hsell.start
    obtain ⟨-, -, hk'⟩ := Offer.start_iff.mp hsell'.start
    obtain rfl : k' = k := hk'.trans hk.symm
    have hne : deduct p k' q ≠ [] := by
      intro hnil
      have hlength := length_deduct hsell.within
      rw [hnil, List.length_nil] at hlength
      exact csvToIntlist_ne_nil hp (List.length_eq_zero_iff.mp hlength.symm)
    exact ⟨isPlainCsv_intlistToCsv hne (hsell.deduct_nonneg hnonneg), _,
      csvToIntlist_intlistToCsv hne, Offer.isLeft_deduct hsell.within⟩

namespace SmallOffer

/-- An offer of three periods. -/
def offer : Offer where
  iaid := "1-ff00:0:110"
  signature := []
  notbefore := 0
  notafter := 3 * bwPeriod
  reachablePaths := ""
  qosClass := 1
  pricePerUnit := ⟨0⟩
  bwProfile := "2,5,4"
  brAddressTemplate := "10.1.1.1:50-51"
  brMtu := 1000
  brLinkTo := "PARENT"

end SmallOffer

/-- The last two periods are bought in part. -/
theorem purchase_exact_offer :
    SmallOffer.offer.CanSell [2, 5, 4] [3, 0] bwPeriod 1 ∧ ∀ result,
      SmallOffer.offer.purchase "3,0" bwPeriod = .ok (some result) →
      IsPlainCsv result ∧ ∃ r, csvToIntlist result = .ok r ∧
        Offer.IsLeft [2, 5, 4] [3, 0] 1 r := by
  have hsell : SmallOffer.offer.CanSell [2, 5, 4] [3, 0] bwPeriod 1 :=
    ⟨by decide, by decide, by decide, ⟨0, by decide, by decide⟩⟩
  have hspec := purchase_exact (o := SmallOffer.offer) (p := [2, 5, 4]) (q := [3, 0])
    (by decide +kernel) (by decide) (by decide +kernel : csvToIntlist "3,0" = .ok [3, 0]) bwPeriod
  exact ⟨hsell, fun result hresult => hspec.2.2 1 result hsell hresult⟩

/-! ## Windows one after the other -/

namespace Offer

/-- Purchases from one offer, each from the profile that the one before it left. -/
def purchaseAll (o : Offer) : List (ℤ × String) → Except Exc (Option Offer)
  | [] => .ok (some o)
  | (starting, bwProfile) :: rest => do
    match ← o.purchase bwProfile starting with
    | none => return none
    | some profile => purchaseAll { o with bwProfile := profile } rest

/-- The first purchase succeeds, and the others from what it left. -/
lemma purchaseAll_cons {o o' : Offer} {starting : ℤ} {bwProfile : String}
    {rest : List (ℤ × String)} :
    o.purchaseAll ((starting, bwProfile) :: rest) = .ok (some o') ↔
      ∃ profile, o.purchase bwProfile starting = .ok (some profile) ∧
        { o with bwProfile := profile }.purchaseAll rest = .ok (some o') := by
  rw [purchaseAll]
  rcases hresult : o.purchase bwProfile starting with e | _ | profile
  · simp [bind, Except.bind]
  · simp [bind, Except.bind, pure, Except.pure]
  · simp [bind, Except.bind]

/-- A purchase that succeeds after another one succeeds before it, and then the other one succeeds
after it and leaves the same profile. -/
lemma purchase_swap {o : Offer} {starting starting' : ℤ} {request request' left both : String}
    (h : o.purchase request starting = .ok (some left))
    (h' : { o with bwProfile := left }.purchase request' starting' = .ok (some both)) :
    ∃ left', o.purchase request' starting' = .ok (some left') ∧
      { o with bwProfile := left' }.purchase request starting = .ok (some both) := by
  obtain ⟨p, q, hp, hq, hdvd, hle, hfits, hsum, rfl⟩ := purchase_eq_some.mp h
  obtain ⟨p', q', hp', hq', hdvd', hle', hfits', hsum', rfl⟩ := purchase_eq_some.mp h'
  have hread : ∀ {k : ℕ} {q : List ℤ}, k + q.length ≤ p.length →
      csvToIntlist (intlistToCsv (deduct p k q)) = .ok (deduct p k q) := by
    intro k q hwindow
    apply csvToIntlist_intlistToCsv
    intro hnil
    have hlength := length_deduct hwindow
    rw [hnil, List.length_nil] at hlength
    exact csvToIntlist_ne_nil hp (List.length_eq_zero_iff.mp hlength.symm)
  obtain rfl := Except.ok.inj ((hread hfits.1).symm.trans hp')
  obtain ⟨hfirst, hsecond⟩ := hfits.swap hfits'
  refine ⟨_, purchase_eq_some.mpr ⟨p, q', hp, hq', hdvd', hle', hfirst, hsum', rfl⟩, ?_⟩
  refine purchase_eq_some.mpr ⟨_, q, hread hfirst.1, hq, hdvd, hle, hsecond, hsum, ?_⟩
  rw [deduct_comm hfits.1 hfirst.1]
  rfl

end Offer

/-- **Order of purchases.**  If purchases from one offer succeed one after the other, they succeed
in every order and leave the same offer. -/
theorem purchaseAll_perm {o o' : Offer} {requests requests' : List (ℤ × String)}
    (hperm : requests.Perm requests') (h : o.purchaseAll requests = .ok (some o')) :
    o.purchaseAll requests' = .ok (some o') := by
  induction hperm generalizing o with
  | nil => exact h
  | cons r _ ih =>
    obtain ⟨profile, hfirst, hrest⟩ := Offer.purchaseAll_cons.mp h
    exact Offer.purchaseAll_cons.mpr ⟨profile, hfirst, ih hrest⟩
  | swap r r' rest =>
    obtain ⟨left, hfirst, hrest⟩ := Offer.purchaseAll_cons.mp h
    obtain ⟨both, hsecond, hrest⟩ := Offer.purchaseAll_cons.mp hrest
    obtain ⟨left', hfirst', hsecond'⟩ := Offer.purchase_swap hfirst hsecond
    exact Offer.purchaseAll_cons.mpr ⟨left', hfirst',
      Offer.purchaseAll_cons.mpr ⟨both, hsecond', hrest⟩⟩
  | trans _ _ ih ih' => exact ih' (ih h)

/-- Two overlapping windows are bought in either order. -/
theorem purchaseAll_perm_offer :
    SmallOffer.offer.purchaseAll [(0, "1,2"), (bwPeriod, "3,4")] =
      .ok (some { SmallOffer.offer with bwProfile := "1,0,0" }) ∧
    SmallOffer.offer.purchaseAll [(bwPeriod, "3,4"), (0, "1,2")] =
      .ok (some { SmallOffer.offer with bwProfile := "1,0,0" }) := by
  have h : SmallOffer.offer.purchaseAll [(0, "1,2"), (bwPeriod, "3,4")] =
      .ok (some { SmallOffer.offer with bwProfile := "1,0,0" }) := by
    decide +kernel
  exact ⟨h, purchaseAll_perm (.swap _ _ []) h⟩

end Esdx
