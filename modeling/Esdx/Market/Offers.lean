import Esdx.Foundations.Window
import Esdx.Market.Models

/-!
# Offers

The methods of `Offer`: the checks made before an offer is saved, its signed bytes, and the
purchase of a window of its bandwidth profile.
-/

namespace Esdx

open PythonText

/-! ## Validation -/

/-- A field with the messages of its errors, if it has any. -/
def fieldErrors (field : String) (msgs : List String) : List (String × List String) :=
  if msgs = [] then [] else [(field, msgs)]

/-- The check that a text is not blank, followed by the other checks of the field. -/
def notBlank (value : String) (msgs : List String) : List String :=
  if value = "" then ["This field cannot be blank."] else msgs

/-- `MinValueValidator` and `MaxValueValidator`. -/
def valueInRange (lo hi value : ℤ) : List String :=
  (if value < lo then ["Ensure this value is greater than or equal to " ++ toString lo ++ "."]
    else []) ++
  if hi < value then ["Ensure this value is less than or equal to " ++ toString hi ++ "."] else []

/-- `MaxLengthValidator`. -/
def maxLength (limit : ℕ) (value : String) : List String :=
  if limit < value.toList.length then
    ["Ensure this value has at most " ++ toString limit ++ " characters (it has " ++
      toString value.toList.length ++ ")."]
  else []

/-- `_ia_validator`. -/
def iaValidator (ia : String) : List String :=
  match iaStrToInt ia with
  | .ok _ => []
  | .error ex => ["not a valid IA value: " ++ ex.str]

/-- The regular expression of `int_list_validator`: decimal digits separated by commas. -/
def isIntList (s : String) : Bool :=
  (s.toList.splitOn ',').all fun part => part ≠ [] && part.all isDecimal

/-- `int_list_validator`. -/
def intListValidator (s : String) : List String :=
  if isIntList s then [] else ["Enter a valid value."]

/-- The choices of `br_link_to`. -/
def brLinkToChoices : List String := ["CORE", "PARENT", "PEER"]

namespace Offer

/-- The check of a foreign key and its unique constraint. -/
def deprecatesErrors (s : Store) (o : Offer) : List String :=
  match o.deprecates with
  | none => []
  | some d =>
    if s.offers.all (·.id ≠ d) then
      ["Bandwidth Offer by AS instance with id " ++ toString d ++ " does not exist."]
    else if s.offers.any (·.deprecates = some d) then
      ["Bandwidth Offer by AS with this Deprecates already exists."]
    else []

/-- The errors that `full_clean` collects, in the order of the fields. -/
def cleanFields (s : Store) (o : Offer) : List (String × List String) :=
  fieldErrors "iaid" (notBlank o.iaid (iaValidator o.iaid ++ maxLength 255 o.iaid)) ++
  fieldErrors "qos_class" (valueInRange (-2147483648) 2147483647 o.qosClass) ++
  fieldErrors "bw_profile" (notBlank o.bwProfile (intListValidator o.bwProfile)) ++
  fieldErrors "br_address_template" (notBlank o.brAddressTemplate []) ++
  fieldErrors "br_mtu" (valueInRange 100 65534 o.brMtu) ++
  fieldErrors "br_link_to" (notBlank o.brLinkTo
    (if o.brLinkTo ∈ brLinkToChoices then []
    else ["Value " ++ pyRepr o.brLinkTo ++ " is not a valid choice."])) ++
  fieldErrors "deprecates" (o.deprecatesErrors s)

/-- `full_clean`. -/
def fullClean (s : Store) (o : Offer) : Except Exc Unit :=
  if o.cleanFields s = [] then .ok () else .error (.validationError (o.cleanFields s))

/-- The checks of `_pre_save` that follow `full_clean`. -/
def checkLifespan (o : Offer) : Except Exc Unit := do
  if o.notafter < o.notbefore then throw (.valueError "notafter must happen after notbefore")
  let lifespan := o.notafter - o.notbefore
  if lifespan % bwPeriod ≠ 0 then
    throw (.valueError "the life span of the offer must be a multiple of BW_PERIOD (600 secs)")
  let profile ← csvToIntlist o.bwProfile
  if profile.length ≠ lifespan / bwPeriod then
    throw (.valueError ("bw_profile should contain exactly " ++ toString (lifespan / bwPeriod) ++
      ".0 values; contains " ++ toString profile.length))
  let _ ← ipPortRangeFromStr o.brAddressTemplate
  return ()

/-- `_pre_save`. -/
def preSave (s : Store) (o : Offer) : Except Exc Unit :=
  match o.fullClean s with
  | .error ex => .error (.valueError ex.str)
  | .ok () => o.checkLifespan

/-- `save`, for an instance that is not in the database. -/
def save (o : Offer) : Db Offer := do
  let s ← Tx.read
  o.preSave s
  insertOffer o

/-- `clone`. -/
def clone (o : Offer) : Offer where
  iaid := o.iaid
  signature := o.signature
  notbefore := o.notbefore
  notafter := o.notafter
  reachablePaths := o.reachablePaths
  qosClass := o.qosClass
  pricePerUnit := o.pricePerUnit
  bwProfile := o.bwProfile
  brAddressTemplate := o.brAddressTemplate
  brMtu := o.brMtu
  brLinkTo := o.brLinkTo
  deprecates := o.deprecates

/-! ### What the checks say -/

lemma fieldErrors_eq_nil {field : String} {msgs : List String} :
    fieldErrors field msgs = [] ↔ msgs = [] := by
  unfold fieldErrors
  split <;> simp_all

lemma notBlank_eq_nil {value : String} {msgs : List String} :
    notBlank value msgs = [] ↔ value ≠ "" ∧ msgs = [] := by
  unfold notBlank
  split <;> simp_all

lemma valueInRange_eq_nil {lo hi value : ℤ} :
    valueInRange lo hi value = [] ↔ lo ≤ value ∧ value ≤ hi := by
  unfold valueInRange
  rw [List.append_eq_nil_iff]
  refine and_congr ?_ ?_
  · split <;> simp <;> omega
  · split <;> simp <;> omega

lemma maxLength_eq_nil {limit : ℕ} {value : String} :
    maxLength limit value = [] ↔ value.toList.length ≤ limit := by
  unfold maxLength
  split <;> simp <;> omega

lemma iaValidator_eq_nil {ia : String} : iaValidator ia = [] ↔ ∃ v, iaStrToInt ia = .ok v := by
  unfold iaValidator
  split <;> simp_all

lemma intListValidator_eq_nil {s : String} : intListValidator s = [] ↔ isIntList s = true := by
  unfold intListValidator
  split <;> simp_all

/-- A validated integer list has no negative values. -/
lemma nonneg_of_isIntList {s : String} (hs : isIntList s = true) {l : List ℤ}
    (h : csvToIntlist s = .ok l) : ∀ z ∈ l, 0 ≤ z := by
  refine nonneg_of_toIntList (fun part hpart hminus => ?_) h
  have hall := List.all_eq_true.mp hs part hpart
  rw [Bool.and_eq_true, List.all_eq_true] at hall
  exact absurd (hall.2 '-' hminus) (by decide)

/-- An offer without errors meets the condition of every field. -/
lemma cleanFields_eq_nil {s : Store} {o : Offer} :
    o.cleanFields s = [] ↔
      (o.iaid ≠ "" ∧ (∃ v, iaStrToInt o.iaid = .ok v) ∧ o.iaid.toList.length ≤ 255) ∧
      (-2147483648 ≤ o.qosClass ∧ o.qosClass ≤ 2147483647) ∧
      (o.bwProfile ≠ "" ∧ isIntList o.bwProfile = true) ∧
      o.brAddressTemplate ≠ "" ∧
      (100 ≤ o.brMtu ∧ o.brMtu ≤ 65534) ∧
      o.brLinkTo ∈ brLinkToChoices ∧
      o.deprecatesErrors s = [] := by
  have hlink : (o.brLinkTo ≠ "" ∧ (if o.brLinkTo ∈ brLinkToChoices then []
      else ["Value " ++ pyRepr o.brLinkTo ++ " is not a valid choice."]) = []) ↔
      o.brLinkTo ∈ brLinkToChoices := by
    constructor
    · rintro ⟨-, h⟩
      by_contra hn
      rw [if_neg hn] at h
      simp at h
    · intro h
      rw [if_pos h]
      refine ⟨fun hempty => ?_, rfl⟩
      rw [hempty] at h
      exact absurd h (by decide)
  unfold cleanFields
  simp only [List.append_eq_nil_iff, fieldErrors_eq_nil, notBlank_eq_nil, valueInRange_eq_nil,
    iaValidator_eq_nil, maxLength_eq_nil, intListValidator_eq_nil, hlink, and_assoc, and_true]

/-- The checks before saving are those of `full_clean` followed by those of the life span. -/
lemma preSave_eq_ok {s : Store} {o : Offer} :
    o.preSave s = .ok () ↔ o.cleanFields s = [] ∧ o.checkLifespan = .ok () := by
  unfold preSave fullClean
  split
  · rename_i ex hex
    split at hex
    · simp at hex
    · simp_all
  · rename_i hok
    split at hok
    · simp_all
    · simp at hok

/-- The checks of the life span, the number of periods, and the address template. -/
lemma checkLifespan_eq_ok {o : Offer} :
    o.checkLifespan = .ok () ↔
      o.notbefore ≤ o.notafter ∧ bwPeriod ∣ o.notafter - o.notbefore ∧
      (∃ profile, csvToIntlist o.bwProfile = .ok profile ∧
        profile.length = (o.notafter - o.notbefore) / bwPeriod) ∧
      ∃ range, ipPortRangeFromStr o.brAddressTemplate = .ok range := by
  unfold checkLifespan
  by_cases hlt : o.notafter < o.notbefore
  · simp [hlt, bind, Except.bind, throw, throwThe, MonadExceptOf.throw]
  by_cases hmod : (o.notafter - o.notbefore) % bwPeriod ≠ 0
  · have : ¬bwPeriod ∣ o.notafter - o.notbefore := fun h => hmod (Int.emod_eq_zero_of_dvd h)
    simp [hlt, hmod, this, bind, Except.bind, throw, throwThe, MonadExceptOf.throw]
  have hdvd := Int.dvd_of_emod_eq_zero (not_not.mp hmod)
  rcases hp : csvToIntlist o.bwProfile with e | profile
  · simp [hlt, hmod, bind, Except.bind]
  by_cases hlen : (profile.length : ℤ) = (o.notafter - o.notbefore) / bwPeriod
  · rcases ht : ipPortRangeFromStr o.brAddressTemplate with e | range
    · simp [hlt, hmod, hlen, bind, Except.bind]
    · simp [hlt, hmod, hdvd, hlen, bind, Except.bind, pure, Except.pure]
      omega
  · simp [hlt, hmod, hlen, bind, Except.bind, throw, throwThe, MonadExceptOf.throw]

/-! ## Signatures -/

/-- `serialize_to_bytes`. -/
def serializeToBytes (o : Offer) (includeSignature : Bool) : Except Exc Bytes :=
  offerFieldsSerializeToBytes o.iaid (timestampInt o.notbefore) (timestampInt o.notafter)
    o.reachablePaths o.qosClass o.pricePerUnit o.bwProfile o.brAddressTemplate o.brMtu o.brLinkTo
    (if includeSignature then o.signature else [])

/-- `validate_signature_from_seller`. -/
def validateSignatureFromSeller (C : Crypto) (reg : Registry) (o : Offer) : Except Exc Unit := do
  let data ← o.serializeToBytes false
  let as ← reg.getAs o.iaid
  let cert ← C.loadCertificate as.certificatePem
  C.signatureValidate cert o.signature data

/-- `validate_signature`. -/
def validateSignature (C : Crypto) (reg : Registry) (o : Offer) : Except Exc Unit := do
  let data ← o.serializeToBytes false
  let broker ← reg.getBroker
  let cert ← C.loadCertificate broker.certificatePem
  C.signatureValidate cert o.signature data

/-- `sign_with_broker`. -/
def signWithBroker (C : Crypto) (reg : Registry) (salt : C.Salt) (o : Offer) :
    Except Exc Offer := do
  let data ← o.serializeToBytes false
  let key ← reg.getBrokerKey C
  return { o with signature := C.signatureCreate key salt data }

/-! ## Purchases from the profile -/

/-- The loop of `purchase` over the periods of the window. -/
def purchaseLoop : List ℤ → List ℤ → List ℤ → ℤ → Option (List ℤ × ℤ)
  | bw :: thisProf, other :: thatProf, newProf, totalBought =>
    if bw < other ∨ other < 0 then none
    else purchaseLoop thisProf thatProf (newProf ++ [bw - other]) (totalBought + other)
  | _, _, newProf, totalBought => some (newProf, totalBought)

/-- `purchase`: the profile left, or `none` when the purchase is not possible. -/
def purchase (o : Offer) (bwProfile : String) (starting : ℤ) :
    Except Exc (Option String) := do
  let thatProf ← csvToIntlist bwProfile
  let origProf ← csvToIntlist o.bwProfile
  let offset := starting - o.notbefore
  if offset % bwPeriod ≠ 0 ∨ offset < 0 then return none
  let offset := (offset / bwPeriod).toNat
  let thisProf := origProf.drop offset
  if thisProf.length < thatProf.length then return none
  match purchaseLoop thisProf thatProf [] 0 with
  | none => return none
  | some (newProf, totalBought) =>
    if totalBought = 0 then return none
    return some (intlistToCsv
      (origProf.take offset ++ newProf ++ origProf.drop (offset + newProf.length)))

/-- The window loop succeeds when every amount fits, and returns what is left in the window. -/
lemma purchaseLoop_eq_some {thisProf thatProf acc newProf : List ℤ} {total total' : ℤ}
    (hlen : thatProf.length ≤ thisProf.length) :
    purchaseLoop thisProf thatProf acc total = some (newProf, total') ↔
      (∀ i < thatProf.length,
        0 ≤ thatProf.getD i 0 ∧ thatProf.getD i 0 ≤ thisProf.getD i 0) ∧
      newProf = acc ++ List.zipWith (· - ·) thisProf thatProf ∧ total' = total + thatProf.sum := by
  induction thatProf generalizing thisProf acc total with
  | nil =>
    have : purchaseLoop thisProf [] acc total = some (acc, total) := by
      cases thisProf <;> rfl
    rw [this]
    simp [eq_comm]
  | cons other thatProf ih =>
    rcases thisProf with _ | ⟨bw, thisProf⟩
    · simp at hlen
    have hlen' : thatProf.length ≤ thisProf.length := by simpa using hlen
    have hfits : (∀ i < (other :: thatProf).length, 0 ≤ (other :: thatProf).getD i 0 ∧
        (other :: thatProf).getD i 0 ≤ (bw :: thisProf).getD i 0) ↔
        (0 ≤ other ∧ other ≤ bw) ∧ ∀ i < thatProf.length,
          0 ≤ thatProf.getD i 0 ∧ thatProf.getD i 0 ≤ thisProf.getD i 0 := by
      constructor
      · intro h
        exact ⟨h 0 (by simp), fun i hi => h (i + 1) (by simpa using hi)⟩
      · rintro ⟨h0, h⟩ (_ | i) hi
        · exact h0
        · exact h i (by simpa using hi)
    rw [purchaseLoop]
    split
    · rename_i hbad
      exact iff_of_false (by simp) fun h => by have := (hfits.mp h.1).1; omega
    · rename_i hgood
      rw [ih hlen', hfits, List.zipWith_cons_cons, List.sum_cons]
      constructor
      · rintro ⟨h, rfl, rfl⟩
        exact ⟨⟨by omega, h⟩, by simp, by ring⟩
      · rintro ⟨⟨-, h⟩, rfl, rfl⟩
        exact ⟨h, by simp, by ring⟩

/-- The periods of a window that start at a multiple of the period after `notbefore`. -/
def offsetOf (o : Offer) (starting : ℤ) : ℕ := ((starting - o.notbefore) / bwPeriod).toNat

/-- **Purchase.**  A purchase is possible exactly when the request starts at the beginning of a
period, fits what is left, and buys something; it deducts the request from the profile. -/
theorem purchase_eq_some {o : Offer} {bwProfile p : String} {starting : ℤ} :
    o.purchase bwProfile starting = .ok (some p) ↔
      ∃ orig that, csvToIntlist o.bwProfile = .ok orig ∧ csvToIntlist bwProfile = .ok that ∧
        bwPeriod ∣ starting - o.notbefore ∧ o.notbefore ≤ starting ∧
        Window.Fits orig (o.offsetOf starting) that ∧ that.sum ≠ 0 ∧
        p = intlistToCsv (Window.deduct orig (o.offsetOf starting) that) := by
  unfold purchase offsetOf
  rcases hthat : csvToIntlist bwProfile with e | that
  · simp [bind, Except.bind]
  rcases horig : csvToIntlist o.bwProfile with e | orig
  · simp [bind, Except.bind]
  have hne := List.length_pos_iff.mpr (csvToIntlist_ne_nil hthat)
  simp only [bind, Except.bind, Except.ok.injEq, exists_eq_left', exists_and_left, pure,
    Except.pure]
  generalize ((starting - o.notbefore) / bwPeriod).toNat = k
  by_cases hstart : (starting - o.notbefore) % bwPeriod ≠ 0 ∨ starting - o.notbefore < 0
  · rw [if_pos hstart]
    refine iff_of_false (by simp) ?_
    rintro ⟨hdvd, hle, -⟩
    have := Int.emod_eq_zero_of_dvd hdvd
    omega
  have hstart' : bwPeriod ∣ starting - o.notbefore ∧ o.notbefore ≤ starting :=
    ⟨Int.dvd_of_emod_eq_zero (by tauto), by omega⟩
  rw [if_neg hstart, and_iff_right hstart'.1, and_iff_right hstart'.2]
  by_cases hlen : (orig.drop k).length < that.length
  · rw [if_pos hlen]
    refine iff_of_false (by simp) ?_
    rintro ⟨⟨hfit, -⟩, -⟩
    rw [List.length_drop] at hlen
    omega
  rw [if_neg hlen]
  rw [List.length_drop] at hlen
  have hfit : Window.Fits orig k that ↔ ∀ i < that.length,
      0 ≤ that.getD i 0 ∧ that.getD i 0 ≤ (orig.drop k).getD i 0 := by
    simp only [Window.Fits, List.getD_eq_getElem?_getD, List.getElem?_drop]
    exact and_iff_right (by omega)
  have hzip : (List.zipWith (· - ·) (orig.drop k) that).length = that.length := by
    rw [List.length_zipWith, List.length_drop]
    omega
  rw [hfit]
  have hloop : ∀ newProf total, purchaseLoop (orig.drop k) that [] 0 = some (newProf, total) ↔ _ :=
    fun newProf total => purchaseLoop_eq_some (by rw [List.length_drop]; omega)
  rcases hresult : purchaseLoop (orig.drop k) that [] 0 with _ | ⟨newProf, total⟩
  · refine iff_of_false (by simp) fun h => ?_
    simp [(hloop _ _).mpr ⟨h.1, rfl, rfl⟩] at hresult
  obtain ⟨hall, rfl, rfl⟩ := (hloop _ _).mp hresult
  rw [and_iff_right hall]
  dsimp only
  rw [List.nil_append, zero_add, hzip]
  by_cases hsum : that.sum = 0
  · simp [hsum]
  · rw [if_neg hsum, and_iff_right hsum, Except.ok.injEq, Option.some.injEq, Window.deduct]
    exact eq_comm

end Offer

end Esdx
