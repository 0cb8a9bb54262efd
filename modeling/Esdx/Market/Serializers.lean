import Esdx.Market.Purchases

/-!
# Serializers

`market/serializers.py`: from an offer message to an unsaved offer, and from rows of the database
to messages.  Errors are collected field by field, as the serializer framework does.
-/

namespace Esdx

open PythonText

/-- The times of an offer are whole seconds. -/
structure WholeSeconds (o : OfferSpecification) : Prop where
  notbefore : ∀ ts ∈ o.notbefore, ts.nanos = 0
  notafter : ∀ ts ∈ o.notafter, ts.nanos = 0

/-- Times in whole seconds. -/
lemma wholeSeconds_of_eq {o : OfferSpecification} {notbefore notafter : ℤ}
    (hnotbefore : o.notbefore = some ⟨notbefore, 0⟩)
    (hnotafter : o.notafter = some ⟨notafter, 0⟩) : WholeSeconds o := by
  refine ⟨fun ts hts => ?_, fun ts hts => ?_⟩
  · rw [hnotbefore] at hts
    exact Option.some.inj hts ▸ rfl
  · rw [hnotafter] at hts
    exact Option.some.inj hts ▸ rfl

namespace OfferProtoSerializer

/-- The microseconds that a timestamp message denotes, when its date is in range. -/
def toDatetime (ts : Timestamp) : Except Exc ℤ :=
  let micros := (ts.seconds * 1000000000 + ts.nanos) / 1000
  if micros < datetimeMinSeconds * 1000000 ∨ (datetimeMaxSeconds + 1) * 1000000 ≤ micros then
    .error (.overflowError "date value out of range")
  else .ok micros

/-- The date of a time field that may be missing. -/
def dateOf : Option Timestamp → Except Exc (Option ℤ)
  | none => .ok none
  | some ts => do
    let t ← toDatetime ts
    return some t

/-- The errors of a text field, which is stripped and may not be blank. -/
def charField (field : String) (limit : Option ℕ) (value : String) :
    List (String × List (String × String)) :=
  let stripped := strip value.toList
  let errors :=
    if stripped = [] then [("This field may not be blank.", "blank")]
    else
      (match limit with
        | some n =>
          if n < stripped.length then
            [("Ensure this field has no more than " ++ toString n ++ " characters.", "max_length")]
          else []
        | none => []) ++
      if '\x00' ∈ stripped then
        [("Null characters are not allowed.", "null_characters_not_allowed")]
      else []
  if errors = [] then [] else [(field, errors)]

/-- The error of a time field that is missing. -/
def dateTimeField (field : String) (value : Option ℤ) : List (String × List (String × String)) :=
  if value = none then [(field, [("This field is required.", "required")])] else []

/-- The text that a text field stores. -/
def stripped (value : String) : String := String.ofList (strip value.toList)

/-- The errors that `is_valid` collects, in the order of the fields. -/
def errors (m : OfferSpecification) (notbefore notafter : Option ℤ) :
    List (String × List (String × String)) :=
  charField "iaid" (some 32) m.iaid ++ dateTimeField "notbefore" notbefore ++
    dateTimeField "notafter" notafter ++ charField "reachable_paths" none m.reachablePaths ++
    charField "bw_profile" none m.bwProfile ++
    charField "br_address_template" none m.brAddressTemplate ++
    charField "br_link_to" none m.brLinkTo

/-- `is_valid(raise_exception=True)` and `save`, which only creates an instance. -/
def save (m : OfferSpecification) : Except Exc Offer := do
  let notbefore ← dateOf m.notbefore
  let notafter ← dateOf m.notafter
  match errors m notbefore notafter, notbefore, notafter with
  | [], some notbefore, some notafter =>
    return {
      iaid := stripped m.iaid
      signature := m.signature
      notbefore
      notafter
      reachablePaths := stripped m.reachablePaths
      qosClass := m.qosClass
      pricePerUnit := m.pricePerUnit
      bwProfile := stripped m.bwProfile
      brAddressTemplate := stripped m.brAddressTemplate
      brMtu := m.brMtu
      brLinkTo := stripped m.brLinkTo }
  | es, _, _ => throw (.serializerError es)

/-- The timestamp message of a point in time. -/
def toTimestamp (t : ℤ) : Timestamp := ⟨t / 1000000, t % 1000000 * 1000⟩

/-- `message`.  A price that is no number or infinite cannot be put in a message. -/
def message (o : Offer) : Except Exc OfferMessage :=
  if o.pricePerUnit.isFinite then
    .ok {
      id := o.id
      specs := {
        iaid := o.iaid
        notbefore := some (toTimestamp o.notbefore)
        notafter := some (toTimestamp o.notafter)
        reachablePaths := o.reachablePaths
        qosClass := o.qosClass
        pricePerUnit := o.pricePerUnit
        bwProfile := o.bwProfile
        brAddressTemplate := o.brAddressTemplate
        brMtu := o.brMtu
        brLinkTo := o.brLinkTo
        signature := o.signature } }
  else .error .parseError

/-- A message has the id of its offer. -/
lemma id_of_message {o : Offer} {m : OfferMessage} (h : message o = .ok m) : m.id = o.id := by
  unfold message at h
  split at h
  · rw [← Except.ok.inj h]
  · simp at h

/-- The seconds of a message of whole seconds are those that are signed. -/
lemma seconds_toTimestamp {t : ℤ} (h : (toTimestamp t).nanos = 0) :
    (toTimestamp t).seconds = timestampInt t := by
  have hmod : t % 1000000 = 0 := by
    have hnanos : t % 1000000 * 1000 = 0 := h
    omega
  have ht : t = t / 1000000 * 1000000 := by omega
  change t / 1000000 = timestampInt t
  conv_rhs => rw [ht]
  exact (timestampInt_seconds _).symm

/-- A created instance has no id and replaces no offer. -/
lemma save_fields {m : OfferSpecification} {o : Offer} (h : save m = .ok o) :
    o.id = 0 ∧ o.deprecates = none ∧ o.signature = m.signature := by
  unfold save at h
  rcases hb : dateOf m.notbefore with e | nb
  · simp [hb, bind, Except.bind] at h
  rcases ha : dateOf m.notafter with e | na
  · simp [hb, ha, bind, Except.bind] at h
  simp only [hb, ha, bind, Except.bind] at h
  split at h
  · simp only [pure, Except.pure, Except.ok.injEq] at h
    rw [← h]
    exact ⟨rfl, rfl, rfl⟩
  · simp [throw, throwThe, MonadExceptOf.throw] at h

/-- An instance is created exactly when both dates are in range and no field has an error. -/
lemma save_eq_ok {m : OfferSpecification} {o : Offer} :
    save m = .ok o ↔ ∃ notbefore notafter, dateOf m.notbefore = .ok (some notbefore) ∧
      dateOf m.notafter = .ok (some notafter) ∧ errors m (some notbefore) (some notafter) = [] ∧
      o = {
        iaid := stripped m.iaid
        signature := m.signature
        notbefore
        notafter
        reachablePaths := stripped m.reachablePaths
        qosClass := m.qosClass
        pricePerUnit := m.pricePerUnit
        bwProfile := stripped m.bwProfile
        brAddressTemplate := stripped m.brAddressTemplate
        brMtu := m.brMtu
        brLinkTo := stripped m.brLinkTo } := by
  unfold save
  rcases hb : dateOf m.notbefore with e | nb
  · simp [bind, Except.bind]
  rcases ha : dateOf m.notafter with e | na
  · simp [bind, Except.bind]
  simp only [bind, Except.bind]
  constructor
  · intro h
    split at h
    · rename_i nb na herrors
      exact ⟨nb, na, rfl, rfl, herrors, (Except.ok.inj h).symm⟩
    · simp [throw, throwThe, MonadExceptOf.throw] at h
  · rintro ⟨nb, na, hnb, hna, herrors, rfl⟩
    obtain rfl := Except.ok.inj hnb
    obtain rfl := Except.ok.inj hna
    simp only [herrors]
    rfl

/-- A text field is in order when the stripped text is not blank, not too long and has no null
character. -/
lemma charField_eq_nil {field : String} {limit : Option ℕ} {value : String} :
    charField field limit value = [] ↔ strip value.toList ≠ [] ∧
      (∀ n ∈ limit, (strip value.toList).length ≤ n) ∧ '\x00' ∉ strip value.toList := by
  unfold charField
  dsimp only
  by_cases hblank : strip value.toList = []
  · simp [hblank]
  by_cases hnull : '\x00' ∈ strip value.toList
  · simp [hblank, hnull]
  rcases limit with _ | n
  · simp [hblank, hnull]
  by_cases hlong : n < (strip value.toList).length
  · simp [hblank, hnull, hlong]
  · simp [hblank, hnull, hlong, Nat.not_lt.mp hlong]

/-- A created instance of whole seconds has whole seconds. -/
lemma save_whole {m : OfferSpecification} {o : Offer} (h : save m = .ok o) (hm : WholeSeconds m) :
    1000000 ∣ o.notbefore ∧ 1000000 ∣ o.notafter := by
  have hdate : ∀ {ts : Option Timestamp} {t : ℤ}, (∀ x ∈ ts, x.nanos = 0) →
      dateOf ts = .ok (some t) → 1000000 ∣ t := by
    rintro (_ | ts) t hts hdate
    · simp [dateOf] at hdate
    · have hnanos := hts ts rfl
      unfold dateOf toDatetime at hdate
      dsimp only at hdate
      split at hdate
      · simp [bind, Except.bind] at hdate
      · simp only [bind, Except.bind, pure, Except.pure, Except.ok.injEq, Option.some.injEq]
          at hdate
        omega
  unfold save at h
  rcases hb : dateOf m.notbefore with e | nb
  · simp [hb, bind, Except.bind] at h
  rcases ha : dateOf m.notafter with e | na
  · simp [hb, ha, bind, Except.bind] at h
  simp only [hb, ha, bind, Except.bind] at h
  split at h
  · simp only [pure, Except.pure, Except.ok.injEq] at h
    rw [← h]
    exact ⟨hdate hm.notbefore hb, hdate hm.notafter ha⟩
  · simp [throw, throwThe, MonadExceptOf.throw] at h

end OfferProtoSerializer

namespace ContractProtoSerializer

/-- `data_to_message`, for the offer of a contract. -/
def offerMessage (offer : Offer) : OfferSpecification where
  iaid := offer.iaid
  notbefore := some (pbTimestampFromTime offer.notbefore)
  notafter := some (pbTimestampFromTime offer.notafter)
  reachablePaths := offer.reachablePaths
  qosClass := offer.qosClass
  pricePerUnit := offer.pricePerUnit
  bwProfile := offer.bwProfile
  brAddressTemplate := offer.brAddressTemplate
  brMtu := offer.brMtu
  brLinkTo := offer.brLinkTo
  signature := offer.signature

/-- `data_to_message`. -/
def dataToMessage (c : Contract) (po : PurchaseOrder) (buyerIaid : String) (offer : Offer) :
    ContractMessage where
  contractId := c.id
  contractTimestamp := pbTimestampFromTime c.timestamp
  contractSignature := c.signatureBroker
  offer := offerMessage offer
  brAddress := c.brAddress
  buyerIaid := buyerIaid
  buyerStartingOn := pbTimestampFromTime po.startingOn
  buyerBwProfile := po.bwProfile
  buyerSignature := po.signature

/-- `message`: the contract with its purchase order, offer and buyer from the database. -/
def message (reg : Registry) (s : Store) (c : Contract) : Except Exc ContractMessage := do
  let po ← s.getPurchaseOrder c.purchaseOrder
  let offer ← s.getOffer po.offer
  let buyer ← reg.getAs po.buyer
  return dataToMessage c po buyer.iaid offer

end ContractProtoSerializer

/-- `pb_compare_messages`, of two offer messages. -/
def pbCompareMessages (msg₁ msg₂ : OfferMessage) : Bool := msg₁ = msg₂

end Esdx
