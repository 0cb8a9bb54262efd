import Esdx.Util.Conversion

/-!
# The signed bytes

The functions of `util/serialize.py`, which lay out the bytes that sellers, buyers and the broker
sign.
-/

namespace Esdx

open PythonText

/-- `s.encode("ascii")`. -/
def encodeAscii (s : String) : Except Exc Bytes :=
  if isAsciiText s then .ok (s.toList.map fun c => UInt8.ofNat c.toNat)
  else .error (.unicodeEncodeError s)

/-- The text part of `offer_fields_serialize_to_bytes`. -/
def offerFieldsText (iaid : String) (notbefore notafter : ℤ) (reachablePaths : String)
    (qosClass : ℤ) (pricePerUnit : Float64) (bwProfile brAddressTemplate : String) (brMtu : ℤ)
    (brLinkTo : String) : String :=
  "ia:" ++ iaid ++ toString notbefore ++ toString notafter ++
    "reachable:" ++ reachablePaths ++ toString qosClass ++ String.ofList pricePerUnit.formatE ++
    "profile:" ++ bwProfile ++ "br_address_template:" ++ brAddressTemplate ++
    "br_mtu:" ++ toString brMtu ++ "br_link_to:" ++ brLinkTo ++ "signature:"

/-- `offer_fields_serialize_to_bytes`. -/
def offerFieldsSerializeToBytes (iaid : String) (notbefore notafter : ℤ)
    (reachablePaths : String) (qosClass : ℤ) (pricePerUnit : Float64)
    (bwProfile brAddressTemplate : String) (brMtu : ℤ) (brLinkTo : String)
    (signature : Bytes) : Except Exc Bytes := do
  let b ← encodeAscii (offerFieldsText iaid notbefore notafter reachablePaths qosClass
    pricePerUnit bwProfile brAddressTemplate brMtu brLinkTo)
  return b ++ signature

/-- `offer_specification_serialize_to_bytes`. -/
def offerSpecificationSerializeToBytes (s : OfferSpecification) (includeSignature : Bool) :
    Except Exc Bytes :=
  offerFieldsSerializeToBytes s.iaid (s.notbefore.getD {}).seconds (s.notafter.getD {}).seconds
    s.reachablePaths s.qosClass s.pricePerUnit s.bwProfile s.brAddressTemplate s.brMtu s.brLinkTo
    (if includeSignature then s.signature else [])

/-- `offer_serialize_to_bytes`. -/
def offerSerializeToBytes (o : OfferMessage) (includeSignature : Bool) : Except Exc Bytes :=
  offerSpecificationSerializeToBytes o.specs includeSignature

/-- The ASCII bytes of a label. -/
def label (s : String) : Bytes := s.toList.map fun c => UInt8.ofNat c.toNat

/-- `purchase_order_fields_serialize_to_bytes`. -/
def purchaseOrderFieldsSerializeToBytes (offerBytes : Bytes) (iaId bwProfile : String)
    (startingOn : ℤ) : Except Exc Bytes := do
  let bw ← encodeAscii bwProfile
  let ia ← encodeAscii iaId
  let start ← encodeAscii (toString startingOn)
  return label "offer:" ++ offerBytes ++ label "bw_profile:" ++ bw ++ label "buyer:" ++ ia ++
    label "starting_on:" ++ start

/-- `contract_fields_serialize_to_bytes`. -/
def contractFieldsSerializeToBytes (purchaseOrderBytes buyerSignature : Bytes) (timestamp : ℤ)
    (brAddress : String) : Except Exc Bytes := do
  let time ← encodeAscii (toString timestamp)
  let addr ← encodeAscii brAddress
  return label "order:" ++ purchaseOrderBytes ++ label "signature_buyer:" ++ buyerSignature ++
    label "timestamp:" ++ time ++ label "br_address:" ++ addr

/-- `get_contract_request_serialize`; the code passes no signature. -/
def getContractRequestSerialize (contractId : ℤ) (requesterIaid : String)
    (signature : Option Bytes) : Except Exc Bytes := do
  let id ← encodeAscii (toString contractId)
  let ia ← encodeAscii requesterIaid
  return label "contract_id:" ++ id ++ label "signature:" ++ signature.getD [] ++
    label "requester_ia:" ++ ia

/-- Encoding succeeds exactly on ASCII texts. -/
lemma encodeAscii_eq_ok {s : String} {b : Bytes} :
    encodeAscii s = .ok b ↔ isAsciiText s = true ∧ b = label s := by
  unfold encodeAscii label
  split
  · rename_i h
    rw [Except.ok.injEq, and_iff_right h]
    exact eq_comm
  · rename_i h
    exact iff_of_false (by simp) fun hs => h hs.1

/-- The bytes of an offer are those of its text, followed by the signature. -/
lemma offerFieldsSerializeToBytes_eq_ok {iaid reachablePaths bwProfile brAddressTemplate
    brLinkTo : String} {notbefore notafter qosClass brMtu : ℤ} {pricePerUnit : Float64}
    {signature data : Bytes} :
    offerFieldsSerializeToBytes iaid notbefore notafter reachablePaths qosClass pricePerUnit
      bwProfile brAddressTemplate brMtu brLinkTo signature = .ok data ↔
    ∃ b, encodeAscii (offerFieldsText iaid notbefore notafter reachablePaths qosClass pricePerUnit
      bwProfile brAddressTemplate brMtu brLinkTo) = .ok b ∧ data = b ++ signature := by
  unfold offerFieldsSerializeToBytes
  rcases encodeAscii (offerFieldsText iaid notbefore notafter reachablePaths qosClass pricePerUnit
    bwProfile brAddressTemplate brMtu brLinkTo) with e | b
  · simp [bind, Except.bind]
  · simp only [bind, Except.bind, pure, Except.pure, Except.ok.injEq, exists_eq_left']
    exact eq_comm

/-- The parts of the bytes of a purchase order. -/
lemma purchaseOrderFieldsSerializeToBytes_eq_ok {offerBytes data : Bytes} {iaId bwProfile : String}
    {startingOn : ℤ} :
    purchaseOrderFieldsSerializeToBytes offerBytes iaId bwProfile startingOn = .ok data ↔
    ∃ bw ia start, encodeAscii bwProfile = .ok bw ∧ encodeAscii iaId = .ok ia ∧
      encodeAscii (toString startingOn) = .ok start ∧
      data = label "offer:" ++ offerBytes ++ label "bw_profile:" ++ bw ++ label "buyer:" ++ ia ++
        label "starting_on:" ++ start := by
  unfold purchaseOrderFieldsSerializeToBytes
  rcases encodeAscii bwProfile with e | bw
  · simp [bind, Except.bind]
  rcases encodeAscii iaId with e | ia
  · simp [bind, Except.bind]
  rcases encodeAscii (toString startingOn) with e | start
  · simp [bind, Except.bind]
  · simp only [bind, Except.bind, pure, Except.pure, Except.ok.injEq, exists_and_left,
      exists_eq_left']
    exact eq_comm

/-- The parts of the bytes of a contract. -/
lemma contractFieldsSerializeToBytes_eq_ok {purchaseOrderBytes buyerSignature data : Bytes}
    {timestamp : ℤ} {brAddress : String} :
    contractFieldsSerializeToBytes purchaseOrderBytes buyerSignature timestamp brAddress =
      .ok data ↔
    ∃ time addr, encodeAscii (toString timestamp) = .ok time ∧ encodeAscii brAddress = .ok addr ∧
      data = label "order:" ++ purchaseOrderBytes ++ label "signature_buyer:" ++ buyerSignature ++
        label "timestamp:" ++ time ++ label "br_address:" ++ addr := by
  unfold contractFieldsSerializeToBytes
  rcases encodeAscii (toString timestamp) with e | time
  · simp [bind, Except.bind]
  rcases encodeAscii brAddress with e | addr
  · simp [bind, Except.bind]
  · simp only [bind, Except.bind, pure, Except.pure, Except.ok.injEq, exists_and_left,
      exists_eq_left']
    exact eq_comm

/-- Two ASCII characters with the same byte are equal. -/
lemma eq_of_byte_eq {c d : Char} (hc : isAscii c) (hd : isAscii d)
    (h : UInt8.ofNat c.toNat = UInt8.ofNat d.toNat) : c = d := by
  simp only [isAscii, decide_eq_true_eq] at hc hd
  have hn : c.toNat = d.toNat := by
    have := congrArg UInt8.toNat h
    rw [UInt8.toNat_ofNat', UInt8.toNat_ofNat'] at this
    omega
  exact Char.toNat_inj.mp hn

/-- The bytes of ASCII characters determine the characters. -/
lemma map_byte_injOn {s t : List Char} (hs : ∀ c ∈ s, isAscii c) (ht : ∀ c ∈ t, isAscii c)
    (h : s.map (fun c => UInt8.ofNat c.toNat) = t.map fun c => UInt8.ofNat c.toNat) : s = t := by
  induction s generalizing t with
  | nil => exact (List.map_eq_nil_iff.mp h.symm).symm
  | cons c s ih =>
    rcases t with _ | ⟨d, t⟩
    · simp at h
    · simp only [List.map_cons, List.cons.injEq] at h
      rw [eq_of_byte_eq (hs c (by simp)) (ht d (by simp)) h.1,
        ih (fun x hx => hs x (by simp [hx])) (fun x hx => ht x (by simp [hx])) h.2]

/-- The bytes of an ASCII text determine the text. -/
lemma label_injOn {s t : String} (hs : isAsciiText s = true) (ht : isAsciiText t = true)
    (h : label s = label t) : s = t :=
  String.toList_inj.mp (map_byte_injOn (List.all_eq_true.mp hs) (List.all_eq_true.mp ht) h)

/-- Two texts have the same encoding exactly when they are the same ASCII text. -/
lemma encodeAscii_inj {s t : String} :
    (∃ data, encodeAscii s = .ok data ∧ encodeAscii t = .ok data) ↔
      isAsciiText s = true ∧ s = t := by
  constructor
  · rintro ⟨data, hs, ht⟩
    obtain ⟨hascii, rfl⟩ := encodeAscii_eq_ok.mp hs
    obtain ⟨hascii', hlabel⟩ := encodeAscii_eq_ok.mp ht
    exact ⟨hascii, label_injOn hascii hascii' hlabel⟩
  · rintro ⟨hascii, rfl⟩
    exact ⟨label s, encodeAscii_eq_ok.mpr ⟨hascii, rfl⟩, encodeAscii_eq_ok.mpr ⟨hascii, rfl⟩⟩

end Esdx
