import Esdx.Market.Signatures
import Esdx.Util.IaGrammar

/-!
# What the seller's signature binds

The bytes that a seller signs are the fields of the offer one after another, most of them with no
mark in between.  They determine two texts, the header and the body, the MTU and the type of the
link; where in the two texts a field ends and the next one begins, they do not say.
-/

namespace Esdx

open PythonText

namespace Offer

/-- The signed text before the label of the paths. -/
def header (o : Offer) : String :=
  o.iaid ++ toString (timestampInt o.notbefore) ++ toString (timestampInt o.notafter)

/-- The signed text between the labels of the paths and of the MTU. -/
def body (o : Offer) : String :=
  o.reachablePaths ++ toString o.qosClass ++ String.ofList o.pricePerUnit.formatE ++ "profile:" ++
    o.bwProfile ++ "br_address_template:" ++ o.brAddressTemplate

/-- The lengths of the fields whose end is not marked. -/
def cuts (o : Offer) : List ℕ :=
  [o.iaid.length, (toString (timestampInt o.notbefore)).length, o.reachablePaths.length,
    (toString o.qosClass).length, o.pricePerUnit.formatE.length, o.bwProfile.length]

/-- The same ASCII texts, cut into fields at different places. -/
def Recut (o o' : Offer) : Prop :=
  isAsciiText o.header = true ∧ isAsciiText o.body = true ∧ o.header = o'.header ∧
    o.body = o'.body ∧ o.brMtu = o'.brMtu ∧ o.brLinkTo = o'.brLinkTo ∧ o.cuts ≠ o'.cuts

instance (o o' : Offer) : Decidable (Recut o o') :=
  inferInstanceAs (Decidable (_ ∧ _))

/-- The offers agree on all fields that the seller signs: times in seconds, prices as rendered. -/
structure SameFields (o o' : Offer) : Prop where
  iaid : o.iaid = o'.iaid
  notbefore : timestampInt o.notbefore = timestampInt o'.notbefore
  notafter : timestampInt o.notafter = timestampInt o'.notafter
  reachablePaths : o.reachablePaths = o'.reachablePaths
  qosClass : o.qosClass = o'.qosClass
  pricePerUnit : o.pricePerUnit.formatE = o'.pricePerUnit.formatE
  bwProfile : o.bwProfile = o'.bwProfile
  brAddressTemplate : o.brAddressTemplate = o'.brAddressTemplate
  brMtu : o.brMtu = o'.brMtu
  brLinkTo : o.brLinkTo = o'.brLinkTo

/-- The signed bytes of the two offers are the same. -/
def SameBytes (o o' : Offer) : Prop :=
  ∃ data, o.serializeToBytes false = .ok data ∧ o'.serializeToBytes false = .ok data

/-! ## Reading the signed text back -/

/-- The text of the signed bytes. -/
def signedText (o : Offer) : String :=
  offerFieldsText o.iaid (timestampInt o.notbefore) (timestampInt o.notafter) o.reachablePaths
    o.qosClass o.pricePerUnit o.bwProfile o.brAddressTemplate o.brMtu o.brLinkTo

/-- The signed text from the body on. -/
def signedTail (o : Offer) : String :=
  o.body ++ "br_mtu:" ++ toString o.brMtu ++ "br_link_to:" ++ o.brLinkTo ++ "signature:"

/-- The signed bytes are the encoded text. -/
lemma serializeToBytes_false {o : Offer} :
    o.serializeToBytes false = encodeAscii o.signedText := by
  change (encodeAscii o.signedText >>= fun b => pure (b ++ [])) = _
  rcases encodeAscii o.signedText with e | b
  · rfl
  · simp [bind, Except.bind, pure, Except.pure]

/-- The text is header, body, MTU and link type, with their labels. -/
lemma signedText_eq (o : Offer) :
    o.signedText = "ia:" ++ o.header ++ "reachable:" ++ o.signedTail := by
  have hassoc : ∀ ia iaid nb na re paths qos price pr bw te template mt mtu li link si : String,
      ia ++ iaid ++ nb ++ na ++ re ++ paths ++ qos ++ price ++ pr ++ bw ++ te ++ template ++ mt ++
        mtu ++ li ++ link ++ si =
      ia ++ (iaid ++ nb ++ na) ++ re ++ (paths ++ qos ++ price ++ pr ++ bw ++ te ++ template ++
        mt ++ mtu ++ li ++ link ++ si) := by
    intros
    simp only [String.append_assoc]
  exact hassoc ..

/-- Signed texts are equal exactly when header, body, MTU and link type are. -/
lemma signedText_inj {s s' : Store} {o o' : Offer} (ho : o.cleanFields s = [])
    (ho' : o'.cleanFields s' = []) :
    o.signedText = o'.signedText ↔
      o.header = o'.header ∧ o.body = o'.body ∧ o.brMtu = o'.brMtu ∧ o.brLinkTo = o'.brLinkTo := by
  have hheader : ∀ {s : Store} {o : Offer}, o.cleanFields s = [] →
      'r' ∉ ("ia:" ++ o.header).toList := by
    intro s o ho hmem
    obtain ⟨-, ⟨v, hv⟩, -⟩ := (cleanFields_eq_nil.mp ho).1
    rw [header, String.toList_append, String.toList_append, String.toList_append] at hmem
    rcases List.mem_append.mp hmem with hmem | hmem
    · exact absurd hmem (by decide)
    rcases List.mem_append.mp hmem with hmem | hmem
    · rcases List.mem_append.mp hmem with hmem | hmem
      · exact r_notMem_of_iaStrToInt hv hmem
      · exact absurd (isDigit_or_eq_minus_of_mem_toString hmem) (by decide)
    · exact absurd (isDigit_or_eq_minus_of_mem_toString hmem) (by decide)
  have hlink : ∀ {s : Store} {o : Offer}, o.cleanFields s = [] → ':' ∉ o.brLinkTo.toList := by
    intro s o ho
    have hchoice := (cleanFields_eq_nil.mp ho).2.2.2.2.2.1
    exact (by decide : ∀ link ∈ brLinkToChoices, ':' ∉ link.toList) _ hchoice
  have hmtu : ∀ z : ℤ, ':' ∉ (toString z).toList := fun z hmem =>
    absurd (isDigit_or_eq_minus_of_mem_toString hmem) (by decide)
  rw [signedText_eq, signedText_eq,
    append_label_inj_left (by decide) (hheader ho) (hheader ho'), String.append_right_inj,
    signedTail, signedTail, String.append_left_inj,
    append_label_inj (by decide) (hlink ho) (hlink ho'),
    append_label_inj (by decide) (hmtu _) (hmtu _), toString_inj, and_assoc]

/-- The signed text is ASCII when header and body are. -/
lemma isAsciiText_signedText {s : Store} {o : Offer} (ho : o.cleanFields s = []) :
    isAsciiText o.signedText = true ↔
      isAsciiText o.header = true ∧ isAsciiText o.body = true := by
  have hlink : isAsciiText o.brLinkTo = true :=
    (by decide : ∀ link ∈ brLinkToChoices, isAsciiText link = true) _
      (cleanFields_eq_nil.mp ho).2.2.2.2.2.1
  have hmtu : isAsciiText (toString o.brMtu) = true := by
    refine List.all_eq_true.mpr fun c hc => ?_
    rcases isDigit_or_eq_minus_of_mem_toString hc with h | rfl
    · exact isAscii_of_isDigit h
    · decide
  have hia : isAsciiText "ia:" = true := by decide
  have hreachable : isAsciiText "reachable:" = true := by decide
  have hmtuLabel : isAsciiText "br_mtu:" = true := by decide
  have hlinkLabel : isAsciiText "br_link_to:" = true := by decide
  have hsignature : isAsciiText "signature:" = true := by decide
  simp only [signedText_eq, signedTail, isAsciiText_append, hlink, hmtu, hia, hreachable,
    hmtuLabel, hlinkLabel, hsignature, and_true, true_and]

/-- **The signed bytes.**  They are the same exactly for the same ASCII header and body, MTU and
link type. -/
theorem sameBytes_iff {s s' : Store} {o o' : Offer} (ho : o.cleanFields s = [])
    (ho' : o'.cleanFields s' = []) :
    SameBytes o o' ↔ isAsciiText o.header = true ∧ isAsciiText o.body = true ∧
      o.header = o'.header ∧ o.body = o'.body ∧ o.brMtu = o'.brMtu ∧ o.brLinkTo = o'.brLinkTo := by
  unfold SameBytes
  rw [serializeToBytes_false, serializeToBytes_false, encodeAscii_inj,
    isAsciiText_signedText ho, signedText_inj ho ho', and_assoc]

/-! ## Cutting the texts into fields -/

/-- The header is cut by the lengths of its fields. -/
lemma header_fields {o o' : Offer} (hheader : o.header = o'.header)
    (hiaid : o.iaid.length = o'.iaid.length)
    (hnotbefore : (toString (timestampInt o.notbefore)).length =
      (toString (timestampInt o'.notbefore)).length) :
    o.iaid = o'.iaid ∧ timestampInt o.notbefore = timestampInt o'.notbefore ∧
      timestampInt o.notafter = timestampInt o'.notafter := by
  rw [header, header, String.append_assoc, String.append_assoc] at hheader
  obtain ⟨hiaid, hrest⟩ := append_inj_of_length hheader hiaid
  obtain ⟨hnotbefore, hnotafter⟩ := append_inj_of_length hrest hnotbefore
  exact ⟨hiaid, toString_inj.mp hnotbefore, toString_inj.mp hnotafter⟩

/-- The body is cut by the lengths of its fields. -/
lemma body_fields {o o' : Offer} (hbody : o.body = o'.body)
    (hpaths : o.reachablePaths.length = o'.reachablePaths.length)
    (hqos : (toString o.qosClass).length = (toString o'.qosClass).length)
    (hprice : o.pricePerUnit.formatE.length = o'.pricePerUnit.formatE.length)
    (hprofile : o.bwProfile.length = o'.bwProfile.length) :
    o.reachablePaths = o'.reachablePaths ∧ o.qosClass = o'.qosClass ∧
      o.pricePerUnit.formatE = o'.pricePerUnit.formatE ∧ o.bwProfile = o'.bwProfile ∧
      o.brAddressTemplate = o'.brAddressTemplate := by
  have hassoc : ∀ paths qos price pr bw te template : String,
      paths ++ qos ++ price ++ pr ++ bw ++ te ++ template =
        paths ++ (qos ++ (price ++ (pr ++ (bw ++ (te ++ template))))) := by
    intros
    simp only [String.append_assoc]
  rw [body, body, hassoc, hassoc] at hbody
  obtain ⟨hpaths, hrest⟩ := append_inj_of_length hbody hpaths
  obtain ⟨hqos, hrest⟩ := append_inj_of_length hrest hqos
  obtain ⟨hprice, hrest⟩ := append_inj_of_length hrest (by simpa using hprice)
  obtain ⟨hprofile, hrest⟩ := append_inj_of_length (String.append_right_inj _ |>.mp hrest) hprofile
  exact ⟨hpaths, toString_inj.mp hqos, String.ofList_injective hprice, hprofile,
    String.append_right_inj _ |>.mp hrest⟩

/-- Offers with the same signed bytes agree on all fields exactly when these are cut at the same
places. -/
lemma sameFields_iff_cuts {s s' : Store} {o o' : Offer} (ho : o.cleanFields s = [])
    (ho' : o'.cleanFields s' = []) (hbytes : SameBytes o o') :
    SameFields o o' ↔ o.cuts = o'.cuts := by
  obtain ⟨-, -, hheader, hbody, hmtu, hlink⟩ := (sameBytes_iff ho ho').mp hbytes
  constructor
  · intro h
    rw [cuts, cuts, h.iaid, h.notbefore, h.reachablePaths, h.qosClass, h.pricePerUnit, h.bwProfile]
  · intro hcuts
    simp only [cuts, List.cons.injEq, and_true] at hcuts
    obtain ⟨hiaid, hnotbefore, hpaths, hqos, hprice, hprofile⟩ := hcuts
    obtain ⟨hiaid, hnotbefore, hnotafter⟩ := header_fields hheader hiaid hnotbefore
    obtain ⟨hpaths, hqos, hprice, hprofile, htemplate⟩ :=
      body_fields hbody hpaths hqos hprice hprofile
    exact ⟨hiaid, hnotbefore, hnotafter, hpaths, hqos, hprice, hprofile, htemplate, hmtu, hlink⟩

/-- The same bytes mean the same fields exactly when they are not cut at different places. -/
lemma sameBytes_imp_sameFields_iff {s s' : Store} {o o' : Offer} (ho : o.cleanFields s = [])
    (ho' : o'.cleanFields s' = []) :
    (SameBytes o o' → SameFields o o') ↔ ¬Recut o o' := by
  constructor
  · rintro h ⟨hheader, hbody, heqs⟩
    have hbytes := (sameBytes_iff ho ho').mpr ⟨hheader, hbody, by tauto⟩
    exact heqs.2.2.2.2 ((sameFields_iff_cuts ho ho' hbytes).mp (h hbytes))
  · intro h hbytes
    rw [sameFields_iff_cuts ho ho' hbytes]
    by_contra hcuts
    have := (sameBytes_iff ho ho').mp hbytes
    exact h (by unfold Recut; tauto)

/-- The signed bytes of an offer that its seller's signature verifies for. -/
lemma validateSignatureFromSeller_ok {C : Crypto} {reg : Registry} {o : Offer}
    (h : o.validateSignatureFromSeller C reg = .ok ()) :
    ∃ cert data, o.serializeToBytes false = .ok data ∧ C.verify cert o.signature data = true := by
  unfold validateSignatureFromSeller at h
  rcases hdata : o.serializeToBytes false with e | data
  · simp [hdata, bind, Except.bind] at h
  rcases has : reg.getAs o.iaid with e | a
  · simp [hdata, has, bind, Except.bind] at h
  rcases hcert : C.loadCertificate a.certificatePem with e | cert
  · simp [hdata, has, hcert, bind, Except.bind] at h
  simp only [hdata, has, hcert, bind, Except.bind, Crypto.signatureValidate_eq_ok] at h
  exact ⟨cert, data, rfl, h⟩

end Offer

/-- What `AddOffer` has checked about the offer of an accepted specification. -/
lemma addOffer_checked {C : Crypto} {reg : Registry} {amb : Ambient C} {m : OfferSpecification}
    {s s' : Store} {answer : OfferMessage} (h : addOffer C reg amb m s = (.ok answer, s'))
    {o : Offer} (ho : OfferProtoSerializer.save m = .ok o) :
    o.cleanFields s = [] ∧
      ∃ cert data, o.serializeToBytes false = .ok data ∧ C.verify cert m.signature data = true := by
  obtain ⟨head, copy, hlisting, -, -⟩ := addOffer_ok h
  obtain ⟨o', ho', rfl⟩ := hlisting.created
  obtain rfl : o = o' := Except.ok.inj (ho.symm.trans ho')
  obtain ⟨cert, data, hdata, hverify⟩ := Offer.validateSignatureFromSeller_ok hlisting.seller_signed
  refine ⟨(Offer.preSave_eq_ok.mp hlisting.head_valid).1, cert, data, hdata, ?_⟩
  rw [← (OfferProtoSerializer.save_fields ho).2.2]
  exact hverify

/-- **What the seller's signature binds.**  The same signed bytes mean the same fields, and one
signature is accepted by `AddOffer` for the same fields only, exactly when the two offers are not
the same texts cut into fields at different places. -/
theorem signature_binds_iff (C : Crypto) (reg : Registry) (hbinding : C.Binding) :
    (∀ (s s' : Store) (o o' : Offer), o.preSave s = .ok () → o'.preSave s' = .ok () →
      ((Offer.SameBytes o o' → Offer.SameFields o o') ↔ ¬Offer.Recut o o')) ∧
    ∀ (amb amb' : Ambient C) (s s' t t' : Store) (m m' : OfferSpecification)
      (answer answer' : OfferMessage) (o o' : Offer),
      addOffer C reg amb m s = (.ok answer, t) → addOffer C reg amb' m' s' = (.ok answer', t') →
      OfferProtoSerializer.save m = .ok o → OfferProtoSerializer.save m' = .ok o' →
      m.signature = m'.signature → (Offer.SameFields o o' ↔ ¬Offer.Recut o o') := by
  constructor
  · intro s s' o o' ho ho'
    exact Offer.sameBytes_imp_sameFields_iff (Offer.preSave_eq_ok.mp ho).1
      (Offer.preSave_eq_ok.mp ho').1
  · intro amb amb' s s' t t' m m' answer answer' o o' h h' ho ho' hsignature
    obtain ⟨hclean, cert, data, hdata, hverify⟩ := addOffer_checked h ho
    obtain ⟨hclean', cert', data', hdata', hverify'⟩ := addOffer_checked h' ho'
    rw [← hsignature] at hverify'
    obtain rfl := hbinding cert cert' m.signature data data' hverify hverify'
    rw [← Offer.sameBytes_imp_sameFields_iff hclean hclean']
    have hbytes : Offer.SameBytes o o' := ⟨data, hdata, hdata'⟩
    exact ⟨fun h _ => h, fun h => h hbytes⟩

/-! ## A signature used again -/

namespace SmallMarket

/-- A specification with the paths and the QoS class of an offer that an AS posts. -/
def posting (paths : String) (qos : ℤ) : OfferSpecification :=
  { specification "10.1.1.1:50-51" with reachablePaths := paths, qosClass := qos }

/-- What the seller signs: the paths `a` with QoS class 11. -/
def genuine : OfferSpecification := signedBySeller (posting "a" 11)

/-- The signature of the seller under the paths `a1` with QoS class 1. -/
def altered : OfferSpecification := { posting "a1" 1 with signature := genuine.signature }

/-- The offer of a posting with the signature of the seller. -/
def posted (paths : String) (qos : ℤ) : Offer where
  iaid := "1-ff00:0:110"
  signature := genuine.signature
  notbefore := 0
  notafter := 1200000000
  reachablePaths := paths
  qosClass := qos
  pricePerUnit := ⟨0x3ff0000000000000⟩
  bwProfile := "4,4"
  brAddressTemplate := "10.1.1.1:50-51"
  brMtu := 1500
  brLinkTo := "PARENT"

/-- Both offers pass the checks of an empty market. -/
lemma posted_valid :
    (posted "a" 11).preSave {} = .ok () ∧ (posted "a1" 1).preSave {} = .ok () := by
  decide +kernel

/-- The two offers are one text, cut at different places. -/
lemma posted_recut : Offer.Recut (posted "a" 11) (posted "a1" 1) := by decide +kernel

/-- The two offers have the same bytes but not the same fields. -/
lemma posted_bytes : ¬(Offer.SameBytes (posted "a" 11) (posted "a1" 1) →
    Offer.SameFields (posted "a" 11) (posted "a1" 1)) := by
  rw [Offer.sameBytes_imp_sameFields_iff (Offer.preSave_eq_ok.mp posted_valid.1).1
    (Offer.preSave_eq_ok.mp posted_valid.2).1, not_not]
  exact posted_recut

/-- The two specifications are those of the two offers. -/
lemma posted_saved : OfferProtoSerializer.save genuine = .ok (posted "a" 11) ∧
    OfferProtoSerializer.save altered = .ok (posted "a1" 1) := by
  decide +kernel

/-- The empty market accepts the genuine specification as well as the altered one. -/
lemma posted_accepted :
    (addOffer Crypto.transparent registry amb genuine {}).1.isOk = true ∧
      (addOffer Crypto.transparent registry amb altered {}).1.isOk = true := by
  decide +kernel

end SmallMarket

/-- Two offers with one signature that are one text cut at different places. -/
theorem signature_binds_iff_posted :
    ¬(Offer.SameBytes (SmallMarket.posted "a" 11) (SmallMarket.posted "a1" 1) →
      Offer.SameFields (SmallMarket.posted "a" 11) (SmallMarket.posted "a1" 1)) := by
  rw [(signature_binds_iff Crypto.transparent SmallMarket.registry Crypto.transparent_binding).1
    {} {} _ _ SmallMarket.posted_valid.1 SmallMarket.posted_valid.2, not_not]
  exact SmallMarket.posted_recut

/-- The same signed bytes can have different fields, and `AddOffer` can accept one signature for
both. -/
theorem not_signature_binds :
    (¬∀ (s s' : Store) (o o' : Offer), o.preSave s = .ok () → o'.preSave s' = .ok () →
      Offer.SameBytes o o' → Offer.SameFields o o') ∧
    ¬∀ (C : Crypto) (reg : Registry), C.Binding →
      ∀ (amb amb' : Ambient C) (s s' t t' : Store) (m m' : OfferSpecification)
        (answer answer' : OfferMessage) (o o' : Offer),
        addOffer C reg amb m s = (.ok answer, t) → addOffer C reg amb' m' s' = (.ok answer', t') →
        OfferProtoSerializer.save m = .ok o → OfferProtoSerializer.save m' = .ok o' →
        m.signature = m'.signature → Offer.SameFields o o' := by
  constructor
  · intro h
    exact SmallMarket.posted_bytes (h {} {} _ _ SmallMarket.posted_valid.1
      SmallMarket.posted_valid.2)
  · intro h
    obtain ⟨haccepted, haccepted'⟩ := SmallMarket.posted_accepted
    rcases hadd : addOffer Crypto.transparent SmallMarket.registry SmallMarket.amb
      SmallMarket.genuine {} with ⟨e | answer, t⟩
    · simp [hadd, Except.isOk, Except.toBool] at haccepted
    rcases hadd' : addOffer Crypto.transparent SmallMarket.registry SmallMarket.amb
      SmallMarket.altered {} with ⟨e | answer', t'⟩
    · simp [hadd', Except.isOk, Except.toBool] at haccepted'
    have hsignature : SmallMarket.genuine.signature = SmallMarket.altered.signature := by
      rw [SmallMarket.altered]
    have hfields := h Crypto.transparent SmallMarket.registry Crypto.transparent_binding
      _ _ _ _ _ _ _ _ _ _ _ _ hadd hadd' SmallMarket.posted_saved.1 SmallMarket.posted_saved.2
      hsignature
    exact absurd hfields.reachablePaths (by decide)

end Esdx
