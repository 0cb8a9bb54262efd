import Esdx.Util.IaGrammar
import Esdx.Market.Binding
import Esdx.Market.Clients

/-!
# Selling

`AddOffer` makes many checks, but what it decides depends on the offer alone: not on what the market
has stored, and on nothing that comes after the checks of the seller's offer.  So a provider that
makes its offers with `create_simplified_offer` and `sell_offer` can sell them at any time.
-/

namespace Esdx

open PythonText Table

variable {C : Crypto} {reg : Registry} {s : Store} {cs : List (Chain C reg)}

/-! ## The checks of `AddOffer` -/

/-- What the market asks of an offer that is put up. -/
structure Offer.Sellable (C : Crypto) (reg : Registry) (o : Offer) : Prop where
  valid : o.Valid
  signed : o.validateSignatureFromSeller C reg = .ok ()
  finite : o.pricePerUnit.isFinite = true

/-- The checks do not read the id, the signature and the offer replaced. -/
lemma Offer.Valid.of_terms {o o' : Offer} (h : o.Valid)
    (heq : o' = { o with
      id := o'.id
      signature := o'.signature
      deprecates := o'.deprecates }) : o'.Valid := by
  rw [heq]
  exact ⟨h.iaid, h.qosClass, h.intList, h.lifespan, h.profile, h.template, h.brMtu, h.brLinkTo⟩

namespace Represents

/-- Only stored offers are replaced. -/
lemma deprecates_lt (h : Represents s cs) {o : Offer} (ho : o ∈ s.offers) {d : ℕ}
    (hd : o.deprecates = some d) : d < s.nextOffer := by
  obtain ⟨c, hc, hmem⟩ := h.mem_offers.mp ho
  rcases Chain.eq_head_or_successor hmem with rfl | ⟨pre, a, post, hoffers, ha⟩
  · obtain ⟨copy, hlisted⟩ := c.history.isListed
    rw [hlisted.original] at hd
    exact absurd hd (by simp)
  · obtain rfl := Option.some.inj (ha.symm.trans hd)
    refine h.offer_keys.lt a (h.mem_offers.mpr ⟨c, hc, ?_⟩)
    rw [hoffers]
    simp

/-- A sellable offer is put up, whatever the store holds. -/
lemma addOffer_eq_ok (h : Represents s cs) {key : C.Key} (hkey : reg.getBrokerKey C = .ok key)
    {specs : OfferSpecification} {o : Offer} (hsave : OfferProtoSerializer.save specs = .ok o)
    (ho : o.Sellable C reg) (amb : Ambient C) :
    ∃ m s', addOffer C reg amb specs s = (.ok m, s') := by
  obtain ⟨hid, hdeprecates, -⟩ := OfferProtoSerializer.save_fields hsave
  obtain ⟨cert, data, hdata, -⟩ := Offer.validateSignatureFromSeller_ok ho.signed
  let head : Offer := { o with id := s.nextOffer }
  let copy : Offer := { o with
    id := 0
    deprecates := some s.nextOffer
    signature := C.signatureCreate key amb.offerSalt data }
  have hhead : head.preSave s = .ok () := preSave_iff_valid.mpr
    ⟨ho.valid.of_terms rfl, fun d hd => absurd (hdeprecates.symm.trans hd) (by simp)⟩
  have hunsold : ∀ x ∈ (s.addOfferRow head).offers, x.deprecates ≠ some s.nextOffer := by
    intro x hx hd
    rw [s.addOfferRow_eq rfl] at hx
    rcases List.mem_append.mp hx with hx | hx
    · exact absurd (h.deprecates_lt hx hd) (lt_irrefl _)
    · rw [List.mem_singleton.mp hx] at hd
      exact absurd (hdeprecates.symm.trans hd) (by simp)
  have hcopy : copy.preSave (s.addOfferRow head) = .ok () := preSave_iff_valid.mpr
    ⟨ho.valid.of_terms rfl, fun d hd => by
      obtain rfl := Option.some.inj hd
      refine ⟨⟨head, ?_, rfl⟩, hunsold⟩
      rw [s.addOfferRow_eq rfl]
      exact List.mem_append_right _ (List.mem_singleton.mpr rfl)⟩
  obtain ⟨m, hm⟩ : ∃ m, OfferProtoSerializer.message
      { copy with id := (s.addOfferRow head).nextOffer } = .ok m := ⟨_, if_pos ho.finite⟩
  refine ⟨m, (s.addOfferRow head).addOfferRow copy, ?_⟩
  unfold addOffer
  rw [Tx.mapError_eq_ok, Tx.bind_liftM_eq_ok]
  refine ⟨o, hsave, ?_⟩
  unfold addOfferTransaction
  rw [Tx.atomic_eq_ok, Tx.bind_liftM_eq_ok]
  refine ⟨(), ho.signed, Tx.bind_eq_ok.mpr ⟨head, s.addOfferRow head, ?_, ?_⟩⟩
  · exact save_eq_ok.mpr ⟨hhead, fun d hd => absurd (hdeprecates.symm.trans hd) (by simp), rfl, rfl⟩
  refine Tx.bind_liftM_eq_ok.mpr ⟨copy, signWithBroker_eq_ok.mpr ⟨key, data, hkey, hdata, rfl⟩, ?_⟩
  refine Tx.bind_eq_ok.mpr ⟨_, _, save_eq_ok.mpr ⟨hcopy, fun d hd => ?_, rfl, rfl⟩, ?_⟩
  · obtain rfl := Option.some.inj hd
    exact hunsold
  · exact Tx.liftM_eq_ok.mpr ⟨hm, rfl⟩

/-- The market takes in exactly the sellable offers. -/
lemma addOffer_iff (h : Represents s cs) {key : C.Key} (hkey : reg.getBrokerKey C = .ok key)
    {specs : OfferSpecification} (amb : Ambient C) :
    (∃ m s', addOffer C reg amb specs s = (.ok m, s')) ↔
      ∃ o, OfferProtoSerializer.save specs = .ok o ∧ o.Sellable C reg := by
  constructor
  · rintro ⟨m, s', hadd⟩
    obtain ⟨head, copy, hlisting, hm, -⟩ := addOffer_ok hadd
    obtain ⟨o, hsave, hhead⟩ := hlisting.created
    refine ⟨o, hsave, ⟨?_, ?_, ?_⟩⟩
    · obtain ⟨-, hdeprecates, -⟩ := OfferProtoSerializer.save_fields hsave
      exact (preSave_iff_valid.mp hlisting.head_valid).1.of_terms (by rw [hhead])
    · have hsigned := hlisting.seller_signed
      rw [hhead] at hsigned
      exact hsigned
    · unfold OfferProtoSerializer.message at hm
      have hprice : copy.pricePerUnit = o.pricePerUnit := by rw [hlisting.copy_eq, hhead]
      split at hm
      · rename_i hfinite
        rw [← hprice]
        exact hfinite
      · exact absurd hm (by simp)
  · rintro ⟨o, hsave, ho⟩
    exact h.addOffer_eq_ok hkey hsave ho amb

end Represents

/-- **Sellers.**  After every run `AddOffer` puts up exactly the sellable offers: what the store
holds does not matter, and nothing that comes after the checks of the seller's offer refuses it. -/
theorem run_addOffer_iff {key : C.Key} (hkey : reg.getBrokerKey C = .ok key)
    (calls : List (Call C)) (amb : Ambient C) (specs : OfferSpecification) :
    (∃ m, (serve C reg ⟨amb, .addOffer specs⟩ (run C reg calls).2).1 = .ok (.offer m)) ↔
      ∃ o, OfferProtoSerializer.save specs = .ok o ∧ o.Sellable C reg := by
  obtain ⟨cs, hexplains⟩ := exists_chains C reg calls
  rw [← hexplains.represents.addOffer_iff hkey amb]
  constructor
  · rintro ⟨m, hm⟩
    obtain ⟨m', s', hadd, -⟩ := Tx.bind_eq_ok.mp (Prod.ext hm rfl)
    exact ⟨m', s', hadd⟩
  · rintro ⟨m, s', hadd⟩
    exact ⟨m, congrArg Prod.fst (Tx.bind_eq_ok.mpr ⟨m, s', hadd, rfl⟩)⟩

/-- The answer of an accepted `AddOffer` is an offer. -/
lemma exists_offer_of_listing? {call : Call C} {answer : Except Exc Response}
    (h : (Event.listing? (call, answer)).isSome = true) : ∃ m, answer = .ok (.offer m) := by
  unfold Event.listing? at h
  split at h
  · rename_i m _ hm _
    exact ⟨m, hm⟩
  · simp at h

/-- A second offer of the small market is put up. -/
theorem run_addOffer_iff_offered :
    ∃ o, OfferProtoSerializer.save (SmallMarket.signedBySeller
      (SmallMarket.specification "10.1.1.2:50-51")) = .ok o ∧
      o.Sellable Crypto.transparent SmallMarket.registry := by
  refine (run_addOffer_iff SmallMarket.brokerKey SmallMarket.offered SmallMarket.amb _).mp ?_
  have hlisted : (Event.listing? (SmallMarket.offering "10.1.1.2:50-51",
      (serve Crypto.transparent SmallMarket.registry (SmallMarket.offering "10.1.1.2:50-51")
        (run Crypto.transparent SmallMarket.registry SmallMarket.offered).2).1)).isSome = true := by
    decide +kernel
  obtain ⟨m, hm⟩ := exists_offer_of_listing? hlisted
  exact ⟨m, hm⟩

/-! ## Texts of a provider -/

/-- An ISD-AS number has no space at its ends and no null character. -/
lemma strip_of_iaStrToInt {ia : String} {v : ℕ} (h : iaStrToInt ia = .ok v) :
    strip ia.toList = ia.toList ∧ '\x00' ∉ ia.toList := by
  obtain ⟨isd, asn, hform, -⟩ := iaStrToInt_eq_ok_iff.mp h
  constructor
  · obtain ⟨isdPart, asPart, hia, hisd, -, has⟩ := hform
    obtain ⟨hne, hhead, -⟩ := hisd.isSignedNumeral.ends
    have hlast := (stripBy_eq_self_iff.mp has.strip_and_notMem.1).2
    rw [hia]
    refine stripBy_eq_self ?_ ?_
    · rw [List.head?_append_of_ne_nil _ hne]
      exact hhead
    · rw [List.getLast?_append_of_ne_nil _ (List.cons_ne_nil _ _)]
      intro c hc
      rcases asPart with _ | ⟨d, ds⟩
      · obtain rfl : '-' = c := by simpa using hc
        decide
      · rw [List.getLast?_cons_of_ne_nil (List.cons_ne_nil _ _)] at hc
        exact hlast c hc
  · intro hmem
    refine hform.forall_mem (P := fun c => c ≠ '\x00') ?_ (by decide) (by decide) _ hmem rfl
    rintro base t k - hnum c hc rfl
    exact hnum.isSignedNumeral.notMem (by decide) rfl (by decide) hc

/-- An ISD-AS number is not empty. -/
lemma ne_empty_of_iaStrToInt {ia : String} (h : ∃ v, iaStrToInt ia = .ok v) : ia ≠ "" := by
  rintro rfl
  obtain ⟨v, hv⟩ := h
  obtain ⟨isd, asn, ⟨isdPart, asPart, heq, -⟩, -⟩ := iaStrToInt_eq_ok_iff.mp hv
  simp at heq

/-- The characters of a plain list are digits and commas. -/
lemma IsPlainCsv.mem {profile : String} (h : IsPlainCsv profile) {c : Char}
    (hc : c ∈ profile.toList) : c = ',' ∨ c.isDigit = true := by
  rw [← @List.intercalate_splitOn _ profile.toList _ _ ','] at hc
  rcases mem_intercalate hc with rfl | ⟨part, hpart, hc⟩
  · exact .inl rfl
  · exact .inr ((h part hpart).2 c hc)

/-- A plain list is ASCII, and has no space and no null character. -/
lemma IsPlainCsv.plain {profile : String} (h : IsPlainCsv profile) :
    isAsciiText profile = true ∧ strip profile.toList = profile.toList ∧
      '\x00' ∉ profile.toList := by
  have hspace : ∀ c ∈ profile.toList, isSpace c = false := fun c hc => by
    rcases h.mem hc with rfl | hdigit
    · decide
    · exact isSpace_of_digitValue (digitValue_ten hdigit)
  refine ⟨List.all_eq_true.mpr fun c hc => ?_, stripBy_eq_self
    (fun c hc => hspace c (List.mem_of_mem_head? hc))
    (fun c hc => hspace c (List.mem_of_mem_getLast? hc)), fun hc => ?_⟩
  · rcases h.mem hc with rfl | hdigit
    · decide
    · exact isAscii_of_isDigit hdigit
  · rcases h.mem hc with hcomma | hdigit
    · exact absurd hcomma (by decide)
    · exact absurd hdigit (by decide)

/-- A plain list can be read, one number for each part. -/
lemma IsPlainCsv.exists_intlist {profile : String} (h : IsPlainCsv profile) :
    ∃ p, csvToIntlist profile = .ok p ∧ p.length = (profile.toList.splitOn ',').length := by
  have hread : ∀ ss : List (List Char), (∀ s ∈ ss, s ≠ [] ∧ ∀ c ∈ s, c.isDigit) →
      ∃ p, toIntList ss = .ok p := by
    intro ss hss
    induction ss with
    | nil => exact ⟨[], rfl⟩
    | cons s ss ih =>
      obtain ⟨hne, hdigits⟩ := hss s List.mem_cons_self
      obtain ⟨p, hp⟩ := ih fun s' hs' => hss s' (List.mem_cons_of_mem _ hs')
      have hs := toInt_eq_ok.mpr (pyInt_digits hdigits hne)
      exact ⟨_, by simp only [toIntList, hs, hp, bind, Except.bind]; rfl⟩
  obtain ⟨p, hp⟩ := hread _ h
  exact ⟨p, hp, length_of_toIntList hp⟩

/-- A list of decimal digits of any script is plain when it is ASCII. -/
lemma isPlainCsv_of_isIntList {profile : String} (h : isIntList profile = true)
    (hascii : isAsciiText profile = true) : IsPlainCsv profile := by
  intro part hpart
  have hpart' := List.all_eq_true.mp h part hpart
  rw [Bool.and_eq_true, List.all_eq_true] at hpart'
  refine ⟨by simpa using hpart'.1, fun c hc => ?_⟩
  have hc' := List.all_eq_true.mp hascii c (mem_of_mem_splitOn hpart hc)
  have hdecimal := hpart'.2 c hc
  rw [isDecimal, decimalValue, if_pos hc'] at hdecimal
  by_cases hrange : '0' ≤ c ∧ c ≤ '9'
  · simp only [Char.isDigit, Bool.and_eq_true, decide_eq_true_eq]
    exact hrange
  · rw [if_neg hrange] at hdecimal
    exact absurd hdecimal (by decide)

/-! ## A provider -/

/-- What the provider can put up at the time `now`: a plain list of periods that are all in the
range of the calendar. -/
structure CanOffer (now : ℤ) (profile : String) : Prop where
  plain : IsPlainCsv profile
  start : datetimeMinSeconds ≤ timestampInt now
  stop : timestampInt now + (profile.toList.splitOn ',').length * 600 ≤ datetimeMaxSeconds

/-- The offer of `create_simplified_offer`, as the market reads it. -/
def MarketClient.simplified (provider : MarketClient C) (now : ℤ) (profile : String)
    (signature : Bytes) : Offer where
  iaid := provider.ia
  signature
  notbefore := timestampInt now * 1000000
  notafter := (timestampInt now + (profile.toList.splitOn ',').length * 600) * 1000000
  reachablePaths := "*"
  qosClass := 0
  pricePerUnit := ⟨0x3E112E0BE826D695⟩
  bwProfile := OfferProtoSerializer.stripped profile
  brAddressTemplate := "127.0.0.1:50000-55000"
  brMtu := 1500
  brLinkTo := "PARENT"

namespace OfferProtoSerializer

/-- A time in seconds is read when it is in the range of the calendar. -/
lemma dateOf_seconds_eq_ok {seconds t : ℤ} :
    dateOf (some { seconds }) = .ok (some t) ↔
      datetimeMinSeconds ≤ seconds ∧ seconds ≤ datetimeMaxSeconds ∧ t = seconds * 1000000 := by
  have hmicros : (seconds * 1000000000 + 0) / 1000 = seconds * 1000000 := by omega
  simp only [dateOf, toDatetime, hmicros, bind, Except.bind]
  split
  · rename_i e heq
    split at heq
    · exact iff_of_false (by simp) (by omega)
    · simp at heq
  · rename_i u heq
    split at heq
    · simp at heq
    · obtain rfl := Except.ok.inj heq
      simp only [pure, Except.pure, Except.ok.injEq, Option.some.injEq]
      omega

end OfferProtoSerializer

namespace MarketClient

variable {provider : MarketClient C} {now : ℤ} {profile : String}

/-- What the serializer makes of the specification of a provider. -/
lemma save_createSimplifiedOffer (hia : ∃ v, iaStrToInt provider.ia = .ok v)
    (hlength : provider.ia.toList.length ≤ 32) (now : ℤ) (profile : String) (signature : Bytes)
    {o : Offer} :
    OfferProtoSerializer.save
        { provider.createSimplifiedOffer now profile with signature := signature } = .ok o ↔
      datetimeMinSeconds ≤ timestampInt now ∧
      timestampInt now + (profile.toList.splitOn ',').length * 600 ≤ datetimeMaxSeconds ∧
      strip profile.toList ≠ [] ∧ '\x00' ∉ strip profile.toList ∧
      o = provider.simplified now profile signature := by
  obtain ⟨v, hv⟩ := hia
  obtain ⟨hstrip, hnull⟩ := strip_of_iaStrToInt hv
  have hne : provider.ia.toList ≠ [] := fun hnil =>
    ne_empty_of_iaStrToInt ⟨v, hv⟩ (String.toList_inj.mp hnil)
  have hiaText : OfferProtoSerializer.stripped provider.ia = provider.ia := by
    rw [OfferProtoSerializer.stripped, hstrip, String.ofList_toList]
  have herrors : ∀ notbefore notafter, OfferProtoSerializer.errors
      { provider.createSimplifiedOffer now profile with signature := signature }
        (some notbefore) (some notafter) = [] ↔
      strip profile.toList ≠ [] ∧ '\x00' ∉ strip profile.toList := by
    intro notbefore notafter
    have hia : OfferProtoSerializer.charField "iaid" (some 32) provider.ia = [] :=
      OfferProtoSerializer.charField_eq_nil.mpr
        ⟨by rwa [hstrip], by simpa [hstrip] using hlength, by rwa [hstrip]⟩
    have hpaths : OfferProtoSerializer.charField "reachable_paths" none "*" = [] := by decide
    have htemplate : OfferProtoSerializer.charField "br_address_template" none
        "127.0.0.1:50000-55000" = [] := by decide
    have hlink : OfferProtoSerializer.charField "br_link_to" none "PARENT" = [] := by decide
    simp only [OfferProtoSerializer.errors, createSimplifiedOffer, hia, hpaths, htemplate, hlink,
      OfferProtoSerializer.dateTimeField, List.append_nil, List.nil_append]
    simp [OfferProtoSerializer.charField_eq_nil]
  rw [OfferProtoSerializer.save_eq_ok]
  have hrows : ∀ notbefore notafter, (OfferProtoSerializer.dateOf
      (provider.createSimplifiedOffer now profile).notbefore = .ok (some notbefore) ↔
        datetimeMinSeconds ≤ timestampInt now ∧
        timestampInt now ≤ datetimeMaxSeconds ∧ notbefore = timestampInt now * 1000000) ∧
      (OfferProtoSerializer.dateOf (provider.createSimplifiedOffer now profile).notafter =
        .ok (some notafter) ↔ datetimeMinSeconds ≤ timestampInt now +
          (profile.toList.splitOn ',').length * 600 ∧ timestampInt now +
          (profile.toList.splitOn ',').length * 600 ≤ datetimeMaxSeconds ∧
          notafter = (timestampInt now + (profile.toList.splitOn ',').length * 600) * 1000000) :=
    fun notbefore notafter => ⟨OfferProtoSerializer.dateOf_seconds_eq_ok,
      OfferProtoSerializer.dateOf_seconds_eq_ok⟩
  simp only [herrors, (hrows _ 0).1, (hrows 0 _).2]
  constructor
  · rintro ⟨nb, na, ⟨hmin, -, rfl⟩, ⟨-, hmax, rfl⟩, ⟨hblank, hnull⟩, rfl⟩
    refine ⟨hmin, hmax, hblank, hnull, ?_⟩
    simp only [createSimplifiedOffer, simplified, hiaText]
    rfl
  · rintro ⟨hmin, hmax, hblank, hnull, rfl⟩
    refine ⟨_, _, ⟨hmin, by omega, rfl⟩, ⟨by omega, hmax, rfl⟩, ⟨hblank, hnull⟩, ?_⟩
    simp only [createSimplifiedOffer, simplified, hiaText]
    rfl

/-- The text that the provider signs is ASCII when its profile is. -/
lemma isAsciiText_simplified (hia : isAsciiText provider.ia = true) (now : ℤ)
    {bwProfile : String} :
    isAsciiText (offerFieldsText provider.ia (timestampInt now)
      (timestampInt now + (profile.toList.splitOn ',').length * 600) "*" 0 ⟨0x3E112E0BE826D695⟩
      bwProfile "127.0.0.1:50000-55000" 1500 "PARENT") = true ↔ isAsciiText bwProfile = true := by
  have hprice : isAsciiText (String.ofList (⟨0x3E112E0BE826D695⟩ : Float64).formatE) = true := by
    decide +kernel
  have hlabels : isAsciiText "ia:" = true ∧ isAsciiText "reachable:" = true ∧
      isAsciiText "*" = true ∧ isAsciiText "profile:" = true ∧
      isAsciiText "br_address_template:" = true ∧
      isAsciiText "127.0.0.1:50000-55000" = true ∧ isAsciiText "br_mtu:" = true ∧
      isAsciiText "br_link_to:" = true ∧ isAsciiText "PARENT" = true ∧
      isAsciiText "signature:" = true := by
    decide
  unfold offerFieldsText
  simp only [isAsciiText_append, hprice, hlabels, hia, (isAsciiText_toString _).1, true_and,
    and_true]

/-- Without a signature the bytes are those of the text. -/
lemma offerFieldsSerializeToBytes_nil {iaid reachablePaths bwProfile brAddressTemplate
    brLinkTo : String} {notbefore notafter qosClass brMtu : ℤ} {pricePerUnit : Float64}
    {data : Bytes} :
    offerFieldsSerializeToBytes iaid notbefore notafter reachablePaths qosClass pricePerUnit
        bwProfile brAddressTemplate brMtu brLinkTo [] = .ok data ↔
      isAsciiText (offerFieldsText iaid notbefore notafter reachablePaths qosClass pricePerUnit
        bwProfile brAddressTemplate brMtu brLinkTo) = true ∧
      data = label (offerFieldsText iaid notbefore notafter reachablePaths qosClass pricePerUnit
        bwProfile brAddressTemplate brMtu brLinkTo) := by
  simp only [offerFieldsSerializeToBytes_eq_ok, encodeAscii_eq_ok, List.append_nil]
  constructor
  · rintro ⟨b, ⟨hascii, hb⟩, hdata⟩
    exact ⟨hascii, hdata.trans hb⟩
  · rintro ⟨hascii, hdata⟩
    exact ⟨_, ⟨hascii, rfl⟩, hdata⟩

/-- The bytes of the simplified offer are those that the provider signs for its text. -/
lemma serializeToBytes_simplified (hia : isAsciiText provider.ia = true) (now : ℤ)
    (profile : String) (signature data : Bytes) :
    (provider.simplified now profile signature).serializeToBytes false = .ok data ↔
      isAsciiText (OfferProtoSerializer.stripped profile) = true ∧
      data = label (offerFieldsText provider.ia (timestampInt now)
        (timestampInt now + (profile.toList.splitOn ',').length * 600) "*" 0
        ⟨0x3E112E0BE826D695⟩ (OfferProtoSerializer.stripped profile) "127.0.0.1:50000-55000" 1500
        "PARENT") := by
  unfold Offer.serializeToBytes simplified
  simp only [timestampInt_seconds, Bool.false_eq_true, if_false]
  rw [offerFieldsSerializeToBytes_nil, isAsciiText_simplified hia]

/-- What the provider signs. -/
lemma serializeToBytes_createSimplifiedOffer (hia : isAsciiText provider.ia = true) (data : Bytes) :
    offerSpecificationSerializeToBytes (provider.createSimplifiedOffer now profile) false =
        .ok data ↔
      isAsciiText profile = true ∧
      data = label (offerFieldsText provider.ia (timestampInt now)
        (timestampInt now + (profile.toList.splitOn ',').length * 600) "*" 0
        ⟨0x3E112E0BE826D695⟩ profile "127.0.0.1:50000-55000" 1500 "PARENT") := by
  change offerFieldsSerializeToBytes provider.ia (timestampInt now)
    (timestampInt now + (profile.toList.splitOn ',').length * 600) "*" 0 ⟨0x3E112E0BE826D695⟩
    profile "127.0.0.1:50000-55000" 1500 "PARENT" [] = .ok data ↔ _
  rw [offerFieldsSerializeToBytes_nil, isAsciiText_simplified hia]

/-- The stripped text of a plain list is the list. -/
lemma stripped_of_isPlainCsv (h : IsPlainCsv profile) :
    OfferProtoSerializer.stripped profile = profile := by
  rw [OfferProtoSerializer.stripped, h.plain.2.1, String.ofList_toList]

/-- The simplified offer passes the checks when its profile is a plain list. -/
lemma valid_simplified (hia : ∃ v, iaStrToInt provider.ia = .ok v)
    (hlength : provider.ia.toList.length ≤ 32) (hplain : IsPlainCsv profile)
    (signature : Bytes) : (provider.simplified now profile signature).Valid := by
  obtain ⟨p, hp, hcount⟩ := hplain.exists_intlist
  have htext := stripped_of_isPlainCsv hplain
  have hlist := isIntList_of_isPlainCsv hplain
  have hspan : (timestampInt now + (profile.toList.splitOn ',').length * 600) * 1000000 -
      timestampInt now * 1000000 = bwPeriod * p.length := by
    rw [bwPeriod, hcount]
    ring
  have hpos : 0 ≤ bwPeriod * (p.length : ℤ) := Int.mul_nonneg (by decide) (Int.natCast_nonneg _)
  have htemplate : ipPortRangeFromStr "127.0.0.1:50000-55000" =
      .ok (.v4 ⟨[127, 0, 0, 1], by decide, by decide⟩, 50000, 55000) := by
    decide +kernel
  unfold simplified
  rw [htext]
  exact {
    iaid := ⟨ne_empty_of_iaStrToInt hia, hia, le_trans hlength (by decide)⟩
    qosClass := ⟨by norm_num, by norm_num⟩
    intList := ⟨hplain.ne_empty, hlist⟩
    lifespan := ⟨Int.sub_nonneg.mp (hspan ▸ hpos), ⟨p.length, hspan⟩⟩
    profile := ⟨p, hp, Offer.nonneg_of_isIntList hlist hp,
      List.length_pos_iff.mpr (csvToIntlist_ne_nil hp), by
        dsimp only
        rw [hspan, Int.mul_ediv_cancel_left _ (by decide)]⟩
    template := ⟨by simp, _, htemplate⟩
    brMtu := ⟨by norm_num, by norm_num⟩
    brLinkTo := by simp [brLinkToChoices] }

/-- The simplified offer is sellable when the provider signed it and its profile is a plain list. -/
lemma sellable_simplified (h : provider.Registered reg)
    (hia : ∃ v, iaStrToInt provider.ia = .ok v) (hlength : provider.ia.toList.length ≤ 32)
    (hplain : IsPlainCsv profile) (salt : C.Salt) {data : Bytes}
    (hdata : offerSpecificationSerializeToBytes (provider.createSimplifiedOffer now profile) false =
      .ok data) :
    (provider.simplified now profile (C.signatureCreate provider.key salt data)).Sellable
      C reg := by
  obtain ⟨as, cert, has, hcert, hkey⟩ := h.account
  obtain ⟨hascii, hsigned⟩ := (serializeToBytes_createSimplifiedOffer h.ascii data).mp hdata
  refine ⟨valid_simplified hia hlength hplain _, ?_, (by decide : Float64.isFinite
    ⟨0x3E112E0BE826D695⟩ = true)⟩
  have hbytes := (serializeToBytes_simplified h.ascii now profile
    (C.signatureCreate provider.key salt data) data).mpr
    (by rw [stripped_of_isPlainCsv hplain]; exact ⟨hascii, hsigned⟩)
  have has : reg.getAs (provider.simplified now profile
      (C.signatureCreate provider.key salt data)).iaid = .ok as := has
  simp only [Offer.validateSignatureFromSeller, hbytes, has, hcert, bind, Except.bind]
  exact C.signatureValidate_eq_ok.mpr ((hkey salt data data).mpr rfl)

/-- A profile that stays the same text in the bytes of the offer has no space around it. -/
lemma strip_eq_of_text_eq {notbefore notafter : ℤ} {price : Float64} {template : String}
    (h : offerFieldsText provider.ia notbefore notafter "*" 0 price
        (OfferProtoSerializer.stripped profile) template 1500 "PARENT" =
      offerFieldsText provider.ia notbefore notafter "*" 0 price profile template 1500 "PARENT") :
    OfferProtoSerializer.stripped profile = profile := by
  unfold offerFieldsText at h
  have hlists := congrArg String.toList h
  simp only [String.toList_append, List.append_cancel_right_eq, List.append_cancel_left_eq]
    at hlists
  exact String.toList_inj.mp hlists

/-- To sell is to sign and to put up. -/
lemma sellOffer_eq_ok {salt : C.Salt} {amb : Ambient C} {specs : OfferSpecification} {s s' : Store}
    {m : OfferMessage} :
    provider.sellOffer reg salt amb specs s = (.ok m, s') ↔
      ∃ data, offerSpecificationSerializeToBytes specs false = .ok data ∧
        addOffer C reg amb { specs with signature := C.signatureCreate provider.key salt data } s =
          (.ok m, s') := by
  unfold sellOffer
  exact Tx.bind_liftM_eq_ok

/-- **Providers.**  After every run a registered provider sells the offer that
`create_simplified_offer` makes, with a profile and at a time, exactly when the profile is a plain
list of numbers and its periods are in the range of the calendar. -/
theorem run_sellOffer_iff {key : C.Key} (hkey : reg.getBrokerKey C = .ok key)
    (h : provider.Registered reg) (hia : ∃ v, iaStrToInt provider.ia = .ok v)
    (hlength : provider.ia.toList.length ≤ 32) (calls : List (Call C)) (salt : C.Salt)
    (amb : Ambient C) :
    (∃ m s', provider.sellOffer reg salt amb (provider.createSimplifiedOffer now profile)
      (run C reg calls).2 = (.ok m, s')) ↔ CanOffer now profile := by
  obtain ⟨cs, hexplains⟩ := exists_chains C reg calls
  have hrep := hexplains.represents
  constructor
  · rintro ⟨m, s', hsold⟩
    obtain ⟨data, hdata, hadd⟩ := sellOffer_eq_ok.mp hsold
    obtain ⟨o, hsave, ho⟩ := (hrep.addOffer_iff hkey amb).mp ⟨m, s', hadd⟩
    obtain ⟨hstart, hstop, -, -, ho'⟩ := (save_createSimplifiedOffer hia hlength _ _ _).mp hsave
    obtain ⟨hascii, hsigned⟩ := (serializeToBytes_createSimplifiedOffer h.ascii data).mp hdata
    -- the signature verifies over the bytes of the row, so the row has the text that was signed
    obtain ⟨as, cert, has, hcert, hpair⟩ := h.account
    have hverify := ho.signed
    have hrow : ∃ data', o.serializeToBytes false = .ok data' := by
      obtain ⟨cert', data', hdata', -⟩ := Offer.validateSignatureFromSeller_ok hverify
      exact ⟨data', hdata'⟩
    obtain ⟨data', hdata'⟩ := hrow
    have hoia : reg.getAs o.iaid = .ok as := by rw [ho']; exact has
    have hosig : o.signature = C.signatureCreate provider.key salt data := by rw [ho']; rfl
    simp only [Offer.validateSignatureFromSeller, hdata', hoia, hcert, hosig, bind, Except.bind,
      Crypto.signatureValidate_eq_ok] at hverify
    have hsame := (hpair salt data data').mp hverify
    rw [ho'] at hdata'
    obtain ⟨hascii', hrow⟩ := (serializeToBytes_simplified h.ascii now profile _ data').mp hdata'
    have htext := strip_eq_of_text_eq (label_injOn
      ((isAsciiText_simplified h.ascii now).mpr hascii')
      ((isAsciiText_simplified h.ascii now).mpr hascii) (hrow.symm.trans (hsame.trans hsigned)))
    have hlist := ho.valid.intList.2
    rw [ho'] at hlist
    change isIntList (OfferProtoSerializer.stripped profile) = true at hlist
    rw [htext] at hlist
    exact ⟨isPlainCsv_of_isIntList hlist hascii, hstart, hstop⟩
  · rintro ⟨hplain, hstart, hstop⟩
    obtain ⟨data, hdata⟩ : ∃ data, offerSpecificationSerializeToBytes
        (provider.createSimplifiedOffer now profile) false = .ok data :=
      ⟨_, (serializeToBytes_createSimplifiedOffer h.ascii _).mpr ⟨hplain.plain.1, rfl⟩⟩
    have hsave := (save_createSimplifiedOffer hia hlength now profile
      (C.signatureCreate provider.key salt data)).mpr
        ⟨hstart, hstop, by
          obtain ⟨-, hstrip, hnull⟩ := hplain.plain
          rw [hstrip]
          refine ⟨fun hnil => hplain.ne_empty (String.toList_inj.mp hnil), hnull, rfl⟩⟩
    obtain ⟨m, s', hadd⟩ := hrep.addOffer_eq_ok hkey hsave
      (sellable_simplified h hia hlength hplain salt hdata) amb
    exact ⟨m, s', sellOffer_eq_ok.mpr ⟨data, hdata, hadd⟩⟩

/-- A provider of the small market sells four periods. -/
theorem run_sellOffer_iff_offered :
    ∃ m s', MarketClient.sellOffer SmallMarket.registry ⟨"1-ff00:0:110", 's', 'k'⟩ (7 : UInt8)
      SmallMarket.amb (MarketClient.createSimplifiedOffer
        (⟨"1-ff00:0:110", 's', 'k'⟩ : MarketClient Crypto.transparent) 1000000 "2,2,2,2")
      (run Crypto.transparent SmallMarket.registry SmallMarket.offered).2 = (.ok m, s') := by
  have hregistered : (⟨"1-ff00:0:110", 's', 'k'⟩ : MarketClient Crypto.transparent).Registered
      SmallMarket.registry :=
    ⟨by decide, ⟨⟨"1-ff00:0:110", "s"⟩, 's', rfl, rfl, Crypto.transparent_pair 's'⟩, rfl⟩
  have hplain : IsPlainCsv "2,2,2,2" := isPlainCsv_of_isIntList (by decide) (by decide)
  have hia : iaStrToInt "1-ff00:0:110" = .ok 0x1ff0000000110 := by decide +kernel
  exact (run_sellOffer_iff SmallMarket.brokerKey hregistered ⟨_, hia⟩ (by decide)
    SmallMarket.offered _ _).mpr ⟨hplain, by decide +kernel, by decide +kernel⟩

end MarketClient

end Esdx
