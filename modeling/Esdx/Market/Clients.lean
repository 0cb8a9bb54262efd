import Esdx.Foundations.Retry
import Esdx.Market.Acceptance
import Esdx.Market.Ledger

/-!
# Clients of the market

`util/experiments.py` has the methods of a client, and `integration_test.py` and `experiment1.py` a
program that uses them: list the offers, buy the first one, and start again when somebody else was
faster.  The clients and the sellers run side by side, and the market serves their calls in any
order.

The program is an optimistic retry.  `client_simulates` maps its states to those of `Retry`: an
offer that a client has listed is fresh while it is available, and only the purchase of another
client makes it stale.
-/

namespace Esdx

open PythonText Table

/-! ## The methods -/

/-- `MarketClient`. -/
structure MarketClient (C : Crypto) where
  ia : String
  key : C.Key
  brokerCert : C.Cert

/-- The exception is the `grpc.RpcError` that a client sees when the market refuses its call. -/
def Exc.isRpcError : Exc → Bool
  | .marketServiceError _ | .marketServiceErrorFrom _ => true
  | _ => false

namespace MarketClient

variable {C : Crypto} (reg : Registry) (self : MarketClient C)

/-- `sell_offer`. -/
def sellOffer (salt : C.Salt) (amb : Ambient C) (offer : OfferSpecification) : Db OfferMessage := do
  let data ← offerSpecificationSerializeToBytes offer false
  addOffer C reg amb { offer with signature := C.signatureCreate self.key salt data }

/-- `create_simplified_offer`, at the time `now`. -/
def createSimplifiedOffer (now : ℤ) (bwProfile : String) : OfferSpecification :=
  let notbefore := pbTimestampFromTime now
  let periods := (bwProfile.toList.splitOn ',').length
  { iaid := self.ia
    notbefore := some notbefore
    notafter := some { seconds := notbefore.seconds + periods * 600 }
    reachablePaths := "*"
    qosClass := 0
    pricePerUnit := ⟨0x3E112E0BE826D695⟩
    bwProfile
    brAddressTemplate := "127.0.0.1:50000-55000"
    brMtu := 1500
    brLinkTo := "PARENT"
    signature := [] }

/-- `list`. -/
def list : Db (List OfferMessage) := listOffers

/-- The request of `buy_offer`. -/
def purchaseRequest (salt : C.Salt) (offer : OfferMessage) (bwProfile : String)
    (startingOn : ℤ) : Except Exc PurchaseRequest := do
  checkOffer C self.brokerCert offer
  let offerBytes ← offerSerializeToBytes offer true
  let request : PurchaseRequest :=
    { offer
      buyerIaid := self.ia
      signature := []
      bwProfile
      startingOn := pbTimestampFromTime startingOn }
  let data ← purchaseOrderFieldsSerializeToBytes offerBytes self.ia request.bwProfile
    request.startingOn.seconds
  return { request with signature := C.signatureCreate self.key salt data }

/-- `buy_offer`. -/
def buyOffer (salt : C.Salt) (amb : Ambient C) (offer : OfferMessage) (bwProfile : String)
    (startingOn : ℤ) : Db ContractMessage := do
  let request ← self.purchaseRequest salt offer bwProfile startingOn
  purchase C reg amb request

/-- `get_contract`. -/
def getContract (salt : C.Salt) (contractId : ℤ) : Db ContractMessage := do
  let data ← getContractRequestSerialize contractId self.ia none
  Esdx.getContract C reg
    { contractId
      requesterIaid := self.ia
      requesterSignature := C.signatureCreate self.key salt data }

end MarketClient

/-! ## The program -/

/-- The arguments of `client`, with the profile that it buys and the number of its attempts. -/
structure Client (C : Crypto) extends MarketClient C where
  bwProfile : String
  limit : ℕ

/-- Where `client` is: before `c.list()`, before `c.buy_offer(..)`, before `c.get_contract(..)`, or
at its end. -/
inductive Client.Phase
  | listing (attempt : ℕ)
  | buying (attempt : ℕ) (offers : List OfferMessage)
  | checking (contract : ContractMessage)
  | returned (code : ℕ)
  | raised (ex : Exc)
  | indexError

namespace Client

variable {C : Crypto} (reg : Registry) (c : Client C)

/-- Buy the first offer that was listed. -/
def buyFirst (salt : C.Salt) (amb : Ambient C) (offer : OfferMessage) : Db ContractMessage := do
  let startingOn ← timeFromPbTimestamp (offer.specs.notbefore.getD {})
  c.buyOffer reg salt amb offer c.bwProfile startingOn

/-- The next step of `client`, with the randomness of its signature. -/
def step (salt : C.Salt) (amb : Ambient C) (s : Store) : Phase → Phase × Store
  | .listing attempt =>
    if attempt < c.limit then
      match MarketClient.list s with
      | (.ok offers, s') => (.buying attempt offers, s')
      | (.error ex, s') => (.raised ex, s')
    else (.returned 1, s)  -- too many attempts
  | .buying attempt offers =>
    match offers with
    | [] => (.indexError, s)
    | offer :: _ =>
      match c.buyFirst reg salt amb offer s with
      | (.ok contract, s') => (.checking contract, s')
      | (.error ex, s') => (if ex.isRpcError then .listing (attempt + 1) else .raised ex, s')
  | .checking contract =>
    match c.getContract reg salt contract.contractId s with
    | (.ok contract', s') =>
      (if contract.contractSignature ≠ contract'.contractSignature then
        .raised (.runtimeError "contract from get_contract: signatures are different!")
      else .returned 0, s')
    | (.error ex, s') => (.raised ex, s')
  | phase => (phase, s)

end Client

/-! ## Clients side by side -/

/-- The market with its clients. -/
structure System (ι : Type) where
  store : Store
  phases : ι → Client.Phase

/-- Who acts next: one of the clients, or anybody else with a call of their own. -/
inductive System.Action (C : Crypto) (ι : Type)
  | client (i : ι) (salt : C.Salt) (amb : Ambient C)
  | other (call : Call C)

namespace System

variable {C : Crypto} (reg : Registry) {ι : Type} [DecidableEq ι] (clients : ι → Client C)

/-- One action. -/
def step (st : System ι) : Action C ι → System ι
  | .client i salt amb =>
    let next := (clients i).step reg salt amb st.store (st.phases i)
    ⟨next.2, Function.update st.phases i next.1⟩
  | .other call => ⟨(serve C reg call st.store).2, st.phases⟩

/-- Many actions, in their order. -/
def exec (st : System ι) (acts : List (Action C ι)) : System ι := acts.foldl (step reg clients) st

end System

/-! ## What the methods send -/

variable {C : Crypto} {reg : Registry} {s : Store} {cs : List (Chain C reg)}

/-- The client is registered with a certificate that belongs to its key, its texts can be encoded,
and it knows the broker's certificate. -/
structure MarketClient.Registered (reg : Registry) (client : MarketClient C) : Prop where
  ascii : isAsciiText client.ia = true
  account : ∃ as cert, reg.getAs client.ia = .ok as ∧
    C.loadCertificate as.certificatePem = .ok cert ∧ C.Pair client.key cert
  broker : reg.getBrokerCertificate C = .ok client.brokerCert

/-- The time of an offer can be read from its message as it is. -/
def Dated (o : Offer) : Prop :=
  timeFromPbTimestamp (OfferProtoSerializer.toTimestamp o.notbefore) = .ok o.notbefore

/-- The start of an offer does not lie on the first day of the year 1, which `fromtimestamp`
refuses. -/
def StartsLater (specs : OfferSpecification) : Prop :=
  ∀ ts ∈ specs.notbefore, datetimeMinSeconds + 86400 ≤ ts.seconds

/-- A whole second after the first day is read back from a message. -/
lemma timeFromPbTimestamp_toTimestamp {t : ℤ} (ht : 1000000 ∣ t)
    (hmin : (datetimeMinSeconds + 86400) * 1000000 ≤ t)
    (hmax : t < (datetimeMaxSeconds + 1) * 1000000) :
    timeFromPbTimestamp (OfferProtoSerializer.toTimestamp t) = .ok t := by
  obtain ⟨n, rfl⟩ := ht
  have hseconds : 1000000 * n / 1000000 = n := by omega
  have hnanos : 1000000 * n % 1000000 = 0 := by omega
  rw [OfferProtoSerializer.toTimestamp, hseconds, hnanos, zero_mul, timeFromPbTimestamp_seconds]
  omega

/-- The start of an accepted offer, after the first day of the calendar, is read back. -/
lemma OfferProtoSerializer.save_dated {specs : OfferSpecification} {o : Offer}
    (h : OfferProtoSerializer.save specs = .ok o) (hwhole : WholeSeconds specs)
    (hlater : StartsLater specs) : Dated o := by
  have hdate : ∀ {t : ℤ}, OfferProtoSerializer.dateOf specs.notbefore = .ok (some t) →
      (datetimeMinSeconds + 86400) * 1000000 ≤ t ∧ t < (datetimeMaxSeconds + 1) * 1000000 := by
    intro t hdate
    rcases hts : specs.notbefore with _ | ts
    · simp [hts, OfferProtoSerializer.dateOf] at hdate
    · have hnanos := hwhole.notbefore ts hts
      have hseconds := hlater ts hts
      rw [hts] at hdate
      unfold OfferProtoSerializer.dateOf OfferProtoSerializer.toDatetime at hdate
      dsimp only at hdate
      split at hdate
      · simp [bind, Except.bind] at hdate
      · simp only [bind, Except.bind, pure, Except.pure, Except.ok.injEq, Option.some.injEq]
          at hdate
        omega
  have hrange : (datetimeMinSeconds + 86400) * 1000000 ≤ o.notbefore ∧
      o.notbefore < (datetimeMaxSeconds + 1) * 1000000 := by
    have h' := h
    unfold OfferProtoSerializer.save at h'
    rcases hb : OfferProtoSerializer.dateOf specs.notbefore with e | nb
    · simp [hb, bind, Except.bind] at h'
    rcases ha : OfferProtoSerializer.dateOf specs.notafter with e | na
    · simp [hb, ha, bind, Except.bind] at h'
    simp only [hb, ha, bind, Except.bind] at h'
    split at h'
    · simp only [pure, Except.pure, Except.ok.injEq] at h'
      rw [← h']
      exact hdate hb
    · simp [throw, throwThe, MonadExceptOf.throw] at h'
  exact timeFromPbTimestamp_toTimestamp (OfferProtoSerializer.save_whole h hwhole).1 hrange.1
    hrange.2

/-- The message of a sealed offer is in whole seconds, and it has the start of the offer. -/
lemma Sealed.wholeSeconds {o : Offer} (h : Sealed C reg o) {m : OfferMessage}
    (hm : OfferProtoSerializer.message o = .ok m) :
    WholeSeconds m.specs ∧
      m.specs.notbefore = some (OfferProtoSerializer.toTimestamp o.notbefore) := by
  have hwhole := h.whole
  unfold OfferProtoSerializer.message at hm
  rw [if_pos h.finite, Except.ok.injEq] at hm
  subst hm
  have hnanos : ∀ {t : ℤ}, 1000000 ∣ t → (OfferProtoSerializer.toTimestamp t).nanos = 0 := by
    intro t ht
    change t % 1000000 * 1000 = 0
    omega
  refine ⟨⟨?_, ?_⟩, rfl⟩
  · rintro ts ⟨⟩
    exact hnanos hwhole.1
  · rintro ts ⟨⟩
    exact hnanos hwhole.2

/-- A registered client asks for a contract with a signed request. -/
lemma MarketClient.Registered.getContract_eq {client : MarketClient C} (h : client.Registered reg)
    (salt : C.Salt) (contractId : ℤ) :
    ∃ r : GetContractRequest, r.contractId = contractId ∧ r.requesterIaid = client.ia ∧
      r.IsSigned C reg ∧ client.getContract reg salt contractId = Esdx.getContract C reg r := by
  obtain ⟨as, cert, has, hcert, hkey⟩ := h.account
  obtain ⟨data, hdata⟩ : ∃ data, getContractRequestSerialize contractId client.ia none =
      .ok data := by
    have hid := encodeAscii_eq_ok.mpr ⟨(isAsciiText_toString contractId).1, rfl⟩
    have hia := encodeAscii_eq_ok.mpr ⟨h.ascii, rfl⟩
    exact ⟨_, by simp only [getContractRequestSerialize, hid, hia, bind, Except.bind]; rfl⟩
  have hsign : signGetContractRequest C salt client.key client.ia contractId =
      .ok (C.signatureCreate client.key salt data) :=
    congrArg (fun data? => data? >>= fun data => pure (C.signatureCreate client.key salt data))
      hdata
  refine ⟨⟨contractId, client.ia, C.signatureCreate client.key salt data⟩, rfl, rfl,
    GetContractRequest.isSigned_of_sign has hcert hkey hsign, ?_⟩
  unfold getContract
  rw [hdata]
  rfl

end Esdx
