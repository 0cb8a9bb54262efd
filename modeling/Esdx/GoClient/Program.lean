import Esdx.GoClient.Serialize
import Esdx.Market.Progress

/-!
# The program in Go

`go-client/main.go` starts a number of goroutines.  Each of them lists the offers, selects one as
its experiment says, and buys from it, over and over until a purchase succeeds.  Any error but that
of the purchase ends the whole process.

The program differs from the clients in Python in what can be set when it is started: with
`-equivalent` the market may sell from what is left of the selected offer, and with `-mutex` only
one goroutine runs at a time.
-/

namespace Esdx

open PythonText Table

namespace GoClient

/-! ## The program -/

/-- `Key.Sign`, without a value where it returns an error, and `Cert.VerifySignature`. -/
structure Rsa (C : Crypto) where
  sign : C.Key → C.Salt → Bytes → Option Bytes
  verifySignature : C.Cert → (data signature : Bytes) → Bool

/-- The values of `-experiment`. -/
inductive Experiment
  | firstOffer
  | randomOffer
  | gaussianOffer
  | justOnce
deriving DecidableEq

/-- How the process ends before its goroutines have returned. -/
inductive Crash
  | fatalf (format : String)
  | panic
deriving DecidableEq

/-- The program as it was started, with its key and the certificate of the broker. -/
structure Program (C : Crypto) where
  rsa : Rsa C
  formatFloat : Float64 → String
  experiment : Experiment
  useMutex : Bool
  allowEquivalent : Bool
  key : C.Key
  certBroker : C.Cert

/-- The offer that the experiment selects.  `draw` is what `rand` gives it; an index out of range
panics. -/
def Experiment.offerSelecter (experiment : Experiment) (draw : ℤ) (offers : List OfferMessage) :
    Option OfferMessage :=
  match experiment with
  | .firstOffer | .justOnce => offers[0]?
  | .randomOffer => offers[(draw % offers.length).toNat]?  -- rand.Intn(len(offers))
  | .gaussianOffer => if draw < 0 then none else offers[draw.toNat]?

namespace Program

variable {C : Crypto} (reg : Registry) (p : Program C)

/-- The request that `purchaseOffer` sends. -/
def purchaseRequest (salt : C.Salt) (offer : OfferMessage) : Except Crash PurchaseRequest :=
  let req : PurchaseRequest :=
    { offer
      buyerIaid := "1-ff00:0:111"
      startingOn := offer.specs.notbefore.getD {}
      bwProfile := "1"
      signature := [] }
  match serializePurchaseOrder p.formatFloat req with
  | none => .error .panic
  | some data =>
    match p.rsa.sign p.key salt data with
    | none => .error (.fatalf "cannot sign purchaser order: %v")
    | some signature => .ok { req with signature }

/-- What `purchaseOffer` does with the contract. -/
def checkContract (offer : OfferMessage) (contract : ContractMessage) : Except Crash Unit :=
  match serializeContract p.formatFloat contract offer.specs with
  | none => .error .panic
  | some data =>
    if p.rsa.verifySignature p.certBroker data contract.contractSignature then .ok ()
    else .error (.fatalf "contract signature: %v")

/-- `purchaseOffer`. -/
def purchaseOffer (salt : C.Salt) (amb : Ambient C) (offer : OfferMessage) (s : Store) :
    Except Crash (Except Exc ContractMessage) × Store :=
  match p.purchaseRequest salt offer with
  | .error crash => (.error crash, s)
  | .ok req =>
    match purchaseWith C reg amb req (offersGetter (!p.allowEquivalent) req) s with
    | (.error ex, s') => (.ok (.error ex), s')
    | (.ok contract, s') => ((p.checkContract offer contract).map fun _ => .ok contract, s')

end Program

/-- Where a goroutine is: before `m.Lock()`, before `listOffers`, before `purchaseOffer`, before its
deferred calls, or at its end.  `refused` counts the purchases that the market refused. -/
inductive Phase
  | waiting
  | listing (refused : ℕ)
  | buying (refused : ℕ) (offer : OfferMessage)
  | finishing (contract : Option ContractMessage)
  | returned (contract : Option ContractMessage)

/-- The next step of `buyOffer` or `experimentGetFirstResponse`. -/
def Program.step {C : Crypto} (reg : Registry) (p : Program C) (draw : ℤ) (salt : C.Salt)
    (amb : Ambient C) (s : Store) : Phase → Except Crash Phase × Store
  | .listing refused =>
    match listOffers s with
    | (.error _, s') => (.error (.fatalf "listing offers: %v"), s')
    | (.ok offers, s') =>
      match p.experiment.offerSelecter draw offers with
      | none => (.error .panic, s')
      | some offer => (.ok (.buying refused offer), s')
  | .buying refused offer =>
    match p.purchaseOffer reg salt amb offer s with
    | (.error crash, s') => (.error crash, s')
    | (.ok (.ok contract), s') => (.ok (.finishing (some contract)), s')
    | (.ok (.error _), s') =>
      (.ok (if p.experiment = .justOnce then .finishing none else .listing (refused + 1)), s')
  | phase => (.ok phase, s)

/-! ## Goroutines side by side -/

/-- The market with the process: its goroutines, which of them holds the mutex, and how the process
ended if it crashed. -/
structure State (ι : Type) where
  store : Store
  goroutines : ι → Phase
  mutex : Option ι
  crash : Option Crash

/-- Who acts next: one of the goroutines, or anybody else with a call of their own. -/
inductive Action (C : Crypto) (ι : Type)
  | goroutine (i : ι) (draw : ℤ) (salt : C.Salt) (amb : Ambient C)
  | other (call : Call C)

namespace Program

variable {C : Crypto} {ι : Type} [DecidableEq ι] (reg : Registry) (p : Program C)

/-- `runNClients`, or `runNClientsWithMutex` with `-mutex`. -/
def start (s : Store) : State ι where
  store := s
  goroutines := fun _ => if p.useMutex then .waiting else .listing 0
  mutex := none
  crash := none

/-- One action. -/
def act (st : State ι) : Action C ι → State ι
  | .other call => { st with store := (serve C reg call st.store).2 }
  | .goroutine i draw salt amb =>
    if st.crash.isSome then st
    else match st.goroutines i with
    | .waiting =>
      if st.mutex.isSome then st
      else { st with goroutines := Function.update st.goroutines i (.listing 0), mutex := some i }
    | .finishing contract =>
      { st with goroutines := Function.update st.goroutines i (.returned contract), mutex := none }
    | phase =>
      match p.step reg draw salt amb st.store phase with
      | (.error crash, s) => { st with store := s, crash := some crash }
      | (.ok phase', s) =>
        { st with store := s, goroutines := Function.update st.goroutines i phase' }

/-- Many actions, in their order. -/
def exec (st : State ι) (acts : List (Action C ι)) : State ι := acts.foldl (p.act reg) st

end Program

/-! ## What a goroutine sends and checks -/

section Purchase

variable {C : Crypto} {reg : Registry} {s : Store} {cs : List (Chain C reg)}

/-- The program can be used with the market: the buyer is registered with a certificate that accepts
the signatures of the key, the certificate of the broker accepts the broker's, and numbers are
formatted as in Python. -/
structure Program.Ready (reg : Registry) (p : Program C) (brokerKey : C.Key) : Prop where
  account : ∃ as cert, reg.getAs "1-ff00:0:111" = .ok as ∧
    C.loadCertificate as.certificatePem = .ok cert ∧ ∀ salt data, ∃ signature,
      p.rsa.sign p.key salt data = some signature ∧ C.verify cert signature data = true
  broker : ∀ salt data,
    p.rsa.verifySignature p.certBroker data (C.signatureCreate brokerKey salt data) = true
  price : ∀ x : Float64, x.isFinite = true → p.formatFloat x = String.ofList x.formatE

/-- The buyer, as the market knows it. -/
def Program.buyer (p : Program C) : MarketClient C := ⟨"1-ff00:0:111", p.key, p.certBroker⟩

/-- The client has the bytes of a sealed offer. -/
lemma Program.Ready.serializeOfferSpecification_eq {p : Program C} {brokerKey : C.Key}
    (h : p.Ready reg brokerKey) {o : Offer} (ho : Sealed C reg o) {m : OfferMessage}
    (hm : OfferProtoSerializer.message o = .ok m) {data : Bytes}
    (hdata : o.serializeToBytes true = .ok data) :
    serializeOfferSpecification p.formatFloat m.specs = some data :=
  GoClient.serializeOfferSpecification_eq h.price hm (ho.wholeSeconds hm).1 hdata

section Stocked

variable {ι : Type} {P : Finset ι} {p : Program C} {brokerKey : C.Key}

end Stocked

end Purchase

end GoClient

end Esdx
