import Esdx.Foundations.BinaryFloat

/-!
# Messages

The messages of `proto/market.proto`.  A `Timestamp` that may be missing is an `Option`; where
the code only reads the fields of a missing timestamp, these are zero.
-/

namespace Esdx

/-- A byte string. -/
abbrev Bytes : Type := List UInt8

/-- A protobuf `Timestamp`. -/
structure Timestamp where
  seconds : ℤ := 0
  nanos : ℤ := 0
deriving DecidableEq

/-- `OfferSpecification`. -/
structure OfferSpecification where
  iaid : String
  notbefore : Option Timestamp
  notafter : Option Timestamp
  reachablePaths : String
  qosClass : ℤ
  pricePerUnit : Float64
  bwProfile : String
  brAddressTemplate : String
  brMtu : ℤ
  brLinkTo : String
  signature : Bytes
deriving DecidableEq

/-- `Offer`. -/
structure OfferMessage where
  id : ℤ
  specs : OfferSpecification
deriving DecidableEq

/-- `PurchaseRequest`. -/
structure PurchaseRequest where
  offer : OfferMessage
  buyerIaid : String
  bwProfile : String
  startingOn : Timestamp
  signature : Bytes
deriving DecidableEq

/-- `Contract`. -/
structure ContractMessage where
  contractId : ℤ
  contractTimestamp : Timestamp
  contractSignature : Bytes
  offer : OfferSpecification
  brAddress : String
  buyerIaid : String
  buyerStartingOn : Timestamp
  buyerBwProfile : String
  buyerSignature : Bytes
deriving DecidableEq

/-- `GetContractRequest`. -/
structure GetContractRequest where
  contractId : ℤ
  requesterIaid : String
  requesterSignature : Bytes
deriving DecidableEq

end Esdx
