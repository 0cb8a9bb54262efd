import Esdx.Util.Serialize

/-!
# Signatures

The functions of `util/crypto.py` call a library for RSA-PSS.  The library is a parameter: a
`Crypto` says how keys and certificates are loaded and how messages are signed and verified.
Signing is randomised, so it takes a salt.
-/

namespace Esdx

/-- The operations of the cryptographic library. -/
structure Crypto where
  Key : Type
  Cert : Type
  Salt : Type
  loadKey : String → Except Exc Key
  loadCertificate : String → Except Exc Cert
  sign : Key → Salt → Bytes → Bytes
  verify : Cert → Bytes → Bytes → Bool

namespace Crypto

variable (C : Crypto)

/-- `signature_create`. -/
def signatureCreate (key : C.Key) (salt : C.Salt) (data : Bytes) : Bytes := C.sign key salt data

/-- `signature_validate`. -/
def signatureValidate (cert : C.Cert) (signature data : Bytes) : Except Exc Unit :=
  if C.verify cert signature data then .ok () else .error (.valueError "invalid signature")

@[simp] lemma signatureValidate_eq_ok {cert : C.Cert} {signature data : Bytes} {u : Unit} :
    C.signatureValidate cert signature data = .ok u ↔ C.verify cert signature data = true := by
  unfold signatureValidate
  split <;> simp_all

/-- The certificate belongs to the key: what the key signs verifies on exactly the signed bytes. -/
def Pair (key : C.Key) (cert : C.Cert) : Prop :=
  ∀ salt data data', C.verify cert (C.sign key salt data) data' = true ↔ data' = data

/-- No signature verifies for two different byte strings, whatever the certificates. -/
def Binding : Prop :=
  ∀ cert cert' signature data data', C.verify cert signature data = true →
    C.verify cert' signature data' = true → data = data'

/-- A scheme in which the signature shows the key, the salt and the signed bytes.  It hides
nothing, but it verifies exactly what was signed. -/
def transparent : Crypto where
  Key := Char
  Cert := Char
  Salt := UInt8
  loadKey pem := match pem.toList with
    | [c] => .ok c
    | _ => .error (.valueError "this does not look like a DER or PEM private key")
  loadCertificate pem := match pem.toList with
    | [c] => .ok c
    | _ => .error (.valueError "this does not look like a DER or PEM certificate")
  sign key salt data := UInt8.ofNat key.toNat :: salt :: data
  verify cert signature data := match signature with
    | k :: _ :: data' => k == UInt8.ofNat cert.toNat && data' == data
    | _ => false

/-- In the transparent scheme every key belongs to itself as certificate. -/
lemma transparent_pair (key : Char) : transparent.Pair key key := by
  intro salt data data'
  change (UInt8.ofNat key.toNat == UInt8.ofNat key.toNat && data == data') = true ↔ data' = data
  rw [beq_self_eq_true, Bool.true_and, beq_iff_eq]
  exact eq_comm

/-- In the transparent scheme a signature binds the signed bytes. -/
lemma transparent_binding : transparent.Binding := by
  rintro cert cert' (_ | ⟨k, _ | ⟨salt, s⟩⟩) data data' h h'
  · simp [transparent] at h
  · simp [transparent] at h
  · simp only [transparent, Bool.and_eq_true, beq_iff_eq] at h h'
    exact h.2.symm.trans h'.2

end Crypto

end Esdx
