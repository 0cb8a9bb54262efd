import Esdx.Util.Crypto
import Esdx.Util.IaGrammar

/-!
# Unambiguous signed bytes

The bytes of a purchase order and of a contract put a label before every field, and among the
fields are bytes that may hold the labels themselves: the offer, the order, the buyer's signature.
The bytes are read from the end: the fields that come last are printed values, and each of them
lacks some character of the label before it.
-/

namespace Esdx

open PythonText InetAddress

/-! ## Characters that a field lacks -/

/-- The bytes of an ASCII text hold the byte of an ASCII character only with the character. -/
lemma notMem_label {s : String} {c : Char} (hs : isAsciiText s = true) (hc : isAscii c)
    (h : c ∉ s.toList) : UInt8.ofNat c.toNat ∉ label s := by
  intro hmem
  obtain ⟨d, hd, hbyte⟩ := List.mem_map.mp hmem
  rw [eq_of_byte_eq (List.all_eq_true.mp hs d hd) hc hbyte] at hd
  exact h hd

/-- A text after a label is determined from the end by a character of the label that the text
lacks. -/
lemma append_label_bytes_inj {c : Char} {mark s t : String} {l l' : Bytes} (hc : isAscii c)
    (hmark : c ∈ mark.toList) (hs : isAsciiText s = true ∧ c ∉ s.toList)
    (ht : isAsciiText t = true ∧ c ∉ t.toList) :
    l ++ label mark ++ label s = l' ++ label mark ++ label t ↔ l = l' ∧ s = t := by
  have hbyte : UInt8.ofNat c.toNat ∈ label mark := List.mem_map_of_mem hmark
  rw [append_mark_inj hbyte (notMem_label hs.1 hc hs.2) (notMem_label ht.1 hc ht.2)]
  exact and_congr_right fun _ => ⟨label_injOn hs.1 ht.1, fun h => by rw [h]⟩

/-- A printed integer is ASCII and has no colon. -/
lemma isAsciiText_toString (z : ℤ) :
    isAsciiText (toString z) = true ∧ ':' ∉ (toString z).toList := by
  refine ⟨List.all_eq_true.mpr fun c hc => ?_, (notMem_toString_port z).1⟩
  rcases isDigit_or_eq_minus_of_mem_toString hc with h | rfl
  · exact isAscii_of_isDigit h
  · decide

/-- The parts of an integer list have no colon. -/
lemma colon_notMem_of_toIntList {ss : List (List Char)} {l : List ℤ} (h : toIntList ss = .ok l) :
    ∀ s ∈ ss, ':' ∉ s := by
  induction ss generalizing l with
  | nil => simp
  | cons s ss ih =>
    rw [toIntList] at h
    rcases hz : toInt 10 s with e | z
    · simp [hz, bind, Except.bind] at h
    rcases hzs : toIntList ss with e | zs
    · simp [hz, hzs, bind, Except.bind] at h
    intro t ht
    rcases List.mem_cons.mp ht with rfl | ht
    · exact notMem_of_pyInt (toInt_eq_ok.mp hz) (by decide) (by decide) (by decide) (by decide)
    · exact ih hzs t ht

/-- An integer list has no colon. -/
lemma colon_notMem_of_csvToIntlist {csv : String} {l : List ℤ} (h : csvToIntlist csv = .ok l) :
    ':' ∉ csv.toList := by
  intro hmem
  rw [← @List.intercalate_splitOn _ csv.toList _ _ ','] at hmem
  rcases mem_intercalate hmem with hc | ⟨part, hpart, hc⟩
  · exact absurd hc (by decide)
  · exact colon_notMem_of_toIntList h part hpart hc

/-- A hexadecimal digit is ASCII and not the letter s. -/
lemma isAscii_of_isHexDigit {c : Char} (h : isHexDigit c) : isAscii c ∧ c ≠ 's' := by
  refine ⟨?_, by rintro rfl; exact absurd h (by decide)⟩
  by_contra hascii
  simp only [isAscii, decide_eq_true_eq, not_lt] at hascii
  have hnot : ∀ a b : Char, b.toNat < 128 → ¬(a ≤ c ∧ c ≤ b) := by
    rintro a b hb ⟨-, hle⟩
    have : c.toNat ≤ b.toNat := hle
    omega
  have hnone : digitValue 16 c = none := by
    unfold digitValue
    rw [if_neg (hnot _ _ (by decide)), if_neg (hnot _ _ (by decide)),
      if_neg (hnot _ _ (by decide))]
    rfl
  simp [isHexDigit, hnone] at h

/-- An address without a zone. -/
def Zoneless : IPAddress → Prop
  | .v4 _ => True
  | .v6 a => a.zone = none

/-- An address without a zone is printed in ASCII characters other than the letter s. -/
lemma mem_bracketed {ip : IPAddress} (h : Zoneless ip) {c : Char} (hc : c ∈ bracketed ip) :
    isAscii c ∧ c ≠ 's' := by
  cases ip with
  | v4 a =>
    rcases digit_or_dot_of_parseIPv4 (parseIPv4_text a) hc with rfl | hdigit
    · decide
    · exact ⟨isAscii_of_isDigit hdigit, by rintro rfl; exact absurd hdigit (by decide)⟩
  | v6 a =>
    have htext : a.text = [':'].intercalate (compressHextets a.hextets) := by
      rw [IPv6Address.text, show a.zone = none from h, List.append_nil]
    rw [bracketed, htext] at hc
    rcases List.mem_append.mp hc with hc | hc
    · rcases List.mem_cons.mp hc with rfl | hc
      · decide
      · rcases mem_intercalate_compressHextets hc with rfl | hdigit
        · decide
        · exact isAscii_of_isHexDigit hdigit
    · rw [List.mem_singleton.mp hc]
      decide

/-- A printed address with a port is ASCII and lacks the letter s. -/
lemma isAsciiText_ipPortToStr {ip : IPAddress} (h : Zoneless ip) (port : ℤ) :
    isAsciiText (ipPortToStr ip port) = true ∧ 's' ∉ (ipPortToStr ip port).toList := by
  have hall : ∀ c ∈ (ipPortToStr ip port).toList, isAscii c ∧ c ≠ 's' := by
    intro c hc
    rw [ipPortToStr, String.toList_ofList] at hc
    rcases List.mem_append.mp hc with hc | hc
    · exact mem_bracketed h hc
    · rcases List.mem_cons.mp hc with rfl | hc
      · decide
      · rcases isDigit_or_eq_minus_of_mem_toString hc with hdigit | rfl
        · exact ⟨isAscii_of_isDigit hdigit, by rintro rfl; exact absurd hdigit (by decide)⟩
        · decide
  exact ⟨List.all_eq_true.mpr fun c hc => (hall c hc).1, fun hs => (hall 's' hs).2 rfl⟩

/-! ## Purchase orders -/

/-- The arguments of `purchase_order_fields_serialize_to_bytes`, with the texts that the parsers of
the fields accept. -/
structure PurchaseOrderFields where
  offerBytes : Bytes
  iaId : String
  bwProfile : String
  startingOn : ℤ
  ascii_iaId : isAsciiText iaId = true
  ascii_bwProfile : isAsciiText bwProfile = true
  iaId_accepted : ∃ ia, iaStrToInt iaId = .ok ia
  bwProfile_accepted : ∃ l, csvToIntlist bwProfile = .ok l

namespace PurchaseOrderFields

/-- The bytes that the buyer signs. -/
def bytes (f : PurchaseOrderFields) : Except Exc Bytes :=
  purchaseOrderFieldsSerializeToBytes f.offerBytes f.iaId f.bwProfile f.startingOn

/-- The bytes of the fields, with their labels. -/
lemma bytes_eq (f : PurchaseOrderFields) :
    f.bytes = .ok (label "offer:" ++ f.offerBytes ++ label "bw_profile:" ++ label f.bwProfile ++
      label "buyer:" ++ label f.iaId ++ label "starting_on:" ++ label (toString f.startingOn)) :=
  purchaseOrderFieldsSerializeToBytes_eq_ok.mpr ⟨_, _, _, encodeAscii_eq_ok.mpr
    ⟨f.ascii_bwProfile, rfl⟩, encodeAscii_eq_ok.mpr ⟨f.ascii_iaId, rfl⟩,
    encodeAscii_eq_ok.mpr ⟨(isAsciiText_toString _).1, rfl⟩, rfl⟩

/-- **Purchase orders are unambiguous.**  Their bytes determine the four fields. -/
lemma bytes_inj {f g : PurchaseOrderFields} (h : f.bytes = g.bytes) : f = g := by
  rw [bytes_eq, bytes_eq, Except.ok.injEq] at h
  have hia : ∀ f : PurchaseOrderFields, 'r' ∉ f.iaId.toList := fun f =>
    f.iaId_accepted.elim fun _ => r_notMem_of_iaStrToInt
  have hprofile : ∀ f : PurchaseOrderFields, ':' ∉ f.bwProfile.toList := fun f =>
    f.bwProfile_accepted.elim fun _ => colon_notMem_of_csvToIntlist
  rw [append_label_bytes_inj (c := ':') (by decide) (by decide) (isAsciiText_toString _)
      (isAsciiText_toString _),
    append_label_bytes_inj (c := 'r') (by decide) (by decide) ⟨f.ascii_iaId, hia f⟩
      ⟨g.ascii_iaId, hia g⟩,
    append_label_bytes_inj (c := ':') (by decide) (by decide) ⟨f.ascii_bwProfile, hprofile f⟩
      ⟨g.ascii_bwProfile, hprofile g⟩, List.append_right_inj, toString_inj] at h
  obtain ⟨⟨⟨hoffer, hbw⟩, hid⟩, hstart⟩ := h
  cases f
  cases g
  simp_all

end PurchaseOrderFields

/-! ## Contracts -/

/-- The arguments of `contract_fields_serialize_to_bytes`, with a signature of `n` bytes and a
printed address. -/
structure ContractFields (n : ℕ) where
  purchaseOrderBytes : Bytes
  buyerSignature : Bytes
  timestamp : ℤ
  brAddress : String
  length_buyerSignature : buyerSignature.length = n
  brAddress_printed : ∃ ip port, Zoneless ip ∧ brAddress = ipPortToStr ip port

namespace ContractFields

variable {n : ℕ}

/-- The bytes that the broker signs. -/
def bytes (f : ContractFields n) : Except Exc Bytes :=
  contractFieldsSerializeToBytes f.purchaseOrderBytes f.buyerSignature f.timestamp f.brAddress

/-- The address is ASCII and lacks the letter s. -/
lemma brAddress_ascii (f : ContractFields n) :
    isAsciiText f.brAddress = true ∧ 's' ∉ f.brAddress.toList := by
  obtain ⟨ip, port, hzone, haddress⟩ := f.brAddress_printed
  rw [haddress]
  exact isAsciiText_ipPortToStr hzone port

/-- The bytes of the fields, with their labels. -/
lemma bytes_eq (f : ContractFields n) :
    f.bytes = .ok (label "order:" ++ f.purchaseOrderBytes ++ label "signature_buyer:" ++
      f.buyerSignature ++ label "timestamp:" ++ label (toString f.timestamp) ++
      label "br_address:" ++ label f.brAddress) :=
  contractFieldsSerializeToBytes_eq_ok.mpr ⟨_, _, encodeAscii_eq_ok.mpr
    ⟨(isAsciiText_toString _).1, rfl⟩, encodeAscii_eq_ok.mpr ⟨f.brAddress_ascii.1, rfl⟩, rfl⟩

/-- **Contracts are unambiguous.**  Their bytes determine the four fields. -/
lemma bytes_inj {f g : ContractFields n} (h : f.bytes = g.bytes) : f = g := by
  rw [bytes_eq, bytes_eq, Except.ok.injEq,
    append_label_bytes_inj (c := 's') (by decide) (by decide) f.brAddress_ascii g.brAddress_ascii,
    append_label_bytes_inj (c := ':') (by decide) (by decide) (isAsciiText_toString _)
      (isAsciiText_toString _), toString_inj] at h
  obtain ⟨⟨hrest, htime⟩, haddress⟩ := h
  -- the signatures have the same length
  obtain ⟨horder, hsignature⟩ := List.append_inj' hrest
    (f.length_buyerSignature.trans g.length_buyerSignature.symm)
  rw [List.append_left_inj, List.append_right_inj] at horder
  cases f
  cases g
  simp_all

end ContractFields

/-- **Unambiguous bytes.**  The bytes of a purchase order and those of a contract determine all
four fields, so no signature verifies for two different orders or for two different contracts. -/
theorem signedBytes_unambiguous :
    Function.Injective PurchaseOrderFields.bytes ∧
    (∀ n, Function.Injective (ContractFields.bytes (n := n))) ∧
    ∀ C : Crypto, C.Binding → ∀ (cert cert' : C.Cert) (signature data data' : Bytes),
      C.verify cert signature data = true → C.verify cert' signature data' = true →
      (∀ f g : PurchaseOrderFields, f.bytes = .ok data → g.bytes = .ok data' → f = g) ∧
      ∀ n, ∀ f g : ContractFields n, f.bytes = .ok data → g.bytes = .ok data' → f = g := by
  refine ⟨fun f g => PurchaseOrderFields.bytes_inj, fun n f g => ContractFields.bytes_inj, ?_⟩
  intro C hbinding cert cert' signature data data' hverify hverify'
  obtain rfl := hbinding cert cert' signature data data' hverify hverify'
  exact ⟨fun f g hf hg => PurchaseOrderFields.bytes_inj (hf.trans hg.symm),
    fun n f g hf hg => ContractFields.bytes_inj (hf.trans hg.symm)⟩

/-! ## Messages that hold each other -/

namespace SmallMessage

/-- The buyer of the orders is ASCII. -/
lemma isAsciiText_iaId : isAsciiText "1-ff00:0:111" = true := by decide

/-- The profile of the orders is ASCII. -/
lemma isAsciiText_bwProfile : isAsciiText "2,1" = true := by decide

/-- The buyer of the orders is read. -/
lemma iaId_accepted : ∃ ia, iaStrToInt "1-ff00:0:111" = .ok ia := ⟨_, rfl⟩

/-- The profile of the orders is read. -/
lemma bwProfile_accepted : ∃ l, csvToIntlist "2,1" = .ok l := ⟨[2, 1], by decide +kernel⟩

/-- An order for an offer. -/
def order (offerBytes : Bytes) : PurchaseOrderFields :=
  ⟨offerBytes, "1-ff00:0:111", "2,1", 600, isAsciiText_iaId, isAsciiText_bwProfile, iaId_accepted,
    bwProfile_accepted⟩

/-- The order for a one-letter offer, and the order for an offer that ends like the first order. -/
lemma order_ne : order (label "o") ≠
    order (label "obw_profile:2,1buyer:1-ff00:0:111starting_on:600") := by
  intro h
  have hbytes := congrArg PurchaseOrderFields.offerBytes h
  have hlength := congrArg List.length hbytes
  simp [order, label] at hlength

/-- The address of the contracts is printed. -/
lemma brAddress_printed : ∃ ip port, Zoneless ip ∧ "127.0.0.1:50" = ipPortToStr ip port :=
  ⟨.v4 ⟨[127, 0, 0, 1], rfl, by decide⟩, 50, trivial, by decide +kernel⟩

/-- The signature of the contracts has two bytes. -/
lemma length_signature : (label "ab").length = 2 := rfl

/-- A contract over an order, with a signature of two bytes. -/
def contract (purchaseOrderBytes : Bytes) : ContractFields 2 :=
  ⟨purchaseOrderBytes, label "ab", 600, "127.0.0.1:50", length_signature, brAddress_printed⟩

/-- The contract over a one-letter order, and the contract over an order that goes on like the first
contract. -/
lemma contract_ne : contract (label "o") ≠ contract (label "osignature_buyer:ab") := by
  intro h
  have hbytes := congrArg ContractFields.purchaseOrderBytes h
  have hlength := congrArg List.length hbytes
  simp [contract, label] at hlength

end SmallMessage

open SmallMessage in
/-- Messages that hold the labels of other fields have bytes of their own, and no signature covers
two of them. -/
theorem signedBytes_unambiguous_nested :
    (order (label "o")).bytes ≠
      (order (label "obw_profile:2,1buyer:1-ff00:0:111starting_on:600")).bytes ∧
    (contract (label "o")).bytes ≠ (contract (label "osignature_buyer:ab")).bytes ∧
    (∃ data data', (order (label "o")).bytes = .ok data ∧
      (order (label "obw_profile:2,1buyer:1-ff00:0:111starting_on:600")).bytes = .ok data' ∧
      Crypto.transparent.verify 'b' (Crypto.transparent.sign 'b' (8 : UInt8) data) data = true ∧
      Crypto.transparent.verify 'b' (Crypto.transparent.sign 'b' (8 : UInt8) data) data' = false) ∧
    ∃ data data', (contract (label "o")).bytes = .ok data ∧
      (contract (label "osignature_buyer:ab")).bytes = .ok data' ∧
      Crypto.transparent.verify 'k' (Crypto.transparent.sign 'k' (8 : UInt8) data) data = true ∧
      Crypto.transparent.verify 'k' (Crypto.transparent.sign 'k' (8 : UInt8) data) data' =
        false := by
  obtain ⟨horders, hcontracts, hcovers⟩ := signedBytes_unambiguous
  have hverify : ∀ key salt data, Crypto.transparent.verify key
      (Crypto.transparent.sign key salt data) data = true := fun key salt data =>
    (Crypto.transparent_pair key salt data data).mpr rfl
  refine ⟨horders.ne order_ne, (hcontracts 2).ne contract_ne,
    ⟨_, _, PurchaseOrderFields.bytes_eq _, PurchaseOrderFields.bytes_eq _, hverify _ _ _, ?_⟩,
    ⟨_, _, ContractFields.bytes_eq _, ContractFields.bytes_eq _, hverify _ _ _, ?_⟩⟩
  · refine Bool.eq_false_iff.mpr fun h => order_ne ?_
    exact (hcovers _ Crypto.transparent_binding _ _ _ _ _ (hverify _ _ _) h).1 _ _
      (PurchaseOrderFields.bytes_eq _) (PurchaseOrderFields.bytes_eq _)
  · refine Bool.eq_false_iff.mpr fun h => contract_ne ?_
    exact (hcovers _ Crypto.transparent_binding _ _ _ _ _ (hverify _ _ _) h).2 2 _ _
      (ContractFields.bytes_eq _) (ContractFields.bytes_eq _)

end Esdx
