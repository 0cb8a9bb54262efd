import Esdx.Monitor.Packet

/-!
# The formats that the data path parses

Where the headers of a SCION packet over UDP start, and the fields of its path, as the formats say
it: numbers in network byte order, one index per hop field.  The parser of the data path finds
exactly these positions (`countedHop_eq_some`).
-/

namespace Esdx.Monitor

open ByteOrder

/-! ## Underlay -/

/-- The length of the IPv4 header behind the Ethernet header, in units of four bytes. -/
def ipv4Ihl (p : Packet) : ℕ := (byteAt p 14).toNat % 16

/-- The UDP header starts here: behind an Ethernet header and an IPv4 header with its options or
an IPv6 header. -/
inductive UdpAt (p : Packet) : ℕ → Prop
  | ipv4 (hproto : be16 p 12 = ETH_P_IP) (hihl : 5 ≤ ipv4Ihl p)
      (hudp : byteAt p 23 = IPPROTO_UDP) (hfits : 14 + 4 * ipv4Ihl p + 8 ≤ p.length) :
      UdpAt p (14 + 4 * ipv4Ihl p)
  | ipv6 (hproto : be16 p 12 = ETH_P_IPV6) (hudp : byteAt p 20 = IPPROTO_UDP)
      (hfits : 54 + 8 ≤ p.length) : UdpAt p 54

/-- The destination port of the UDP header. -/
def destPort (p : Packet) (udp : ℕ) : UInt16 := be16 p (udp + 2)

/-- A packet has one UDP header at most. -/
lemma UdpAt.unique {p : Packet} {udp udp' : ℕ} (h : UdpAt p udp) (h' : UdpAt p udp') :
    udp = udp' := by
  cases h with
  | ipv4 hproto =>
    cases h' with
    | ipv4 => rfl
    | ipv6 hproto' => exact absurd (hproto.symm.trans hproto') (by decide)
  | ipv6 hproto =>
    cases h' with
    | ipv4 hproto' => exact absurd (hproto.symm.trans hproto') (by decide)
    | ipv6 => rfl

/-- A swapped constant matches the field exactly when the field has the constant's value. -/
lemma le16_eq_bswap16 {p : Packet} {i : ℕ} {x : UInt16} : le16 p i = bswap16 x ↔ be16 p i = x := by
  rw [← bswap16_le16]
  exact ⟨fun h => by rw [h, bswap16_bswap16], fun h => by rw [← h, bswap16_bswap16]⟩

/-- The length of the IPv4 header is below sixteen units. -/
lemma ipv4Ihl_lt (p : Packet) : ipv4Ihl p < 16 := Nat.mod_lt _ (by decide)

/-- The length of the options, computed from the header length. -/
lemma ipOptions_eq (p : Packet) :
    ipOptions p 14 = (4 * ipv4Ihl p + (2 ^ 64 - 20)) % 2 ^ 64 := by
  have hand : (byteAt p 14 &&& 0x0f).toNat = ipv4Ihl p := by
    rw [UInt8.toNat_and]
    exact Nat.and_two_pow_sub_one_eq_mod _ 4
  rw [ipOptions, sizeofIphdr, hand]

/-- The options are what the header length exceeds the plain header by; a length below the plain
header wraps to a large number. -/
lemma ipOptions_le {p : Packet} :
    ipOptions p 14 ≤ 40 ↔ 5 ≤ ipv4Ihl p ∧ 20 + ipOptions p 14 = 4 * ipv4Ihl p := by
  have hlt := ipv4Ihl_lt p
  rw [ipOptions_eq]
  omega

/-- The UDP header is found when it fits. -/
lemma parseUdp_eq_some {p : Packet} {hdr hdr' : Headers} {data data' : ℕ} :
    parseUdp p hdr data = some (hdr', data') ↔
      data + 8 ≤ p.length ∧ hdr' = { hdr with udp := data } ∧ data' = data + 8 := by
  unfold parseUdp sizeofUdphdr
  dsimp only
  split
  · rename_i hlt
    exact iff_of_false (by simp) fun h => by omega
  · rename_i hle
    have hfits : data + 8 ≤ p.length := by omega
    simp only [Option.some.injEq, Prod.mk.injEq, hfits, true_and]
    exact and_congr eq_comm eq_comm

/-- **The underlay parser.**  It finds the UDP header and what comes behind it. -/
lemma parseUnderlay_eq_some {p : Packet} {udp data : ℕ} :
    (∃ hdr, parseUnderlay p {} 0 = some (hdr, data) ∧ hdr.udp = udp) ↔
      UdpAt p udp ∧ data = udp + 8 := by
  unfold parseUnderlay
  simp only [sizeofEthhdr, sizeofIphdr, sizeofIpv6hdr, Nat.zero_add, le16_eq_bswap16]
  constructor
  · rintro ⟨hdr, hparse, rfl⟩
    split at hparse
    · simp at hparse
    split at hparse
    · rename_i hproto
      split at hparse
      · simp at hparse
      split at hparse
      · simp at hparse
      split at hparse
      · simp at hparse
      rename_i hskip hudp
      obtain ⟨hihl, hlength⟩ := ipOptions_le.mp (not_lt.mp hskip)
      obtain ⟨hfits, rfl, rfl⟩ := parseUdp_eq_some.mp hparse
      have hstart : 14 + 20 + ipOptions p 14 = 14 + 4 * ipv4Ihl p := by omega
      rw [hstart] at hfits
      dsimp only
      rw [hstart]
      exact ⟨.ipv4 hproto hihl (not_not.mp hudp) hfits, rfl⟩
    split at hparse
    · rename_i hproto
      split at hparse
      · simp at hparse
      split at hparse
      · simp at hparse
      rename_i hudp
      obtain ⟨hfits, rfl, rfl⟩ := parseUdp_eq_some.mp hparse
      exact ⟨.ipv6 hproto (not_not.mp hudp) hfits, rfl⟩
    · simp at hparse
  · rintro ⟨hudpAt, rfl⟩
    cases hudpAt with
    | ipv4 hproto hihl hudp hfits =>
      have hlt := ipv4Ihl_lt p
      have hskip : ipOptions p 14 ≤ 40 := by
        rw [ipOptions_eq]
        omega
      obtain ⟨-, hlength⟩ := ipOptions_le.mp hskip
      have hstart : 14 + 20 + ipOptions p 14 = 14 + 4 * ipv4Ihl p := by omega
      rw [if_neg (by omega), if_pos hproto, if_neg (by omega), if_neg (by omega),
        if_neg (not_not.mpr hudp), hstart]
      exact ⟨_, parseUdp_eq_some.mpr ⟨hfits, rfl, rfl⟩, rfl⟩
    | ipv6 hproto hudp hfits =>
      have hnot : ¬be16 p 12 = ETH_P_IP := fun h => absurd (h.symm.trans hproto) (by decide)
      rw [if_neg (by omega), if_neg hnot, if_pos hproto, if_neg (by omega),
        if_neg (not_not.mpr hudp)]
      exact ⟨_, parseUdp_eq_some.mpr ⟨hfits, rfl, rfl⟩, rfl⟩

/-! ## Path -/

/-- The numbers of hop fields in the three segments. -/
def seg0Len (p : Packet) (path : ℕ) : ℕ := (be32 p path).toNat / 2 ^ 12 % 64

def seg1Len (p : Packet) (path : ℕ) : ℕ := (be32 p path).toNat / 2 ^ 6 % 64

def seg2Len (p : Packet) (path : ℕ) : ℕ := (be32 p path).toNat % 64

/-- The index of the current hop field. -/
def currHF (p : Packet) (path : ℕ) : ℕ := (be32 p path).toNat / 2 ^ 24 % 64

/-- The number of hop fields of the path. -/
def numHops (p : Packet) (path : ℕ) : ℕ := seg0Len p path + seg1Len p path + seg2Len p path

/-- The number of info fields: one for every segment in use. -/
def numInf (p : Packet) (path : ℕ) : ℕ :=
  (if 0 < seg0Len p path then 1 else 0) + (if 0 < seg1Len p path then 1 else 0) +
    (if 0 < seg2Len p path then 1 else 0)

/-- Where the hop field with this index starts. -/
def hopField (p : Packet) (path i : ℕ) : ℕ := path + 4 + 8 * numInf p path + 12 * i

/-- The ingress interface of the hop field with this index. -/
def ingress (p : Packet) (path i : ℕ) : UInt16 := be16 p (hopField p path i + 2)

/-- The egress interface of the hop field with this index. -/
def egress (p : Packet) (path i : ℕ) : UInt16 := be16 p (hopField p path i + 4)

/-- The header that starts at `scion` is a SCION header of version 0 whose standard path starts at
`path`: behind the common header, the two ISD-AS numbers and the two host addresses. -/
structure StandardPath (p : Packet) (scion path : ℕ) : Prop where
  version : (byteAt p scion).toNat / 16 = 0
  path_type : byteAt p (scion + 8) = SC_PATH_TYPE_SCION
  path_eq : path = scion + 12 + 16 + 4 * ((byteAt p (scion + 9)).toNat / 16 % 4 + 1) +
    4 * ((byteAt p (scion + 9)).toNat % 4 + 1)
  fits : path + 4 ≤ p.length

/-- A header has one standard path at most. -/
lemma StandardPath.unique {p : Packet} {scion path path' : ℕ} (h : StandardPath p scion path)
    (h' : StandardPath p scion path') : path = path' := by
  rw [h.path_eq, h'.path_eq]

/-- The low bits of a word. -/
lemma toNat_and_0x3f (x : UInt32) : (x &&& 0x3f).toNat = x.toNat % 64 := by
  rw [UInt32.toNat_and]
  exact Nat.and_two_pow_sub_one_eq_mod _ 6

/-- The macros read the fields of the meta header. -/
lemma toNat_pathGet {p : Packet} {path : ℕ} :
    (pathGetSeg0 (be32 p path)).toNat = seg0Len p path ∧
    (pathGetSeg1 (be32 p path)).toNat = seg1Len p path ∧
    (pathGetSeg2 (be32 p path)).toNat = seg2Len p path ∧
    (pathGetCurrHf (be32 p path)).toNat = currHF p path := by
  refine ⟨?_, ?_, ?_, ?_⟩
  all_goals
    simp only [pathGetSeg0, pathGetSeg1, pathGetSeg2, pathGetCurrHf, toNat_and_0x3f, seg0Len,
      seg1Len, seg2Len, currHF, UInt32.toNat_shiftRight, UInt32.reduceToNat,
      Nat.shiftRight_eq_div_pow, Nat.reduceMod]

/-- The tests for segments in use count the info fields. -/
lemma numInf_eq {p : Packet} {path : ℕ} :
    (if 0 < pathGetSeg0 (be32 p path) then 1 else 0) +
      (if 0 < pathGetSeg1 (be32 p path) then 1 else 0) +
      (if 0 < pathGetSeg2 (be32 p path) then 1 else 0) = numInf p path := by
  obtain ⟨h0, h1, h2, -⟩ := @toNat_pathGet p path
  simp only [UInt32.lt_iff_toNat_lt, UInt32.toNat_zero, h0, h1, h2, numInf]

/-- **The path parser.**  It finds the current hop field, when that fits into the packet, or the
place of the one before. -/
lemma parseScionPath_eq_some {p : Packet} {hdr hdr' : Headers} {path data : ℕ} {prevHf : Bool} :
    parseScionPath p hdr path prevHf = some (hdr', data) ↔
      path + 4 ≤ p.length ∧ hopField p path (currHF p path) + 12 ≤ p.length ∧
      hdr' = { hdr with hf := hopField p path (currHF p path) - if prevHf then 12 else 0 } ∧
      data = path + 4 := by
  have hfield : path + 4 + numInf p path * 8 + currHF p path * 12 =
      hopField p path (currHF p path) := by
    rw [hopField]
    omega
  unfold parseScionPath
  dsimp only
  rw [bswap32_le32, numInf_eq, toNat_pathGet.2.2.2, sizeofInfofield, sizeofHopfield, hfield]
  split
  · exact iff_of_false (by simp) fun h => by omega
  split
  · exact iff_of_false (by simp) fun h => by omega
  · have hmeta : path + 4 ≤ p.length := by omega
    have hfits : hopField p path (currHF p path) + 12 ≤ p.length := by omega
    simp only [Option.some.injEq, Prod.mk.injEq, hmeta, hfits, true_and]
    refine and_congr ?_ eq_comm
    cases prevHf <;> exact eq_comm

/-- The version is the high half of the first byte. -/
lemma scGetVer_eq_zero {p : Packet} {scion : ℕ} :
    scGetVer p scion = 0 ↔ (byteAt p scion).toNat / 16 = 0 := by
  have h0 := toNat_byteAt_lt p scion
  have h1 := toNat_byteAt_lt p (scion + 1)
  have h2 := (be16 p (scion + 2)).toNat_lt
  rw [scGetVer, bswap32_le32, ← UInt32.toNat_inj, UInt32.toNat_shiftRight, toNat_be32, toNat_be16]
  simp only [UInt32.reduceToNat, Nat.reduceMod, Nat.shiftRight_eq_div_pow, UInt32.toNat_zero]
  omega

/-- The two address lengths of the common header. -/
lemma toNat_scGet {p : Packet} {scion : ℕ} :
    (scGetDl p scion).toNat = (byteAt p (scion + 9)).toNat / 16 % 4 ∧
    (scGetSl p scion).toNat = (byteAt p (scion + 9)).toNat % 4 := by
  constructor
  · rw [scGetDl, UInt8.toNat_and, UInt8.toNat_shiftRight]
    simp only [UInt8.reduceToNat, Nat.reduceMod, Nat.shiftRight_eq_div_pow]
    exact Nat.and_two_pow_sub_one_eq_mod _ 2
  · rw [scGetSl, UInt8.toNat_and]
    exact Nat.and_two_pow_sub_one_eq_mod _ 2

/-- **The SCION parser.**  It finds the standard path and in it the current hop field or the place
of the one before. -/
lemma parseScion_eq_some {p : Packet} {hdr hdr' : Headers} {scion data : ℕ} {prevHf : Bool} :
    parseScion p hdr scion prevHf = some (hdr', data) ↔
      ∃ path, StandardPath p scion path ∧ hopField p path (currHF p path) + 12 ≤ p.length ∧
        hdr' = { hdr with
          scion := scion
          hf := hopField p path (currHF p path) - if prevHf then 12 else 0 } ∧
        data = path + 4 := by
  obtain ⟨hdl, hsl⟩ := @toNat_scGet p scion
  have hpath : scion + 28 + 8 + 4 * (scGetDl p scion).toNat + 4 * (scGetSl p scion).toNat =
      scion + 12 + 16 + 4 * ((byteAt p (scion + 9)).toNat / 16 % 4 + 1) +
        4 * ((byteAt p (scion + 9)).toNat % 4 + 1) := by
    omega
  unfold parseScion
  dsimp only
  rw [sizeofScionhdr, hpath]
  constructor
  · intro h
    split at h
    · simp at h
    split at h
    · simp at h
    split at h
    · simp at h
    split at h
    · rename_i hversion _ htype
      obtain ⟨hfits, hrest⟩ := parseScionPath_eq_some.mp h
      exact ⟨_, ⟨scGetVer_eq_zero.mp (not_not.mp hversion), htype, rfl, hfits⟩, hrest⟩
    · simp at h
  · rintro ⟨path, ⟨hversion, htype, rfl, hfits⟩, hrest⟩
    rw [if_neg (by omega), if_neg (not_not.mpr (scGetVer_eq_zero.mpr hversion)),
      if_neg (by omega), if_pos htype]
    exact parseScionPath_eq_some.mpr ⟨hfits, hrest⟩

/-- **What is counted.**  A packet is attributed to a hop exactly when it is UDP for one of the
SCION ports and has a standard SCION path whose current hop field fits into the packet. -/
theorem countedHop_eq_some {config : Config} {p : Packet} {prevHf : Bool} {key : UInt32} :
    countedHop config p prevHf = some key ↔
      ∃ udp path, UdpAt p udp ∧ isScionPort config (bswap16 (destPort p udp)) = true ∧
        StandardPath p (udp + 8) path ∧ hopField p path (currHF p path) + 12 ≤ p.length ∧
        key = hopKey p (hopField p path (currHF p path) - if prevHf then 12 else 0) := by
  unfold countedHop destPort
  simp only [bswap16_be16]
  constructor
  · intro h
    split at h
    · simp at h
    rename_i hdr data hunderlay
    obtain ⟨hudp, rfl⟩ := parseUnderlay_eq_some.mp ⟨hdr, hunderlay, rfl⟩
    split at h
    · rename_i hport
      split at h
      · simp at h
      rename_i hdr' _ hscion
      obtain ⟨path, hpath, hfits, rfl, -⟩ := parseScion_eq_some.mp hscion
      exact ⟨hdr.udp, path, hudp, hport, hpath, hfits, (Option.some.inj h).symm⟩
    · simp at h
  · rintro ⟨udp, path, hudp, hport, hpath, hfits, rfl⟩
    obtain ⟨hdr, hunderlay, rfl⟩ := parseUnderlay_eq_some.mpr ⟨hudp, rfl⟩
    have hscion : parseScion p hdr (hdr.udp + 8) prevHf = some (_, path + 4) :=
      parseScion_eq_some.mpr ⟨path, hpath, hfits, rfl, rfl⟩
    rw [hunderlay]
    dsimp only
    rw [udpDest, if_pos hport, hscion]

end Esdx.Monitor
