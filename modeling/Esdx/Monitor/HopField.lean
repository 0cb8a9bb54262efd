import Esdx.Monitor.Counter

/-!
# Which hop fields are counted

The data path computes the place of the current hop field from the fields of the packet, checks
that this place lies inside the packet, and then steps back by one hop field if it is to count the
previous one.  The length of the path, the sum of its three segment lengths, is not part of any
check.
-/

namespace Esdx.Monitor

open ByteOrder

/-- The key stands for the interface ids of the hop field with index `h` of the packet's standard
path: the current one, or the one before, and one that the path has. -/
def RealHop (p : Packet) (prevHf : Bool) (key : UInt32) : Prop :=
  ∃ udp path h, UdpAt p udp ∧ StandardPath p (udp + 8) path ∧
    (if prevHf then h + 1 else h) = currHF p path ∧ h < numHops p path ∧
    hopField p path h + 12 ≤ p.length ∧ hopOfKey key = ⟨ingress p path h, egress p path h⟩

/-- `count` touches only counters of real hop fields. -/
def OnlyRealHops (config : Config) (p : Packet) (prevHf : Bool) : Prop :=
  ∀ counters key, (count config p prevHf counters).1 key ≠ counters key → RealHop p prevHf key

/-- The path has a hop field with the index that is to be counted. -/
def IndexInPath (p : Packet) (path : ℕ) (prevHf : Bool) : Prop :=
  if prevHf then 1 ≤ currHF p path ∧ currHF p path ≤ numHops p path
  else currHF p path < numHops p path

/-- The hop field with an index of the path, if the path has it. -/
lemma indexInPath_iff {p : Packet} {path : ℕ} {prevHf : Bool} :
    IndexInPath p path prevHf ↔
      ∃ h, (if prevHf then h + 1 else h) = currHF p path ∧ h < numHops p path := by
  unfold IndexInPath
  cases prevHf
  · simp
  · constructor
    · rintro ⟨hpos, hle⟩
      exact ⟨currHF p path - 1, by simp; omega, by omega⟩
    · rintro ⟨h, hcurr, hlt⟩
      simp only [if_true] at hcurr ⊢
      omega

/-- Stepping back from the current hop field leads to the hop field of the index. -/
lemma hopField_step {p : Packet} {path h : ℕ} {prevHf : Bool}
    (hcurr : (if prevHf then h + 1 else h) = currHF p path) :
    hopField p path (currHF p path) - (if prevHf then 12 else 0) = hopField p path h := by
  rw [← hcurr]
  cases prevHf
  · rfl
  · simp only [if_true, hopField]
    omega

/-- The key at a hop field is decoded to its interface ids. -/
lemma hopOfKey_hopKey (p : Packet) (path h : ℕ) :
    hopOfKey (hopKey p (hopField p path h)) = ⟨ingress p path h, egress p path h⟩ := by
  rw [← toMapKey_be16, hopOfKey_toMapKey]
  rfl

/-- The counters that a packet touches belong to real hop fields exactly when the packet is not
counted or the index of the hop field lies in the path. -/
lemma onlyRealHops_iff_index {config : Config} {p : Packet} {prevHf : Bool} :
    OnlyRealHops config p prevHf ↔
      ∀ udp path, UdpAt p udp → isScionPort config (bswap16 (destPort p udp)) = true →
        StandardPath p (udp + 8) path → hopField p path (currHF p path) + 12 ≤ p.length →
        IndexInPath p path prevHf := by
  unfold OnlyRealHops
  simp only [count_ne_iff, forall_const]
  constructor
  · intro hreal udp path hudp hport hpath hfits
    obtain ⟨udp', path', h, hudp', hpath', hcurr, hlt, -⟩ :=
      hreal _ (countedHop_eq_some.mpr ⟨udp, path, hudp, hport, hpath, hfits, rfl⟩)
    obtain rfl := hudp.unique hudp'
    obtain rfl := hpath.unique hpath'
    exact indexInPath_iff.mpr ⟨h, hcurr, hlt⟩
  · intro hindex key hcounted
    obtain ⟨udp, path, hudp, hport, hpath, hfits, rfl⟩ := countedHop_eq_some.mp hcounted
    obtain ⟨h, hcurr, hlt⟩ := indexInPath_iff.mp (hindex udp path hudp hport hpath hfits)
    rw [hopField_step hcurr]
    have hle : hopField p path h ≤ hopField p path (currHF p path) := by
      rw [← hopField_step hcurr]
      exact Nat.sub_le ..
    exact ⟨udp, path, h, hudp, hpath, hcurr, hlt, by omega, hopOfKey_hopKey p path h⟩

/-- **Only real hop fields.**  The counters that a packet touches belong to real hop fields exactly
when the packet is not counted or the index of the hop field lies in the path.  Whether it is
forwarded does not depend on the packet. -/
theorem onlyRealHops_iff (config : Config) (p : Packet) (prevHf : Bool) :
    (OnlyRealHops config p prevHf ↔
      ∀ udp path, UdpAt p udp → isScionPort config (bswap16 (destPort p udp)) = true →
        StandardPath p (udp + 8) path → hopField p path (currHF p path) + 12 ≤ p.length →
        IndexInPath p path prevHf) ∧
    ∀ maps ifindex p', (esdxMonitor maps ifindex p).1 = (esdxMonitor maps ifindex p').1 := by
  refine ⟨onlyRealHops_iff_index, fun maps ifindex p' => ?_⟩
  unfold esdxMonitor
  rcases maps.configMap.lookup 0 with _ | config
  · rfl
  rcases maps.portMap.lookup ifindex with _ | port
  · rfl
  · rfl

/-! ## A frame with a SCION path -/

/-- The bytes of a meta header: the current hop field and the three segment lengths. -/
def metaBytes (curr seg0 seg1 seg2 : ℕ) : List UInt8 :=
  let v := curr * 2 ^ 24 + seg0 * 2 ^ 12 + seg1 * 2 ^ 6 + seg2
  [UInt8.ofNat (v / 2 ^ 24), UInt8.ofNat (v / 2 ^ 16), UInt8.ofNat (v / 2 ^ 8), UInt8.ofNat v]

/-- The bytes of a hop field with these interface ids. -/
def hopFieldBytes (ingress egress : UInt16) : List UInt8 :=
  [0, 63, (ingress / 256).toUInt8, ingress.toUInt8, (egress / 256).toUInt8, egress.toUInt8] ++
    List.replicate 6 0

/-- A frame with IPv6, UDP for port 30042, a SCION header with host addresses of four bytes, and
this path. -/
def scionFrame (path : List UInt8) : Packet :=
  List.replicate 12 0 ++ [0x86, 0xdd, 0x60] ++ List.replicate 5 0 ++ [17] ++
    List.replicate 35 0 ++ [0x75, 0x5a] ++ List.replicate 4 0 ++
    List.replicate 8 0 ++ [1] ++ List.replicate 27 0 ++ path

/-- The UDP header of the frame. -/
lemma udpAt_scionFrame (path : List UInt8) : UdpAt (scionFrame path) 54 := by
  have hhi : byteAt (scionFrame path) 12 = 0x86 := rfl
  have hlo : byteAt (scionFrame path) (12 + 1) = 0xdd := rfl
  have hproto : be16 (scionFrame path) 12 = ETH_P_IPV6 := by
    rw [be16, hhi, hlo]
    decide
  exact .ipv6 hproto rfl (by simp [scionFrame])

/-- The path of the frame. -/
lemma standardPath_scionFrame {path : List UInt8} (h : 4 ≤ path.length) :
    StandardPath (scionFrame path) 62 98 := by
  have hversion : byteAt (scionFrame path) 62 = 0 := rfl
  have hlengths : byteAt (scionFrame path) (62 + 9) = 0 := rfl
  refine ⟨by rw [hversion]; decide, rfl, ?_, ?_⟩
  · rw [hlengths]
    decide
  · simp [scionFrame]
    omega

/-- A frame on a path of two hop fields, the first with these interface ids, and one of them
current. -/
def hopFrame (curr : ℕ) (hop : Hop) : Packet :=
  scionFrame (metaBytes curr 2 0 0 ++ List.replicate 8 7 ++
    hopFieldBytes hop.ingress hop.egress ++ hopFieldBytes 2 0)

/-- The path of the frame. -/
lemma standardPath_hopFrame (curr : ℕ) (hop : Hop) :
    StandardPath (hopFrame curr hop) (54 + 8) 98 :=
  standardPath_scionFrame (by simp [metaBytes])

/-- The frame is counted for its first hop. -/
lemma countedHop_hopFrame {config : Config} (hport : isScionPort config 0x5a75 = true) (hop : Hop) :
    countedHop config (hopFrame 0 hop) false = some hop.toMapKey := by
  have hdest : destPort (hopFrame 0 hop) 54 = 0x755a := be16_eq rfl rfl
  have hmeta : (be32 (hopFrame 0 hop) 98).toNat = 0x2000 := by
    have hzero : be16 (hopFrame 0 hop) 98 = 0 := be16_eq rfl rfl
    have hseg : be16 (hopFrame 0 hop) (98 + 2) = 0x2000 := be16_eq rfl rfl
    rw [toNat_be32, hzero, hseg]
    decide
  have hfield : hopField (hopFrame 0 hop) 98 (currHF (hopFrame 0 hop) 98) = 110 := by
    simp only [hopField, numInf, seg0Len, seg1Len, seg2Len, currHF, hmeta]
    decide
  have hingress : be16 (hopFrame 0 hop) (110 + 2) = hop.ingress := be16_eq rfl rfl
  have hegress : be16 (hopFrame 0 hop) (110 + 4) = hop.egress := be16_eq rfl rfl
  refine countedHop_eq_some.mpr ⟨54, 98, udpAt_scionFrame _, ?_, standardPath_hopFrame .., ?_, ?_⟩
  · rw [hdest]
    exact hport
  · rw [hfield]
    simp [hopFrame, scionFrame, metaBytes, hopFieldBytes]
  · rw [hfield, if_neg Bool.false_ne_true, Nat.sub_zero, ← toMapKey_be16, hingress, hegress]

/-- A monitor on the upstream side, between the interfaces 2 and 3, for all ports. -/
def smallConf : Conf := ⟨UPSTREAM, (0, 65535), 2, 3⟩

/-- On its way downstream the frame is counted for its first hop. -/
lemma esdxMonitor_hopFrame (hop : Hop) :
    (esdxMonitor (initMaps smallConf) 2 (hopFrame 0 hop)).2 = some hop.toMapKey := by
  have hport : (initMaps smallConf).portMap.lookup 2 = some ⟨DOWNSTREAM, 3⟩ := by decide +kernel
  have hcurrent : (smallConf.role == DOWNSTREAM) = false := by decide
  have hall : isScionPort ⟨smallConf.role, bswap16 smallConf.scionPortRange.1,
      bswap16 smallConf.scionPortRange.2⟩ 0x5a75 = true := by decide
  unfold esdxMonitor
  rw [lookup_configMap, hport]
  dsimp only
  rw [hcurrent]
  exact countedHop_hopFrame hall hop

/-- **Hop fields that are not real.**  The first of two hop fields is current, and the monitor that
counts the previous one counts the end of the meta header and the start of the info field. -/
theorem not_onlyRealHops :
    ¬OnlyRealHops ⟨UPSTREAM, 0, 65535⟩ (hopFrame 0 ⟨0, 1⟩) true := by
  intro h
  have hindex := onlyRealHops_iff_index.mp h 54 98 (udpAt_scionFrame _) (by decide +kernel)
    (standardPath_hopFrame ..) (by decide +kernel)
  exact absurd hindex.1 (by decide +kernel)

end Esdx.Monitor
