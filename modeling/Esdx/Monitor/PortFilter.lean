import Esdx.Monitor.Setup

/-!
# The port filter

The host stores the bounds of the port range with their bytes swapped, and the data path compares
them with the destination port as it stands in the packet, on a host that loads the low byte first.
All three values are swapped alike, but the comparisons are made after the swap.
-/

namespace Esdx.Monitor

open ByteOrder

/-- `count` goes on to parse the packet as SCION. -/
def treatedAsScion (config : Config) (p : Packet) : Bool :=
  match parseUnderlay p {} 0 with
  | none => false
  | some (hdr, _) => isScionPort config (udpDest p hdr)

/-- The filter keeps exactly the packets with a port of the configured range. -/
def FilterIsRange (conf : Conf) : Prop :=
  ∀ config ∈ (initMaps conf).configMap.lookup 0, ∀ p udp, UdpAt p udp →
    (treatedAsScion config p = true ↔
      conf.scionPortRange.1 ≤ destPort p udp ∧ destPort p udp ≤ conf.scionPortRange.2)

/-- The ranges that swapping does not change: a single port, all ports, and an empty range whose
last port has no larger low byte than the first. -/
def SwapKeepsRange (first last : UInt16) : Prop :=
  first = last ∨ (first = 0 ∧ last = 65535) ∨ (last < first ∧ last % 256 ≤ first % 256)

/-! ## The filter in terms of ports -/

/-- The test of the filter. -/
lemma isScionPort_iff {config : Config} {dest : UInt16} :
    isScionPort config dest = true ↔
      config.firstScionPort ≤ dest ∧ dest ≤ config.lastScionPort := by
  rw [isScionPort, Bool.not_eq_true', Bool.or_eq_false_iff]
  exact and_congr (decide_eq_false_iff_not.trans UInt16.not_lt)
    (decide_eq_false_iff_not.trans UInt16.not_lt)

/-- The filter compares the swapped values. -/
lemma treatedAsScion_iff {config : Config} {p : Packet} {udp : ℕ} (h : UdpAt p udp) :
    treatedAsScion config p = true ↔
      config.firstScionPort ≤ bswap16 (destPort p udp) ∧
        bswap16 (destPort p udp) ≤ config.lastScionPort := by
  obtain ⟨hdr, hparse, rfl⟩ := parseUnderlay_eq_some.mpr ⟨h, rfl⟩
  unfold treatedAsScion
  rw [hparse, destPort, bswap16_be16]
  exact isScionPort_iff

/-- A frame with an IPv6 and a UDP header for this port. -/
def udpFrame (port : UInt16) : Packet :=
  List.replicate 12 0 ++ [0x86, 0xdd, 0x60] ++ List.replicate 5 0 ++ [17] ++
    List.replicate 35 0 ++ [(port / 256).toUInt8, port.toUInt8] ++ List.replicate 4 0

/-- The UDP header of the frame. -/
lemma udpAt_udpFrame (port : UInt16) : UdpAt (udpFrame port) 54 := by
  have hhi : byteAt (udpFrame port) 12 = 0x86 := rfl
  have hlo : byteAt (udpFrame port) (12 + 1) = 0xdd := rfl
  have hproto : be16 (udpFrame port) 12 = ETH_P_IPV6 := by
    rw [be16, hhi, hlo]
    decide
  exact .ipv6 hproto rfl (by simp [udpFrame])

/-- The port of the frame. -/
lemma destPort_udpFrame (port : UInt16) : destPort (udpFrame port) 54 = port := be16_eq rfl rfl

/-- The filter keeps exactly the range when swapping does not change the range as a set of
ports. -/
lemma filterIsRange_iff_forall {conf : Conf} :
    FilterIsRange conf ↔ ∀ port : UInt16,
      (bswap16 conf.scionPortRange.1 ≤ bswap16 port ∧
        bswap16 port ≤ bswap16 conf.scionPortRange.2) ↔
      (conf.scionPortRange.1 ≤ port ∧ port ≤ conf.scionPortRange.2) := by
  unfold FilterIsRange
  simp only [lookup_configMap, Option.mem_def, Option.some.injEq, forall_eq']
  constructor
  · intro h port
    have hport := h (udpFrame port) 54 (udpAt_udpFrame port)
    rwa [treatedAsScion_iff (udpAt_udpFrame port), destPort_udpFrame] at hport
  · intro h p udp hudp
    rw [treatedAsScion_iff hudp]
    exact h (destPort p udp)

/-! ## Swapping as an order on pairs of bytes -/

/-- Two intervals of pairs of bytes, one ordered by the high bytes first and one by the low bytes
first, agree in three cases only. -/
lemma swapped_interval_iff {fh fl lh ll : ℕ} (hfh : fh < 256) (hfl : fl < 256) (hlh : lh < 256)
    (hll : ll < 256) :
    (∀ h l, h < 256 → l < 256 →
      ((256 * fl + fh ≤ 256 * l + h ∧ 256 * l + h ≤ 256 * ll + lh) ↔
        (256 * fh + fl ≤ 256 * h + l ∧ 256 * h + l ≤ 256 * lh + ll))) ↔
    (fh = lh ∧ fl = ll) ∨ (fh = 0 ∧ fl = 0 ∧ lh = 255 ∧ ll = 255) ∨
      (256 * lh + ll < 256 * fh + fl ∧ ll ≤ fl) := by
  constructor
  · intro h
    -- the ports that tell the two orders apart: the first port, the end of its high byte, the
    -- start of the high byte of the last port, and the same with low and high bytes exchanged
    have hfirst := h fh fl hfh hfl
    have hend := h fh 255 hfh (by omega)
    have hstart := h lh 0 hlh (by omega)
    have hend' := h 255 fl (by omega) hfl
    have hstart' := h 0 ll (by omega) hll
    omega
  · rintro (hsame | hall | hempty) h l hh hl <;> omega

/-- **The port filter.**  The packets that `count` treats as SCION are those with a destination
port of the configured closed interval exactly for the ranges that swapping does not change. -/
theorem filterIsRange_iff (conf : Conf) :
    FilterIsRange conf ↔ SwapKeepsRange conf.scionPortRange.1 conf.scionPortRange.2 := by
  rw [filterIsRange_iff_forall]
  generalize conf.scionPortRange.1 = first
  generalize conf.scionPortRange.2 = last
  have hfirst := first.toNat_lt
  have hlast := last.toNat_lt
  -- a port is its two bytes, and swapped it is the two bytes exchanged
  have hbytes := @swapped_interval_iff (first.toNat / 256) (first.toNat % 256)
    (last.toNat / 256) (last.toNat % 256) (by omega) (by omega) (by omega) (by omega)
  have hports : (∀ port : UInt16, (bswap16 first ≤ bswap16 port ∧ bswap16 port ≤ bswap16 last) ↔
      (first ≤ port ∧ port ≤ last)) ↔
      ∀ h l, h < 256 → l < 256 →
        ((256 * (first.toNat % 256) + first.toNat / 256 ≤ 256 * l + h ∧
            256 * l + h ≤ 256 * (last.toNat % 256) + last.toNat / 256) ↔
          (256 * (first.toNat / 256) + first.toNat % 256 ≤ 256 * h + l ∧
            256 * h + l ≤ 256 * (last.toNat / 256) + last.toNat % 256)) := by
    simp only [UInt16.le_iff_toNat_le, toNat_bswap16]
    constructor
    · intro hall h l hh hl
      have hvalue : (UInt16.ofNat (256 * h + l)).toNat = 256 * h + l := by
        rw [UInt16.toNat_ofNat', Nat.mod_eq_of_lt (by omega)]
      have hlow : (256 * h + l) % 256 = l := by omega
      have hhigh : (256 * h + l) / 256 = h := by omega
      have hport := hall (UInt16.ofNat (256 * h + l))
      rw [hvalue, hlow, hhigh] at hport
      omega
    · intro hall port
      have hlt := port.toNat_lt
      have hport := hall (port.toNat / 256) (port.toNat % 256) (by omega) (by omega)
      omega
  rw [hports, hbytes]
  unfold SwapKeepsRange
  simp only [UInt16.lt_iff_toNat_lt, UInt16.le_iff_toNat_le, ← UInt16.toNat_inj, UInt16.toNat_mod,
    UInt16.reduceToNat]
  omega

/-- **The filter is not the range.**  With the ports 30042 to 30051 also a packet for port 91 is
treated as SCION. -/
theorem not_filterIsRange :
    ∃ conf, parseArgs (fun name => if name = "eth0" then some 2
        else if name = "eth1" then some 3 else none)
        { role := "upstream", ports := "30042:30051", up := "eth0", down := "eth1" } = .ok conf ∧
      ¬FilterIsRange conf := by
  refine ⟨⟨UPSTREAM, (30042, 30051), 2, 3⟩, by decide +kernel, fun h => ?_⟩
  have hport := (filterIsRange_iff_forall.mp h 91).mp (by decide)
  exact absurd hport (by decide)

end Esdx.Monitor
