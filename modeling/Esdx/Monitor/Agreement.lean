import Esdx.Monitor.HopField

/-!
# The two monitors around a provider

One monitor stands on the upstream side of the provider AS, one on the downstream side.  A packet
passes one of them before the provider's routers move the current hop field on, and the other one
after that.  The role of a monitor and the interface on which the packet enters decide whether the
current or the previous hop field is counted.
-/

namespace Esdx.Monitor

open ByteOrder

/-- Two monitors, one with each role, each between two different interfaces. -/
structure Deployment where
  upstream : Conf
  downstream : Conf
  upstream_role : upstream.role = UPSTREAM
  downstream_role : downstream.role = DOWNSTREAM
  upstream_ports : upstream.upPort ≠ upstream.downPort
  downstream_ports : downstream.upPort ≠ downstream.downPort

/-- Where a packet travels to. -/
inductive Travel
  | towardsDownstream
  | towardsUpstream

namespace Deployment

/-- The hop that the monitor before the provider counts. -/
def countedBefore (d : Deployment) (travel : Travel) (p : Packet) : Option UInt32 :=
  match travel with
  | .towardsDownstream => (esdxMonitor (initMaps d.upstream) d.upstream.upPort p).2
  | .towardsUpstream => (esdxMonitor (initMaps d.downstream) d.downstream.downPort p).2

/-- The hop that the monitor behind the provider counts. -/
def countedAfter (d : Deployment) (travel : Travel) (p : Packet) : Option UInt32 :=
  match travel with
  | .towardsDownstream => (esdxMonitor (initMaps d.downstream) d.downstream.upPort p).2
  | .towardsUpstream => (esdxMonitor (initMaps d.upstream) d.upstream.downPort p).2

end Deployment

/-- The packets carry paths with the same segment lengths and interface ids, and the second one is
one hop field further on. -/
structure NextHop (p q : Packet) (path path' : ℕ) : Prop where
  seg0 : seg0Len p path = seg0Len q path'
  seg1 : seg1Len p path = seg1Len q path'
  seg2 : seg2Len p path = seg2Len q path'
  ingress : ∀ i < numHops p path, ingress p path i = ingress q path' i
  egress : ∀ i < numHops p path, egress p path i = egress q path' i
  next : currHF q path' = currHF p path + 1
  inside : currHF q path' < numHops p path

/-! ## Which hop field a monitor counts -/

/-- Before the provider the current hop field is counted. -/
lemma countedBefore_eq_some {d : Deployment} {travel : Travel} {p : Packet} {key : UInt32}
    (h : d.countedBefore travel p = some key) :
    ∃ config, countedHop config p false = some key := by
  cases travel with
  | towardsDownstream =>
    obtain ⟨config, port, hport, hcounted⟩ := esdxMonitor_snd h
    rw [direction_upPort d.upstream_ports hport, d.upstream_role] at hcounted
    exact ⟨config, hcounted⟩
  | towardsUpstream =>
    obtain ⟨config, port, hport, hcounted⟩ := esdxMonitor_snd h
    rw [direction_downPort hport, d.downstream_role] at hcounted
    exact ⟨config, hcounted⟩

/-- Behind the provider the previous hop field is counted. -/
lemma countedAfter_eq_some {d : Deployment} {travel : Travel} {p : Packet} {key : UInt32}
    (h : d.countedAfter travel p = some key) :
    ∃ config, countedHop config p true = some key := by
  cases travel with
  | towardsDownstream =>
    obtain ⟨config, port, hport, hcounted⟩ := esdxMonitor_snd h
    rw [direction_upPort d.downstream_ports hport, d.downstream_role] at hcounted
    exact ⟨config, hcounted⟩
  | towardsUpstream =>
    obtain ⟨config, port, hport, hcounted⟩ := esdxMonitor_snd h
    rw [direction_downPort hport, d.upstream_role] at hcounted
    exact ⟨config, hcounted⟩

/-- The key of a counted packet is that of the hop field with the index that is counted. -/
lemma key_of_countedHop {config : Config} {p : Packet} {prevHf : Bool} {key : UInt32}
    {udp path h : ℕ} (hcounted : countedHop config p prevHf = some key) (hudp : UdpAt p udp)
    (hpath : StandardPath p (udp + 8) path)
    (hcurr : (if prevHf then h + 1 else h) = currHF p path) :
    key = Hop.toMapKey ⟨ingress p path h, egress p path h⟩ := by
  obtain ⟨udp', path', hudp', -, hpath', -, hkey⟩ := countedHop_eq_some.mp hcounted
  obtain rfl := hudp.unique hudp'
  obtain rfl := hpath.unique hpath'
  rw [hkey, hopField_step hcurr, ← toMapKey_be16]
  rfl

/-- **The two monitors agree.**  A packet that both monitors count, before and behind the provider,
is counted under the same key, in both directions of travel; the host decodes the key to the
interface ids of the provider's hop field, and maps these back to the key. -/
theorem monitors_agree (d : Deployment) (travel : Travel) {p q : Packet}
    {udp path udp' path' : ℕ} {key key' : UInt32} (hudp : UdpAt p udp)
    (hpath : StandardPath p (udp + 8) path) (hudp' : UdpAt q udp')
    (hpath' : StandardPath q (udp' + 8) path') (hnext : NextHop p q path path')
    (hbefore : d.countedBefore travel p = some key)
    (hafter : d.countedAfter travel q = some key') :
    key = key' ∧
      hopOfKey key = ⟨ingress p path (currHF p path), egress p path (currHF p path)⟩ ∧
      (hopOfKey key).toMapKey = key := by
  obtain ⟨config, hcounted⟩ := countedBefore_eq_some hbefore
  obtain ⟨config', hcounted'⟩ := countedAfter_eq_some hafter
  have hkey : key = Hop.toMapKey ⟨ingress p path (currHF p path),
      egress p path (currHF p path)⟩ := key_of_countedHop hcounted hudp hpath rfl
  have hkey' : key' = Hop.toMapKey ⟨ingress q path' (currHF p path),
      egress q path' (currHF p path)⟩ :=
    key_of_countedHop hcounted' hudp' hpath' hnext.next.symm
  have hlt : currHF p path < numHops p path := by
    have := hnext.next
    have := hnext.inside
    omega
  refine ⟨?_, ?_, toMapKey_hopOfKey key⟩
  · rw [hkey, hkey', hnext.ingress _ hlt, hnext.egress _ hlt]
  · rw [hkey, hopOfKey_toMapKey]

/-- Two monitors between the interfaces 2 and 3. -/
def smallDeployment : Deployment where
  upstream := smallConf
  downstream := ⟨DOWNSTREAM, (0, 65535), 2, 3⟩
  upstream_role := rfl
  downstream_role := rfl
  upstream_ports := by decide
  downstream_ports := by decide

/-- The frame that enters with the first hop field current and leaves with the second. -/
theorem monitors_agree_hopFrame :
    hopOfKey 0x29000100 = ⟨1, 41⟩ ∧ (hopOfKey 0x29000100).toMapKey = 0x29000100 := by
  have hnext : NextHop (hopFrame 0 ⟨1, 41⟩) (hopFrame 1 ⟨1, 41⟩) 98 98 :=
    ⟨by decide +kernel, by decide +kernel, by decide +kernel, by decide +kernel,
      by decide +kernel, by decide +kernel, by decide +kernel⟩
  have hbefore : smallDeployment.countedBefore .towardsDownstream (hopFrame 0 ⟨1, 41⟩) =
      some 0x29000100 := by decide +kernel
  have hafter : smallDeployment.countedAfter .towardsDownstream (hopFrame 1 ⟨1, 41⟩) =
      some 0x29000100 := by decide +kernel
  have hagree := monitors_agree smallDeployment .towardsDownstream (udpAt_scionFrame _)
    (standardPath_hopFrame ..) (udpAt_scionFrame _) (standardPath_hopFrame ..) hnext hbefore hafter
  have hids : (⟨ingress (hopFrame 0 ⟨1, 41⟩) 98 (currHF (hopFrame 0 ⟨1, 41⟩) 98),
      egress (hopFrame 0 ⟨1, 41⟩) 98 (currHF (hopFrame 0 ⟨1, 41⟩) 98)⟩ : Hop) = ⟨1, 41⟩ := by
    decide +kernel
  exact ⟨hagree.2.1.trans hids, hagree.2.2⟩

end Esdx.Monitor
