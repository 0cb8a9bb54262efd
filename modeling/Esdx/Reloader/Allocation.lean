import Esdx.Foundations.FreeValue
import Esdx.Reloader.Refinement

/-!
# Allocation of ids and ports

`_add_cotract_to_topo` gives a new interface the lowest free id and the lowest free port.  The
search behind both goes through the values in order and starts at the lowest one, also where this is
below the minimum, and then it stops in the first gap.
-/

namespace Esdx

open InetAddress PythonText FreeValue

variable {J : Type}

/-! ## The search -/

namespace Topology

/-- From a start that is at most one above all values, the loop ends at the lowest free value. -/
lemma lowestFreeLoop_isLowestFree {values : List ℤ} (hsorted : values.Pairwise (· ≤ ·)) {ret : ℤ}
    (hret : ∀ v ∈ values, ret ≤ v + 1) :
    IsLowestFree {v | v ∈ values} ret (lowestFreeLoop values ret) := by
  induction values generalizing ret with
  | nil => exact ⟨⟨le_rfl, List.not_mem_nil⟩, fun w hw => hw.1⟩
  | cons id values ih =>
    obtain ⟨hle, hsorted⟩ := List.pairwise_cons.mp hsorted
    have hid := hret id List.mem_cons_self
    rw [lowestFreeLoop]
    split
    · rename_i hlt
      refine ⟨⟨le_rfl, fun hmem => ?_⟩, fun w hw => hw.1⟩
      rcases List.mem_cons.mp hmem with heq | hmem
      · omega
      · have := hle ret hmem
        omega
    · rename_i hge
      have hrest : IsLowestFree {v | v ∈ values} (id + 1) (lowestFreeLoop values (id + 1)) := by
        apply ih hsorted
        intro v hv
        have := hle v hv
        omega
      -- `id` is below the value found, so it is free with and without `id`
      have hfound : IsLowestFree {v | v ∈ id :: values} (id + 1)
          (lowestFreeLoop values (id + 1)) := by
        have hlow := hrest.1.1
        refine ⟨⟨hlow, fun hmem => ?_⟩, fun w hw => hrest.2 ⟨hw.1, fun hmem => ?_⟩⟩
        · rcases List.mem_cons.mp hmem with heq | hmem
          · omega
          · exact hrest.1.2 hmem
        · exact hw.2 (List.mem_cons_of_mem id hmem)
      apply hfound.of_le (by omega)
      intro w hw hlt
      obtain rfl : w = id := by omega
      exact List.mem_cons_self

/-- The value found is the lowest free one from the lowest value on, or from the minimum on. -/
lemma findLowestFreeValue_isLowestFree (values : List ℤ) (minValue : ℤ) :
    ∃ start, IsLeast (insert minValue {v | v ∈ values}) start ∧
      IsLowestFree {v | v ∈ values} start (findLowestFreeValue values minValue) := by
  have hsorted := List.pairwise_insertionSort (· ≤ ·) values
  have hmem : {v | v ∈ values} = {v | v ∈ values.insertionSort (· ≤ ·)} := by
    ext v
    exact (List.mem_insertionSort (· ≤ ·)).symm
  rw [hmem, findLowestFreeValue]
  generalize values.insertionSort (· ≤ ·) = sorted at hsorted
  by_cases hlow : ∀ v ∈ sorted, minValue ≤ v
  · refine ⟨minValue, ⟨Set.mem_insert _ _, ?_⟩, lowestFreeLoop_isLowestFree hsorted ?_⟩
    · intro v hv
      rcases hv with rfl | hv
      · exact le_rfl
      · exact hlow v hv
    · intro v hv
      have := hlow v hv
      omega
  -- a value below the minimum: the loop starts again at the first one
  · rcases sorted with _ | ⟨id, sorted⟩
    · simp at hlow
    obtain ⟨hle, hsorted'⟩ := List.pairwise_cons.mp hsorted
    have hlt : id < minValue := by
      by_contra hge
      apply hlow
      intro v hv
      rcases List.mem_cons.mp hv with rfl | hv
      · exact not_lt.mp hge
      · exact (not_lt.mp hge).trans (hle v hv)
    refine ⟨id, ⟨.inr List.mem_cons_self, ?_⟩, ?_⟩
    · intro v hv
      rcases hv with rfl | hv
      · exact hlt.le
      · rcases List.mem_cons.mp hv with rfl | hv
        · exact le_rfl
        · exact hle v hv
    · have hloop : IsLowestFree {v | v ∈ id :: sorted} id (lowestFreeLoop (id :: sorted) id) := by
        apply lowestFreeLoop_isLowestFree hsorted
        intro v hv
        rcases List.mem_cons.mp hv with rfl | hv
        · omega
        · have := hle v hv
          omega
      rw [lowestFreeLoop, if_neg (lt_irrefl id)] at hloop
      rwa [lowestFreeLoop, if_neg (not_lt.mpr hlt.le)]

/-- The search finds the lowest free value exactly when no gap lies below the minimum. -/
lemma findLowestFreeValue_isLowestFree_iff (values : List ℤ) (minValue : ℤ) :
    IsLowestFree {v | v ∈ values} minValue (findLowestFreeValue values minValue) ↔
      GapFree {v | v ∈ values} minValue := by
  obtain ⟨start, hstart, hfound⟩ := findLowestFreeValue_isLowestFree values minValue
  exact isLowestFree_iff_gapFree hstart hfound

end Topology

/-! ## What is in use -/

/-- The ids of the interfaces of all border routers. -/
def Topo.usedIds (t : Topo J) : Set ℤ := {id | ∃ e ∈ t.interfaces, toInt 10 e.1.toList = .ok id}

/-- The ports of the public addresses with the IP, over all border routers. -/
def Topo.usedPorts (t : Topo J) (ip : IPAddress) : Set ℤ :=
  {port | ∃ e ∈ t.interfaces, ipPortFromStr e.2.publicAddr = .ok (ip, port)}

/-- The ids and the public addresses of all interfaces can be read. -/
structure Topo.Readable (t : Topo J) : Prop where
  ids : ∀ e ∈ t.interfaces, ∃ id, toInt 10 e.1.toList = .ok id
  addrs : ∀ e ∈ t.interfaces, ∃ a, ipPortFromStr e.2.publicAddr = .ok a

/-- The values read from some texts are those that some of the texts has. -/
lemma mem_iff_of_forall₂ {α β : Type} {f : α → Except Exc β} {l : List α} {bs : List β}
    (h : List.Forall₂ (fun a b => f a = .ok b) l bs) (b : β) :
    b ∈ bs ↔ ∃ a ∈ l, f a = .ok b := by
  induction h with
  | nil => simp
  | cons hab _ ih => simp [ih, hab, eq_comm]

namespace Topology

/-- Where everything can be read, what is in use is found. -/
lemma exists_inUse {routers : List (String × BorderRouter J)}
    (hids : ∀ e ∈ interfacesOf routers, ∃ id, toInt 10 e.1.toList = .ok id)
    (haddrs : ∀ e ∈ interfacesOf routers, ∃ a, ipPortFromStr e.2.publicAddr = .ok a) :
    ∃ ids addrs, inUse routers = .ok (ids, addrs) := by
  induction routers with
  | nil => exact ⟨[], [], rfl⟩
  | cons e rest ih =>
    obtain ⟨k, v⟩ := e
    have hmem : ∀ e, e ∈ v.interfaces.entries ∨ e ∈ interfacesOf rest →
        e ∈ interfacesOf ((k, v) :: rest) := by
      intro e he
      rw [interfacesOf, List.flatMap_cons]
      exact List.mem_append.mpr he
    obtain ⟨ids₁, hids₁⟩ :
        ∃ ids, v.interfaces.keys.mapM (fun k => toInt 10 k.toList) = .ok ids := by
      apply exists_mapM_eq_ok
      intro k' hk'
      obtain ⟨e, he, rfl⟩ := List.mem_map.mp hk'
      exact hids e (hmem e (.inl he))
    obtain ⟨addrs₁, haddrs₁⟩ : ∃ addrs, v.interfaces.values.mapM
        (fun interface => ipPortFromStr interface.publicAddr) = .ok addrs := by
      apply exists_mapM_eq_ok
      intro i hi
      obtain ⟨e, he, rfl⟩ := List.mem_map.mp hi
      exact haddrs e (hmem e (.inl he))
    obtain ⟨ids₂, addrs₂, hrest⟩ := ih (fun e he => hids e (hmem e (.inr he)))
      fun e he => haddrs e (hmem e (.inr he))
    refine ⟨ids₁ ++ ids₂, addrs₁ ++ addrs₂, ?_⟩
    simp only [inUse, hids₁, haddrs₁, hrest, bind, Except.bind]
    rfl

/-- The interface with the id is put into the ESDX router. -/
def withInterface (self : Topology) (topo : Topo J) (id : ℤ) (interface : Interface J) : Topo J :=
  { topo with
    borderRouters := topo.borderRouters.set (generateEsdxBrName topo.isdAs)
      { self.esdxBr topo with
        interfaces := (self.esdxBr topo).interfaces.set (toString id) interface } }

/-- The interfaces of the ESDX router are interfaces of the topology. -/
lemma mem_interfaces_of_esdxBr {self : Topology} {topo : Topo J} {e : String × Interface J}
    (he : e ∈ (self.esdxBr topo).interfaces.entries) : e ∈ topo.interfaces := by
  unfold esdxBr at he
  rcases hbr : topo.borderRouters.get? (generateEsdxBrName topo.isdAs) with _ | br
  · rw [hbr] at he
    exact absurd he List.not_mem_nil
  · rw [hbr] at he
    obtain ⟨pre, post, hsplit⟩ := Dict.exists_split hbr
    rw [Topo.interfaces, interfacesOf, hsplit]
    exact List.mem_flatMap.mpr
      ⟨(generateEsdxBrName topo.isdAs, br), List.mem_append_right _ List.mem_cons_self, he⟩

/-- A free id is no key of the ESDX router. -/
lemma toString_notMem_esdxBr {self : Topology} {topo : Topo J} {id : ℤ} (h : id ∉ topo.usedIds) :
    toString id ∉ (self.esdxBr topo).interfaces.keys := by
  rw [Dict.keys, List.mem_map]
  rintro ⟨e, he, heq⟩
  exact h ⟨e, mem_interfaces_of_esdxBr he, by rw [heq]; exact toInt_toString id⟩

/-- The topology shows the free id and the interface that were put in. -/
lemma withInterface_inj {self : Topology} {topo : Topo J} {id id' : ℤ} {i i' : Interface J}
    (hid : id ∉ topo.usedIds) (hid' : id' ∉ topo.usedIds)
    (h : self.withInterface topo id i = self.withInterface topo id' i') : id = id' ∧ i = i' := by
  have hrouters := congrArg
    (fun t : Topo J => t.borderRouters.get? (generateEsdxBrName topo.isdAs)) h
  simp only [withInterface, Dict.get?_set_self, Option.some.injEq, BorderRouter.mk.injEq,
    true_and, and_true] at hrouters
  have hentries := congrArg Dict.entries hrouters
  rw [Dict.set_of_notMem (toString_notMem_esdxBr hid),
    Dict.set_of_notMem (toString_notMem_esdxBr hid'), List.append_right_inj] at hentries
  simp only [List.cons.injEq, Prod.mk.injEq, and_true] at hentries
  exact ⟨toString_inj.mp hentries.1, hentries.2⟩

/-! ## The allocation -/

/-- The router function selects the IP for the remote address of the contract. -/
def Selects (self : Topology) (info : TopoInfoFromContract) (publicIp : IPAddress) : Prop :=
  ∃ remoteIp remotePort, ipPortFromStr info.remoteUnderlay = .ok (remoteIp, remotePort) ∧
    self.router remoteIp = .ok publicIp

/-- Some port of the range is not used. -/
def HasFreePort (self : Topology) (used : Set ℤ) : Prop :=
  ∃ port, self.minPort ≤ port ∧ port ≤ self.maxPort ∧ port ∉ used

/-- A new interface gets the lowest free id and the lowest free port of the range on the IP.  When
no port is free, the contract is refused and `activate` leaves the file as it was. -/
structure Allocates (topology : Topology) (topo : Topo J) (info : TopoInfoFromContract)
    (publicIp : IPAddress) : Prop where
  lowest : topology.HasFreePort (topo.usedPorts publicIp) → ∃ id port,
    IsLowestFree topo.usedIds 1 id ∧
    IsLowestFree (topo.usedPorts publicIp) topology.minPort port ∧ port ≤ topology.maxPort ∧
    topology.addContractToTopo topo info =
      .ok (topology.withInterface topo id (newInterface info (ipPortToStr publicIp port)))
  refused : ¬topology.HasFreePort (topo.usedPorts publicIp) →
    topology.addContractToTopo topo info =
      .error (.runtimeError ("could not find a free port for public ip " ++ strIp publicIp)) ∧
    ∀ c, contractInfo topo.isdAs c = .ok info →
      ∃ e, (TopologyCall.activate c).alone topology topo = (.error e, topo)

/-- What `_add_cotract_to_topo` does with the values in use. -/
lemma addContractToTopo_eq {self : Topology} {topo : Topo J} {info : TopoInfoFromContract}
    {publicIp : IPAddress} {ids : List ℤ} {addrs : List (IPAddress × ℤ)}
    (huse : inUse topo.borderRouters.entries = .ok (ids, addrs)) (h : self.Selects info publicIp)
    {port : ℤ} (hport :
      findLowestFreeValue ((addrs.filter (·.1 = publicIp)).map Prod.snd) self.minPort = port) :
    self.addContractToTopo topo info =
      if self.maxPort < port then
        .error (.runtimeError ("could not find a free port for public ip " ++ strIp publicIp))
      else .ok (self.withInterface topo (findLowestFreeValue ids)
        (newInterface info (ipPortToStr publicIp port))) := by
  obtain ⟨remoteIp, remotePort, hremote, hrouter⟩ := h
  unfold addContractToTopo
  simp only [huse, hremote, hrouter, bind, Except.bind, hport]
  split
  · rfl
  · rfl

/-- A contract that cannot be added is refused by `activate`, and the file stays as it was. -/
lemma alone_activate_of_error {self : Topology} {topo : Topo J} {info : TopoInfoFromContract}
    {e : Exc} (h : self.addContractToTopo topo info = .error e) {c : ContractMessage}
    (hc : contractInfo topo.isdAs c = .ok info) :
    ∃ e, (TopologyCall.activate c).alone self topo = (.error e, topo) := by
  rcases hcall : (TopologyCall.activate c).alone self topo with ⟨e' | u, t'⟩
  · exact ⟨e', by rw [TopologyCall.alone_error hcall]⟩
  · have happly := (TopologyCall.alone_eq_ok.mp hcall).2
    simp [TopologyCall.apply, activated, hc, h, bind, Except.bind] at happly

/-- The allocation is right exactly when the ports in use have no gap below the range, and the ids
in use have none below one or no id is needed. -/
lemma allocates_iff_gapFree {self : Topology} {topo : Topo J} {info : TopoInfoFromContract}
    {publicIp : IPAddress} (hrange : self.minPort ≤ self.maxPort) (hreadable : topo.Readable)
    (h : self.Selects info publicIp) : self.Allocates topo info publicIp ↔
      GapFree (topo.usedPorts publicIp) self.minPort ∧
        (self.HasFreePort (topo.usedPorts publicIp) → GapFree topo.usedIds 1) := by
  obtain ⟨ids, addrs, huse⟩ := exists_inUse hreadable.ids hreadable.addrs
  obtain ⟨hids, haddrs⟩ := inUse_eq_ok huse
  have husedIds : topo.usedIds = {id | id ∈ ids} := by
    ext id
    exact (mem_iff_of_forall₂ (f := fun e : String × Interface J => toInt 10 e.1.toList) hids
      id).symm
  have husedPorts : topo.usedPorts publicIp =
      {port | port ∈ (addrs.filter (·.1 = publicIp)).map Prod.snd} := by
    ext port
    refine (mem_iff_of_forall₂ (f := fun e : String × Interface J =>
      ipPortFromStr e.2.publicAddr) haddrs (publicIp, port)).symm.trans ?_
    simp
  have hadd := addContractToTopo_eq huse h rfl
  obtain ⟨start, hstart, hfound⟩ :=
    findLowestFreeValue_isLowestFree ((addrs.filter (·.1 = publicIp)).map Prod.snd) self.minPort
  have hport := findLowestFreeValue_isLowestFree_iff
    ((addrs.filter (·.1 = publicIp)).map Prod.snd) self.minPort
  have hid := findLowestFreeValue_isLowestFree_iff ids 1
  have hidFree := findLowestFreeValue_notMem ids 1
  rw [← husedPorts] at hport hstart hfound
  rw [← husedIds] at hid
  rw [show (findLowestFreeValue ids 1 ∉ ids) = (findLowestFreeValue ids 1 ∉ topo.usedIds) by
    rw [husedIds]; rfl] at hidFree
  generalize findLowestFreeValue ((addrs.filter (·.1 = publicIp)).map Prod.snd) self.minPort = port
    at hadd hport hfound
  have hle := hstart.2 (Set.mem_insert self.minPort _)
  constructor
  · intro halloc
    by_cases hfree : self.HasFreePort (topo.usedPorts publicIp)
    · obtain ⟨id', port', hid', hport', -, heq⟩ := halloc.lowest hfree
      rw [hadd] at heq
      split at heq
      · simp at heq
      · obtain ⟨rfl, hi⟩ := withInterface_inj hidFree hid'.1.2 (Except.ok.inj heq)
        obtain rfl := ipPortToStr_inj.mp (congrArg Interface.publicAddr hi)
        exact ⟨hport.mp hport', fun _ => hid.mp hid'⟩
    · have herror := (halloc.refused hfree).1
      rw [hadd] at herror
      split at herror
      · rename_i hlt
        exact ⟨hport.mp (hfound.of_ge hle (by omega)), fun hfree' => absurd hfree' hfree⟩
      · simp at herror
  · rintro ⟨hgap, hgapIds⟩
    have hlowest := hport.mpr hgap
    constructor
    · intro hfree
      obtain ⟨q, hq, hqmax, hqfree⟩ := hfree
      have hmax : port ≤ self.maxPort := (hlowest.2 ⟨hq, hqfree⟩).trans hqmax
      refine ⟨_, port, hid.mpr (hgapIds ⟨q, hq, hqmax, hqfree⟩), hlowest, hmax, ?_⟩
      rw [hadd, if_neg (not_lt.mpr hmax)]
    · intro hfull
      have hmax : self.maxPort < port := by
        by_contra hle
        exact hfull ⟨port, hlowest.1.1, not_lt.mp hle, hlowest.1.2⟩
      rw [if_pos hmax] at hadd
      exact ⟨hadd, fun c hc => alone_activate_of_error hadd hc⟩

end Topology

/-! ## A port below the range -/

namespace SmallTopology

lemma length_loopback : [127, 0, 0, 1].length = 4 := rfl

lemma loopback_lt : ∀ o ∈ [127, 0, 0, 1], o < 256 := by decide

/-- The loopback address. -/
def loopback : IPAddress := .v4 ⟨[127, 0, 0, 1], length_loopback, loopback_lt⟩

/-- A topology with one router that has one interface, with a port below the range. -/
def lowPort : Topo Unit where
  isdAs := "1-ff00:0:111"
  borderRouters := ⟨[("br1-ff00_0_111-1", {
    internalAddr := "127.0.0.17:31012"
    interfaces := ⟨[("41", {
      publicAddr := "127.0.0.1:30041"
      remote := "127.0.0.4:50000"
      isdAs := "1-ff00:0:110"
      mtu := 1280
      linkTo := "PARENT" })], by decide⟩ })], by decide⟩
  other := []

/-- What the buyer needs to know about a contract. -/
def info : TopoInfoFromContract := Topology.contractAsBuyer (bought "1.1.1.1:50000")

/-- The remote address is reached from the loopback address. -/
lemma selects_info : reloader.Selects info loopback :=
  ⟨.v4 ⟨[1, 1, 1, 1], rfl, by decide⟩, 50000, by decide +kernel, rfl⟩

/-- The interface of the start can be read. -/
lemma readable_start : start.Readable where
  ids := idsDistinct_start.1
  addrs := by
    intro e he
    refine ⟨(.v4 ⟨[127, 0, 0, 5], rfl, by decide⟩, 50000), ?_⟩
    rw [List.mem_singleton.mp he]
    decide +kernel

/-- The interface with the low port can be read. -/
lemma readable_lowPort : lowPort.Readable where
  ids := by
    intro e he
    refine ⟨41, ?_⟩
    rw [List.mem_singleton.mp he]
    exact toInt_toString 41
  addrs := by
    intro e he
    refine ⟨(loopback, 30041), ?_⟩
    rw [List.mem_singleton.mp he]
    decide +kernel

end SmallTopology

/-- **Allocation of ids and ports.**  The search finds the lowest free value exactly when the values
below the minimum have no gap up to it.  A new interface gets the lowest free id and the lowest free
port, or is refused when no port is free, exactly when this is so for the ports on its IP and, where
a port is free, for the ids. -/
theorem allocates_iff (J : Type) :
    (∀ (values : List ℤ) (minValue : ℤ),
      IsLowestFree {v | v ∈ values} minValue (Topology.findLowestFreeValue values minValue) ↔
        GapFree {v | v ∈ values} minValue) ∧
    ∀ (self : Topology) (topo : Topo J) (info : TopoInfoFromContract) (publicIp : IPAddress),
      self.minPort ≤ self.maxPort → topo.Readable → self.Selects info publicIp →
      (self.Allocates topo info publicIp ↔
        GapFree (topo.usedPorts publicIp) self.minPort ∧
          (self.HasFreePort (topo.usedPorts publicIp) → GapFree topo.usedIds 1)) :=
  ⟨Topology.findLowestFreeValue_isLowestFree_iff, fun _ _ _ _ hrange hreadable hselects =>
    Topology.allocates_iff_gapFree hrange hreadable hselects⟩

/-- With no port in use on the IP, the new interface gets the lowest port of the range. -/
theorem allocates_iff_start :
    SmallTopology.reloader.Allocates SmallTopology.start SmallTopology.info
      SmallTopology.loopback := by
  refine ((allocates_iff Unit).2 _ _ _ _ (by decide) SmallTopology.readable_start
    SmallTopology.selects_info).mpr ⟨?_, fun _ => ?_⟩
  · rintro v ⟨e, he, hv⟩ -
    rw [List.mem_singleton.mp he] at hv
    have hip : (ipPortFromStr "127.0.0.5:50000").map Prod.fst ≠ .ok SmallTopology.loopback := by
      decide +kernel
    exact absurd (congrArg (Except.map Prod.fst) hv) hip
  · rintro v ⟨e, he, hv⟩ hlt
    rw [List.mem_singleton.mp he] at hv
    have hv : v = 41 := Except.ok.inj (hv.symm.trans (toInt_toString 41))
    omega

/-- With a port below the range in use, the new interface gets the port after it. -/
theorem not_allocates :
    ¬∀ (J : Type) (self : Topology) (topo : Topo J) (info : TopoInfoFromContract)
      (publicIp : IPAddress), self.minPort ≤ self.maxPort → topo.Readable →
      self.Selects info publicIp → self.Allocates topo info publicIp := by
  intro h
  have halloc := h Unit SmallTopology.reloader SmallTopology.lowPort SmallTopology.info
    SmallTopology.loopback (by decide) SmallTopology.readable_lowPort SmallTopology.selects_info
  have hgap := ((Topology.allocates_iff_gapFree (by decide) SmallTopology.readable_lowPort
    SmallTopology.selects_info).mp halloc).1
  have hread : ipPortFromStr "127.0.0.1:30041" = .ok (SmallTopology.loopback, 30041) := by
    decide +kernel
  rcases hgap 30041 ⟨_, List.mem_singleton_self _, hread⟩ (by decide) with heq | ⟨e, he, hv⟩
  · exact absurd heq (by decide)
  · rw [List.mem_singleton.mp he] at hv
    have hport := (Prod.mk.inj (Except.ok.inj (hread.symm.trans hv))).2
    exact absurd hport (by decide)

end Esdx
