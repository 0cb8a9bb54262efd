import Esdx.Foundations.Dict
import Esdx.Foundations.Transaction
import Esdx.Util.Conversion

/-!
# The topology file

`reloader/topology.py`: contracts are put into the topology file of an AS as interfaces of one
border router, the ESDX router, and taken out again.  The file is read and written as a whole; its
fields that the code does not look at have the type `J`.
-/

namespace Esdx

open InetAddress

variable {J : Type}

/-! ## The file -/

/-- An interface of a border router. -/
structure Interface (J : Type) where
  publicAddr : String
  remote : String
  isdAs : String
  mtu : ℤ
  linkTo : String
  other : List (String × J) := []

/-- A border router, with its interfaces by their ids. -/
structure BorderRouter (J : Type) where
  internalAddr : String
  interfaces : Dict (Interface J) := .empty
  other : List (String × J) := []

/-- The topology of an AS, with its border routers by their names. -/
structure Topo (J : Type) where
  isdAs : String
  borderRouters : Dict (BorderRouter J)
  other : List (String × J)

/-- `TopoInfoFromContract`. -/
structure TopoInfoFromContract where
  remoteIa : String
  remoteUnderlay : String
  mtu : ℤ
  linkTo : String
deriving DecidableEq

/-! ## The class -/

/-- A `Topology` object.  `router` is the function of the caller that says which local address a
remote address is reached from. -/
structure Topology where
  internalAddrIp : IPAddress
  internalAddrPort : ℤ
  router : IPAddress → Except Exc IPAddress
  minPort : ℤ := 50000
  maxPort : ℤ := 51000
  attempts : ℤ := 10

/-- `str(ip)`. -/
def strIp : IPAddress → String
  | .v4 a => String.ofList a.text
  | .v6 a => String.ofList a.text

namespace Topology

/-- `_default_router`. -/
def defaultRouter : IPAddress → Except Exc IPAddress
  | .v4 _ => .ok (.v4 ⟨[127, 0, 0, 1], rfl, by decide⟩)
  | .v6 _ => .ok (.v6 ⟨[0, 0, 0, 0, 0, 0, 0, 1], none, rfl, by decide, by simp⟩)

/-- The check of `__init__` that the internal address belongs to no other router. -/
def checkInternalAddr (internalAddr : String) (ip : IPAddress) (port : ℤ) :
    List (String × BorderRouter J) → Except Exc Unit
  | [] => .ok ()
  | (k, v) :: rest => do
    if ¬"-1111".toList <:+ k.toList then
      let (ip', port') ← ipPortFromStr v.internalAddr
      if ip' = ip ∧ port' = port then
        throw (.runtimeError ("internal address " ++ internalAddr ++
          " already present in a non ESDX BR in the topology file"))
    checkInternalAddr internalAddr ip port rest

/-- `__init__`. -/
def init (topo : Topo J) (internalAddr : String)
    (router : IPAddress → Except Exc IPAddress := defaultRouter) (minPort : ℤ := 50000)
    (maxPort : ℤ := 51000) (attempts : ℤ := 10) : Except Exc Topology := do
  let (ip, port) ← ipPortFromStr internalAddr
  checkInternalAddr internalAddr ip port topo.borderRouters.entries
  return ⟨ip, port, router, minPort, maxPort, attempts⟩

/-- `_contract_as_seller`. -/
def contractAsSeller (c : ContractMessage) : TopoInfoFromContract :=
  ⟨c.buyerIaid, c.brAddress, c.offer.brMtu, c.offer.brLinkTo⟩

/-- `_contract_as_buyer`. -/
def contractAsBuyer (c : ContractMessage) : TopoInfoFromContract :=
  ⟨c.offer.iaid, c.brAddress, c.offer.brMtu, c.offer.brLinkTo⟩

/-- `_contract_info`, for the local AS.  The second part of the message is printed as it is. -/
def contractInfo (isdAs : String) (c : ContractMessage) : Except Exc TopoInfoFromContract :=
  if isdAs = c.offer.iaid then .ok (contractAsSeller c)
  else if isdAs = c.buyerIaid then .ok (contractAsBuyer c)
  else .error (.runtimeError ("bad contract: topology indicates local AS is " ++ isdAs ++
    ", and contract has seller=\x7bc.offer.iaid\x7d and buyer=\x7bc.buyer_iaid\x7d"))

/-- The loop of `_find_lowest_free_value`. -/
def lowestFreeLoop : List ℤ → ℤ → ℤ
  | [], ret => ret
  | id :: values, ret => if ret < id then ret else lowestFreeLoop values (id + 1)

/-- `_find_lowest_free_value`. -/
def findLowestFreeValue (values : List ℤ) (minValue : ℤ := 1) : ℤ :=
  lowestFreeLoop (values.insertionSort (· ≤ ·)) minValue

/-- `_generate_esdx_br_name`. -/
def generateEsdxBrName (isdAs : String) : String :=
  "br" ++ String.ofList (isdAs.toList.map fun c => if c = ':' then '_' else c) ++ "-1111"

/-- The interface ids and the public addresses of all border routers. -/
def inUse : List (String × BorderRouter J) → Except Exc (List ℤ × List (IPAddress × ℤ))
  | [] => .ok ([], [])
  | (_, v) :: rest => do
    let ids ← v.interfaces.keys.mapM fun k => toInt 10 k.toList
    let addrs ← v.interfaces.values.mapM fun interface => ipPortFromStr interface.publicAddr
    let (ids', addrs') ← inUse rest
    return (ids ++ ids', addrs ++ addrs')

/-- The ESDX router of the topology, or a new one. -/
def esdxBr (self : Topology) (topo : Topo J) : BorderRouter J :=
  (topo.borderRouters.get? (generateEsdxBrName topo.isdAs)).getD
    { internalAddr := ipPortToStr self.internalAddrIp self.internalAddrPort }

/-- `_add_cotract_to_topo`. -/
def addContractToTopo (self : Topology) (topo : Topo J) (info : TopoInfoFromContract) :
    Except Exc (Topo J) := do
  let (ifidInuse, publicAddrs) ← inUse topo.borderRouters.entries
  let ifid := findLowestFreeValue ifidInuse
  let (remoteIp, _) ← ipPortFromStr info.remoteUnderlay
  let publicIp ← self.router remoteIp
  let ports := (publicAddrs.filter (·.1 = publicIp)).map Prod.snd
  let port := findLowestFreeValue ports self.minPort
  if self.maxPort < port then
    throw (.runtimeError ("could not find a free port for public ip " ++ strIp publicIp))
  let br := self.esdxBr topo
  let interface : Interface J := {
    publicAddr := ipPortToStr publicIp port
    remote := info.remoteUnderlay
    isdAs := info.remoteIa
    mtu := info.mtu
    linkTo := info.linkTo }
  return { topo with
    borderRouters := topo.borderRouters.set (generateEsdxBrName topo.isdAs)
      { br with interfaces := br.interfaces.set (toString ifid) interface } }

/-- The first interface with the remote address, with its router. -/
def findRemote (remote : String) :
    List (String × BorderRouter J) → Option (String × BorderRouter J × String)
  | [] => none
  | (k, br) :: rest =>
    match br.interfaces.entries.find? (·.2.remote = remote) with
    | some (ifid, _) => some (k, br, ifid)
    | none => findRemote remote rest

/-- `_remove_interface_from_br`. -/
def removeInterfaceFromBr (topo : Topo J) (info : TopoInfoFromContract) : Except Exc (Topo J) :=
  match findRemote info.remoteUnderlay topo.borderRouters.entries with
  | some (k, br, ifid) => .ok { topo with
      borderRouters := topo.borderRouters.set k
        { br with interfaces := br.interfaces.erase ifid } }
  | none => .error (.runtimeError ("interface with remote " ++ info.remoteUnderlay ++
      " not found in topology"))

/-- `_remove_interface`. -/
def removeInterface (topo : Topo J) (info : TopoInfoFromContract) : Except Exc (Topo J) := do
  let topo ← removeInterfaceFromBr topo info
  let brId := generateEsdxBrName topo.isdAs
  match topo.borderRouters.get? brId with
  | none => throw (.keyError brId)
  | some br =>
    if br.interfaces.entries.length = 0 then
      return { topo with borderRouters := topo.borderRouters.erase brId }
    else return topo

/-- What `activate` writes to the file. -/
def activated (self : Topology) (c : ContractMessage) (topo : Topo J) : Except Exc (Topo J) := do
  let info ← contractInfo topo.isdAs c
  self.addContractToTopo topo info

/-- What `deactivate` writes to the file. -/
def deactivated (c : ContractMessage) (topo : Topo J) : Except Exc (Topo J) := do
  let info ← contractInfo topo.isdAs c
  removeInterface topo info

end Topology

/-- A call of one of the two methods. -/
inductive TopologyCall
  | activate (c : ContractMessage)
  | deactivate (c : ContractMessage)
deriving DecidableEq

/-- What the call writes to the file, while it holds the lock. -/
def TopologyCall.apply (self : Topology) (call : TopologyCall) (topo : Topo J) :
    Except Exc (Topo J) :=
  match call with
  | .activate c => self.activated c topo
  | .deactivate c => Topology.deactivated c topo

/-! ## Free values -/

namespace Topology

/-- The loop ends with its start, or with one more than some value, and not with a value. -/
lemma lowestFreeLoop_spec {values : List ℤ} (hsorted : values.Pairwise (· ≤ ·)) (ret : ℤ) :
    lowestFreeLoop values ret ∉ values ∧
      (lowestFreeLoop values ret = ret ∨ ∃ v ∈ values, lowestFreeLoop values ret = v + 1) := by
  induction values generalizing ret with
  | nil => simp [lowestFreeLoop]
  | cons id values ih =>
    obtain ⟨hle, hsorted⟩ := List.pairwise_cons.mp hsorted
    rw [lowestFreeLoop]
    split
    · rename_i hlt
      refine ⟨fun hmem => ?_, .inl rfl⟩
      rcases List.mem_cons.mp hmem with heq | hmem
      · omega
      · have := hle ret hmem
        omega
    · obtain ⟨hnotMem, hvalue⟩ := ih hsorted (id + 1)
      have hgt : id < lowestFreeLoop values (id + 1) := by
        rcases hvalue with heq | ⟨v, hv, heq⟩
        · omega
        · have := hle v hv
          omega
      refine ⟨fun hmem => ?_, .inr ?_⟩
      · rcases List.mem_cons.mp hmem with heq | hmem
        · omega
        · exact hnotMem hmem
      · rcases hvalue with heq | ⟨v, hv, heq⟩
        · exact ⟨id, List.mem_cons_self, heq⟩
        · exact ⟨v, List.mem_cons_of_mem _ hv, heq⟩

/-- The value found is not in use. -/
lemma findLowestFreeValue_notMem (values : List ℤ) (minValue : ℤ) :
    findLowestFreeValue values minValue ∉ values := by
  have h := (lowestFreeLoop_spec (List.pairwise_insertionSort (· ≤ ·) values) minValue).1
  rwa [List.mem_insertionSort] at h

end Topology

/-! ## What the methods do -/

/-- The interfaces of some border routers. -/
def interfacesOf (routers : List (String × BorderRouter J)) : List (String × Interface J) :=
  routers.flatMap fun e => e.2.interfaces.entries

/-- The interfaces of all border routers. -/
def Topo.interfaces (t : Topo J) : List (String × Interface J) :=
  interfacesOf t.borderRouters.entries

lemma interfacesOf_append (l l' : List (String × BorderRouter J)) :
    interfacesOf (l ++ l') = interfacesOf l ++ interfacesOf l' := List.flatMap_append

lemma interfacesOf_singleton (k : String) (br : BorderRouter J) :
    interfacesOf [(k, br)] = br.interfaces.entries := List.flatMap_singleton _ _

namespace Topology

/-- What is in use are the ids and the public addresses of all interfaces, if they can be read. -/
lemma inUse_eq_ok {routers : List (String × BorderRouter J)} {ids : List ℤ}
    {addrs : List (IPAddress × ℤ)} (h : inUse routers = .ok (ids, addrs)) :
    List.Forall₂ (fun e id => toInt 10 e.1.toList = .ok id) (interfacesOf routers) ids ∧
      List.Forall₂ (fun e a => ipPortFromStr e.2.publicAddr = .ok a) (interfacesOf routers)
        addrs := by
  induction routers generalizing ids addrs with
  | nil =>
    simp only [inUse, Except.ok.injEq, Prod.mk.injEq] at h
    obtain ⟨rfl, rfl⟩ := h
    exact ⟨.nil, .nil⟩
  | cons e rest ih =>
    obtain ⟨k, v⟩ := e
    rw [inUse] at h
    rcases hids : v.interfaces.keys.mapM fun k => toInt 10 k.toList with ex | ids₁
    · simp [hids, bind, Except.bind] at h
    rcases haddrs : v.interfaces.values.mapM fun interface => ipPortFromStr interface.publicAddr
      with ex | addrs₁
    · simp [hids, haddrs, bind, Except.bind] at h
    rcases hrest : inUse rest with ex | ⟨ids₂, addrs₂⟩
    · simp [hids, haddrs, hrest, bind, Except.bind] at h
    simp only [hids, haddrs, hrest, bind, Except.bind, pure, Except.pure, Except.ok.injEq,
      Prod.mk.injEq] at h
    obtain ⟨rfl, rfl⟩ := h
    obtain ⟨hids₂, haddrs₂⟩ := ih hrest
    have hids₁ := mapM_eq_ok.mp hids
    have haddrs₁ := mapM_eq_ok.mp haddrs
    rw [Dict.keys, List.forall₂_map_left_iff] at hids₁
    rw [Dict.values, List.forall₂_map_left_iff] at haddrs₁
    exact ⟨List.rel_append hids₁ hids₂, List.rel_append haddrs₁ haddrs₂⟩

/-- The interface that is added for a contract. -/
def newInterface (info : TopoInfoFromContract) (publicAddr : String) : Interface J where
  publicAddr
  remote := info.remoteUnderlay
  isdAs := info.remoteIa
  mtu := info.mtu
  linkTo := info.linkTo

/-- An interface is added when all addresses can be read and a port is free. -/
lemma addContractToTopo_eq_ok {self : Topology} {topo t : Topo J} {info : TopoInfoFromContract}
    (h : self.addContractToTopo topo info = .ok t) :
    ∃ ids addrs remoteIp remotePort publicIp port,
      inUse topo.borderRouters.entries = .ok (ids, addrs) ∧
      ipPortFromStr info.remoteUnderlay = .ok (remoteIp, remotePort) ∧
      self.router remoteIp = .ok publicIp ∧
      port = findLowestFreeValue ((addrs.filter (·.1 = publicIp)).map Prod.snd) self.minPort ∧
      port ≤ self.maxPort ∧
      t = { topo with
        borderRouters := topo.borderRouters.set (generateEsdxBrName topo.isdAs)
          { self.esdxBr topo with
            interfaces := (self.esdxBr topo).interfaces.set (toString (findLowestFreeValue ids))
              (newInterface info (ipPortToStr publicIp port)) } } := by
  unfold addContractToTopo at h
  rcases huse : inUse topo.borderRouters.entries with e | ⟨ids, addrs⟩
  · simp [huse, bind, Except.bind] at h
  rcases hremote : ipPortFromStr info.remoteUnderlay with e | ⟨remoteIp, remotePort⟩
  · simp [huse, hremote, bind, Except.bind] at h
  rcases hrouter : self.router remoteIp with e | publicIp
  · simp [huse, hremote, hrouter, bind, Except.bind] at h
  simp only [huse, hremote, hrouter, bind, Except.bind] at h
  split at h
  · simp [throw, throwThe, MonadExceptOf.throw] at h
  · rename_i hport
    simp only [pure, Except.pure, Except.ok.injEq] at h
    exact ⟨ids, addrs, remoteIp, remotePort, publicIp, _, rfl, rfl, hrouter, rfl, not_lt.mp hport,
      h.symm⟩

end Topology

end Esdx
