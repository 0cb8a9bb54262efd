import Esdx.Foundations.JsonReader
import Esdx.Reloader.Effects

/-!
# The text of the topology file

`activate` and `deactivate` read the whole file, change the value that it holds and write it anew.
Here they work on the text, which may hold anything.  On the text of a topology they do what they do
to the topology (`runFile_eq`), and an AS whose contracts have all ended has the file that it had
before the first of them (`runFile_restores`).
-/

namespace Esdx

open InetAddress

variable {F : Type}

/-! ## Values as the code uses them -/

/-- An exception of a method on the file.  `invalidAddress` and `badContract` are a `ValueError` and
a `RuntimeError` whose text shows a value that is no text. -/
inductive FileError (F : Type)
  | exc (e : Exc)
  | jsonDecodeError
  | typeError
  | attributeError
  | invalidAddress (v : Json F)
  | badContract (isdAs : Json F)

/-- `v[k]`. -/
def getItem (v : Json F) (k : String) : Except (FileError F) (Json F) :=
  match v with
  | .obj ms =>
    match (ms.find? (·.1 = k)).map Prod.snd with
    | some w => .ok w
    | none => .error (.exc (.keyError k))
  | _ => .error .typeError

/-- `v.items()`. -/
def items : Json F → Except (FileError F) (List (String × Json F))
  | .obj ms => .ok ms
  | _ => .error .attributeError

/-- `v[k] = w`. -/
def setItem (v : Json F) (k : String) (w : Json F) : Except (FileError F) (Json F) :=
  match v with
  | .obj ms => .ok (.obj (Dict.setEntries k w ms))
  | _ => .error .typeError

/-- `del v[k]`. -/
def delItem (v : Json F) (k : String) : Except (FileError F) (Json F) :=
  match v with
  | .obj ms =>
    if k ∈ ms.map Prod.fst then .ok (.obj (ms.filter (·.1 ≠ k))) else .error (.exc (.keyError k))
  | _ => .error .typeError

/-- `len(v)`. -/
def len : Json F → Except (FileError F) ℕ
  | .obj ms => .ok ms.length
  | .arr vs => .ok vs.length
  | .str s => .ok s.toList.length
  | _ => .error .typeError

/-- `v == s`. -/
def isText (v : Json F) (s : String) : Bool :=
  match v with
  | .str t => t = s
  | _ => false

/-- `ip_port_from_str` of a value. -/
def ipPortFromJson : Json F → Except (FileError F) (IPAddress × ℤ)
  | .str s => (ipPortFromStr s).mapError .exc
  | v => .error (.invalidAddress v)

/-! ## The methods on a value -/

namespace TopologyFile

/-- `_contract_info`. -/
def contractInfo (topo : Json F) (c : ContractMessage) :
    Except (FileError F) TopoInfoFromContract := do
  match ← getItem topo "isd_as" with
  | .str isdAs => (Topology.contractInfo isdAs c).mapError .exc
  | v => throw (.badContract v)

/-- `_generate_esdx_br_name`. -/
def generateEsdxBrName (topo : Json F) : Except (FileError F) String := do
  match ← getItem topo "isd_as" with
  | .str ia => return Topology.generateEsdxBrName ia
  | _ => throw .attributeError

/-- The loop of `_add_cotract_to_topo`, which reads the interface ids and the public addresses of
all border routers. -/
def inUse : List (String × Json F) → Except (FileError F) (List ℤ × List (IPAddress × ℤ))
  | [] => .ok ([], [])
  | (_, v) :: rest => do
    let interfaces ← items (← getItem v "interfaces")
    let ids ← interfaces.mapM fun e => (toInt 10 e.1.toList).mapError .exc
    let publics ← interfaces.mapM fun e => do getItem (← getItem e.2 "underlay") "public"
    let addrs ← publics.mapM ipPortFromJson
    let (ids', addrs') ← inUse rest
    return (ids ++ ids', addrs ++ addrs')

/-- A new ESDX router. -/
def newRouter (self : Topology) : Json F := .obj [
  ("internal_addr", .str (ipPortToStr self.internalAddrIp self.internalAddrPort)),
  ("interfaces", .obj [])]

/-- A new interface. -/
def newInterface (info : TopoInfoFromContract) (publicAddr : String) : Json F := .obj [
  ("underlay", .obj [("public", .str publicAddr), ("remote", .str info.remoteUnderlay)]),
  ("isd_as", .str info.remoteIa),
  ("mtu", .int info.mtu),
  ("link_to", .str info.linkTo)]

/-- `_add_cotract_to_topo`. -/
def addContractToTopo (self : Topology) (topo : Json F) (info : TopoInfoFromContract) :
    Except (FileError F) (Json F) := do
  let esdxBrName ← generateEsdxBrName topo
  let borderRouters ← getItem topo "border_routers"
  let routers ← items borderRouters
  let (ifidInuse, publicAddrs) ← inUse routers
  let esdxBr := ((routers.find? (·.1 = esdxBrName)).map Prod.snd).getD (newRouter self)
  let ifid := Topology.findLowestFreeValue ifidInuse
  let (remoteIp, _) ← (ipPortFromStr info.remoteUnderlay).mapError .exc
  let publicIp ← (self.router remoteIp).mapError .exc
  let ports := (publicAddrs.filter (·.1 = publicIp)).map Prod.snd
  let port := Topology.findLowestFreeValue ports self.minPort
  if self.maxPort < port then
    throw (.exc (.runtimeError ("could not find a free port for public ip " ++ strIp publicIp)))
  let interfaces ← setItem (← getItem esdxBr "interfaces") (toString ifid)
    (newInterface info (ipPortToStr publicIp port))
  setItem topo "border_routers"
    (← setItem borderRouters esdxBrName (← setItem esdxBr "interfaces" interfaces))

/-- The first interface of a router with the remote address. -/
def findInterface (remote : String) :
    List (String × Json F) → Except (FileError F) (Option String)
  | [] => .ok none
  | (ifid, iface) :: rest => do
    if isText (← getItem (← getItem iface "underlay") "remote") remote then return some ifid
    findInterface remote rest

/-- The first interface with the remote address, with its router. -/
def findRemote (remote : String) :
    List (String × Json F) → Except (FileError F) (Option (String × Json F × String))
  | [] => .ok none
  | (k, br) :: rest => do
    match ← findInterface remote (← items (← getItem br "interfaces")) with
    | some ifid => return some (k, br, ifid)
    | none => findRemote remote rest

/-- `_remove_interface_from_br`. -/
def removeInterfaceFromBr (topo : Json F) (info : TopoInfoFromContract) :
    Except (FileError F) (Json F) := do
  let borderRouters ← getItem topo "border_routers"
  match ← findRemote info.remoteUnderlay (← items borderRouters) with
  | some (k, br, ifid) =>
    let interfaces ← delItem (← getItem br "interfaces") ifid
    setItem topo "border_routers" (← setItem borderRouters k (← setItem br "interfaces" interfaces))
  | none => throw (.exc (.runtimeError ("interface with remote " ++ info.remoteUnderlay ++
      " not found in topology")))

/-- `_remove_interface`. -/
def removeInterface (topo : Json F) (info : TopoInfoFromContract) :
    Except (FileError F) (Json F) := do
  let topo ← removeInterfaceFromBr topo info
  let brId ← generateEsdxBrName topo
  let borderRouters ← getItem topo "border_routers"
  if (← len (← getItem (← getItem borderRouters brId) "interfaces")) = 0 then
    setItem topo "border_routers" (← delItem borderRouters brId)
  else return topo

/-- What a method writes to the file that holds a value. -/
def apply (self : Topology) (call : TopologyCall) (topo : Json F) :
    Except (FileError F) (Json F) := do
  match call with
  | .activate c => addContractToTopo self topo (← contractInfo topo c)
  | .deactivate c => removeInterface topo (← contractInfo topo c)

end TopologyFile

/-! ## The methods on the text -/

/-- `_load_topo`. -/
def loadTopo (ft : Json.FloatText F) (text : List Char) : Except (FileError F) (Json F) :=
  match Json.loads ft text with
  | some topo => .ok topo
  | none => .error .jsonDecodeError

/-- `activate` and `deactivate`, called while nobody else holds the lock. -/
def TopologyCall.onFile (ft : Json.FloatText F) (self : Topology) (call : TopologyCall) :
    Tx (List Char) (FileError F) Unit := do
  (self.lockAlone.mapError .exc : Except (FileError F) Unit)
  let text ← Tx.read
  let topo ← loadTopo ft text
  let topo ← TopologyFile.apply self call topo
  Tx.write (Json.dumps ft topo ++ ['\n'])

/-- Calls on one file, one after the other. -/
def runFile (ft : Json.FloatText F) (calls : List (Topology × TopologyCall)) (text : List Char) :
    List ((Topology × TopologyCall) × Except (FileError F) Unit) × List Char :=
  Machine.exec (fun i => TopologyCall.onFile ft i.1 i.2) calls text

/-! ## Lists of members -/

/-- A key that was set has its value, and the other keys keep theirs. -/
lemma getItem_setEntries (k k' : String) (w : Json F) (ms : List (String × Json F)) :
    getItem (.obj (Dict.setEntries k w ms)) k' =
      if k' = k then .ok w else getItem (.obj ms) k' := by
  unfold getItem
  induction ms with
  | nil =>
    by_cases hk : k' = k
    · simp [Dict.setEntries, hk]
    · simp [Dict.setEntries, hk, Ne.symm hk]
  | cons e ms ih =>
    by_cases he : e.1 = k <;> by_cases hk : k' = k
    · simp [Dict.setEntries, he, hk]
    · simp [Dict.setEntries, he, hk, Ne.symm hk]
    · subst hk
      simpa [Dict.setEntries, he] using ih
    · by_cases he' : e.1 = k'
      · simp [Dict.setEntries, he', hk]
      · simpa [Dict.setEntries, he, he', hk] using ih

/-- The dictionary of the values that `f` makes. -/
def members {α : Type} (f : α → Json F) (l : List (String × α)) : Json F :=
  .obj (l.map fun e => (e.1, f e.2))

section Members

variable {α : Type} (f : α → Json F)

/-- Setting a key to a value that `f` makes. -/
lemma setItem_members (l : List (String × α)) (k : String) (a : α) :
    setItem (members f l) k (f a) = .ok (members f (Dict.setEntries k a l)) := by
  suffices h : Dict.setEntries k (f a) (l.map fun e => (e.1, f e.2)) =
      (Dict.setEntries k a l).map fun e => (e.1, f e.2) by
    rw [members, setItem, h, members]
  induction l with
  | nil => rfl
  | cons e l ih =>
    by_cases he : e.1 = k
    · simp [Dict.setEntries, he]
    · simp [Dict.setEntries, he, ih]

/-- A key has the value that `f` makes. -/
lemma find?_members (d : Dict α) (k : String) :
    ((d.entries.map fun e => (e.1, f e.2)).find? (·.1 = k)).map Prod.snd = (d.get? k).map f := by
  rw [List.find?_map, Dict.get?, Option.map_map, Option.map_map]
  rfl

/-- The value of a key is read. -/
lemma getItem_members (d : Dict α) (k : String) :
    getItem (members f d.entries) k =
      match d.get? k with
      | some a => .ok (f a)
      | none => .error (.exc (.keyError k)) := by
  rw [members, getItem, find?_members]
  cases d.get? k <;> rfl

/-- Deleting a key that is there. -/
lemma delItem_members {d : Dict α} {k : String} (h : k ∈ d.keys) :
    delItem (members f d.entries) k = .ok (members f (d.erase k).entries) := by
  have hkeys : k ∈ (d.entries.map fun e => (e.1, f e.2)).map Prod.fst := by
    rw [List.map_map]
    exact h
  rw [members, delItem, if_pos hkeys, List.filter_map]
  rfl

end Members

/-! ## Errors -/

section Errors

variable {ε ε' α β : Type} (g : ε → ε')

/-- A value that is there is what a sequence goes on with. -/
lemma ok_bind (a : α) (k : α → Except ε β) : (Except.ok a >>= k) = k a := rfl

/-- Errors pass through a sequence. -/
lemma mapError_bind (x : Except ε α) (k : α → Except ε β) :
    (x >>= k).mapError g = x.mapError g >>= fun a => (k a).mapError g := by
  cases x <;> rfl

/-- Errors pass through a list. -/
lemma mapM_mapError (k : α → Except ε β) (l : List α) :
    l.mapM (fun a => (k a).mapError g) = (l.mapM k).mapError g := by
  induction l with
  | nil => rfl
  | cons a l ih =>
    rw [List.mapM_cons, List.mapM_cons, ih, mapError_bind]
    refine bind_congr fun b => ?_
    rw [mapError_bind]
    rfl

end Errors

/-! ## Topologies as values -/

/-- The value of an interface.  Those that were read from the file have all their members in
`other`, and those that were added have none there. -/
def Interface.json (i : Interface (Json F)) : Json F :=
  match i.other with
  | [] => TopologyFile.newInterface ⟨i.isdAs, i.remote, i.mtu, i.linkTo⟩ i.publicAddr
  | ms => .obj ms

/-- The members of a router.  The interfaces that they show are not looked at. -/
def BorderRouter.layout (br : BorderRouter (Json F)) : List (String × Json F) :=
  match br.other with
  | [] => [("internal_addr", .str br.internalAddr)]
  | ms => ms

/-- The value of a router. -/
def BorderRouter.json (br : BorderRouter (Json F)) : Json F :=
  .obj (Dict.setEntries "interfaces" (members Interface.json br.interfaces.entries) br.layout)

/-- The value of a topology.  All its members are in `other`, and the routers that they show are
not looked at. -/
def Topo.json (t : Topo (Json F)) : Json F :=
  .obj (Dict.setEntries "border_routers" (members BorderRouter.json t.borderRouters.entries)
    t.other)

/-- The value of the interface shows its addresses. -/
def Interface.Shown (i : Interface (Json F)) : Prop :=
  ∃ underlay, getItem i.json "underlay" = .ok underlay ∧
    getItem underlay "public" = .ok (.str i.publicAddr) ∧
    getItem underlay "remote" = .ok (.str i.remote)

/-- The value of the topology shows the local AS and the addresses of the interfaces. -/
structure Topo.Shown (t : Topo (Json F)) : Prop where
  isd_as : getItem (.obj t.other) "isd_as" = .ok (.str t.isdAs)
  interfaces : ∀ e ∈ t.interfaces, e.2.Shown

/-- An interface that was added shows its addresses. -/
lemma shown_newInterface (info : TopoInfoFromContract) (publicAddr : String) :
    (Topology.newInterface info publicAddr : Interface (Json F)).Shown := ⟨_, rfl, rfl, rfl⟩

/-- The interfaces of a router. -/
lemma getItem_router (br : BorderRouter (Json F)) :
    getItem br.json "interfaces" = .ok (members Interface.json br.interfaces.entries) := by
  rw [BorderRouter.json, getItem_setEntries, if_pos rfl]

/-- A router with other interfaces. -/
lemma setItem_router (br : BorderRouter (Json F)) (d : Dict (Interface (Json F))) :
    setItem br.json "interfaces" (members Interface.json d.entries) =
      .ok ({ br with interfaces := d } : BorderRouter (Json F)).json := by
  rw [BorderRouter.json, setItem, Dict.setEntries_setEntries]
  rfl

/-- The routers of a topology. -/
lemma getItem_routers (t : Topo (Json F)) :
    getItem t.json "border_routers" = .ok (members BorderRouter.json t.borderRouters.entries) := by
  rw [Topo.json, getItem_setEntries, if_pos rfl]

/-- A topology with other routers. -/
lemma setItem_routers (t : Topo (Json F)) (d : Dict (BorderRouter (Json F))) :
    setItem t.json "border_routers" (members BorderRouter.json d.entries) =
      .ok ({ t with borderRouters := d } : Topo (Json F)).json := by
  rw [Topo.json, setItem, Dict.setEntries_setEntries]
  rfl

/-- A router of a topology gets other interfaces. -/
lemma replaceRouter (t : Topo (Json F)) (k : String) (br : BorderRouter (Json F))
    (d : Dict (Interface (Json F))) :
    (do
      setItem t.json "border_routers"
        (← setItem (members BorderRouter.json t.borderRouters.entries) k
          (← setItem br.json "interfaces" (members Interface.json d.entries)))) =
      .ok ({ t with
        borderRouters := t.borderRouters.set k { br with interfaces := d } } :
          Topo (Json F)).json := by
  rw [setItem_router, ok_bind, setItem_members, ok_bind]
  exact setItem_routers t (t.borderRouters.set k { br with interfaces := d })

/-- A router of a topology gets one more interface. -/
lemma putInterface (t : Topo (Json F)) (k : String) (br : BorderRouter (Json F)) (ifid : String)
    (i : Interface (Json F)) :
    (do
      let interfaces ← setItem (← getItem br.json "interfaces") ifid i.json
      setItem t.json "border_routers"
        (← setItem (members BorderRouter.json t.borderRouters.entries) k
          (← setItem br.json "interfaces" interfaces))) =
      .ok ({ t with
        borderRouters := t.borderRouters.set k
          { br with interfaces := br.interfaces.set ifid i } } : Topo (Json F)).json := by
  rw [getItem_router, ok_bind, setItem_members, ok_bind]
  exact replaceRouter t k br (br.interfaces.set ifid i)

/-- The local AS of a topology. -/
lemma getItem_isdAs {t : Topo (Json F)} (h : getItem (.obj t.other) "isd_as" = .ok (.str t.isdAs)) :
    getItem t.json "isd_as" = .ok (.str t.isdAs) := by
  rw [Topo.json, getItem_setEntries, if_neg (by decide)]
  exact h

/-- The name of its ESDX router. -/
lemma generateEsdxBrName_json {t : Topo (Json F)}
    (h : getItem (.obj t.other) "isd_as" = .ok (.str t.isdAs)) :
    TopologyFile.generateEsdxBrName t.json = .ok (Topology.generateEsdxBrName t.isdAs) := by
  rw [TopologyFile.generateEsdxBrName, getItem_isdAs h]
  rfl

/-! ## The methods on the value of a topology -/

/-- What is in use is read from the value as from the topology. -/
lemma inUse_json {routers : List (String × BorderRouter (Json F))}
    (h : ∀ e ∈ interfacesOf routers, e.2.Shown) :
    TopologyFile.inUse (routers.map fun e => (e.1, e.2.json)) =
      (Topology.inUse routers).mapError .exc := by
  induction routers with
  | nil => rfl
  | cons e routers ih =>
    obtain ⟨k, br⟩ := e
    rw [interfacesOf, List.flatMap_cons] at h
    have hrest := ih fun e he => h e (List.mem_append_right _ he)
    have hids : (br.interfaces.entries.map fun e => (e.1, e.2.json)).mapM
        (fun e => (toInt 10 e.1.toList).mapError FileError.exc) =
          (br.interfaces.keys.mapM fun k => toInt 10 k.toList).mapError
            (FileError.exc (F := F)) := by
      rw [List.mapM_map, Dict.keys, List.mapM_map, ← mapM_mapError]
      rfl
    have hpublics : (br.interfaces.entries.map fun e => (e.1, e.2.json)).mapM
        (fun e => do getItem (← getItem e.2 "underlay") "public") =
          .ok (br.interfaces.values.map fun i => .str i.publicAddr) := by
      rw [mapM_eq_ok, Dict.values, List.map_map, List.forall₂_map_left_iff,
        List.forall₂_map_right_iff, List.forall₂_same]
      intro e he
      obtain ⟨underlay, hunderlay, hpublic, -⟩ := h e (List.mem_append_left _ he)
      simp only [hunderlay, bind, Except.bind]
      exact hpublic
    have haddrs : (br.interfaces.values.map fun i => Json.str i.publicAddr).mapM ipPortFromJson =
        (br.interfaces.values.mapM fun i => ipPortFromStr i.publicAddr).mapError
          (FileError.exc (F := F)) := by
      rw [List.mapM_map, ← mapM_mapError]
      rfl
    have hcons : TopologyFile.inUse (((k, br) :: routers).map fun e => (e.1, e.2.json)) = (do
        let ids ← (br.interfaces.entries.map fun e => (e.1, e.2.json)).mapM
          fun e => (toInt 10 e.1.toList).mapError FileError.exc
        let publics ← (br.interfaces.entries.map fun e => (e.1, e.2.json)).mapM
          fun e => do getItem (← getItem e.2 "underlay") "public"
        let addrs ← publics.mapM ipPortFromJson
        let (ids', addrs') ← TopologyFile.inUse (routers.map fun e => (e.1, e.2.json))
        return (ids ++ ids', addrs ++ addrs')) := by
      rw [List.map_cons, TopologyFile.inUse, getItem_router]
      rfl
    rw [hcons, hids, hpublics, hrest, Topology.inUse, mapError_bind]
    refine bind_congr fun ids => ?_
    change (do
      let addrs ← (br.interfaces.values.map fun i : Interface (Json F) =>
        Json.str i.publicAddr).mapM ipPortFromJson
      let (ids', addrs') ← (Topology.inUse routers).mapError FileError.exc
      return (ids ++ ids', addrs ++ addrs')) = _
    rw [haddrs, mapError_bind]
    refine bind_congr fun addrs => ?_
    rw [mapError_bind]
    rfl

/-- An interface with the remote address is found in the value as in the router. -/
lemma findInterface_json (remote : String) {l : List (String × Interface (Json F))}
    (h : ∀ e ∈ l, e.2.Shown) :
    TopologyFile.findInterface remote (l.map fun e => (e.1, e.2.json)) =
      .ok ((l.find? (·.2.remote = remote)).map Prod.fst) := by
  induction l with
  | nil => rfl
  | cons e l ih =>
    obtain ⟨underlay, hunderlay, -, hremote⟩ := h e List.mem_cons_self
    have hrest := ih fun e he => h e (List.mem_cons_of_mem _ he)
    rw [List.map_cons, TopologyFile.findInterface, hunderlay, List.find?_cons]
    simp only [bind, Except.bind, hremote, isText]
    by_cases heq : e.2.remote = remote
    · simp [heq, pure, Except.pure]
    · simp [heq, hrest]

/-- An interface with the remote address is found in the value as in the topology. -/
lemma findRemote_json (remote : String) {routers : List (String × BorderRouter (Json F))}
    (h : ∀ e ∈ interfacesOf routers, e.2.Shown) :
    TopologyFile.findRemote remote (routers.map fun e => (e.1, e.2.json)) =
      .ok ((Topology.findRemote remote routers).map fun r => (r.1, r.2.1.json, r.2.2)) := by
  induction routers with
  | nil => rfl
  | cons e routers ih =>
    obtain ⟨k, br⟩ := e
    rw [interfacesOf, List.flatMap_cons] at h
    have hrest := ih fun e he => h e (List.mem_append_right _ he)
    have hfirst : TopologyFile.findInterface remote
        (br.interfaces.entries.map fun e => (e.1, e.2.json)) =
          .ok ((br.interfaces.entries.find? (·.2.remote = remote)).map Prod.fst) :=
      findInterface_json remote fun e he => h e (List.mem_append_left _ he)
    have hcons : TopologyFile.findRemote remote
        (((k, br) :: routers).map fun e => (e.1, e.2.json)) = (do
          match ← TopologyFile.findInterface remote
              (br.interfaces.entries.map fun e => (e.1, e.2.json)) with
          | some ifid => return some (k, br.json, ifid)
          | none => TopologyFile.findRemote remote (routers.map fun e => (e.1, e.2.json))) := by
      rw [List.map_cons, TopologyFile.findRemote, getItem_router]
      rfl
    rw [hcons, hfirst, Topology.findRemote]
    rcases hfind : br.interfaces.entries.find? (·.2.remote = remote) with _ | ⟨ifid, i⟩
    · rw [hfind]
      exact hrest
    · rw [hfind]
      rfl

/-- What a method does, as values. -/
def onValue (x : Except Exc (Topo (Json F))) : Except (FileError F) (Json F) :=
  (x.map Topo.json).mapError .exc

/-- A contract is added to the value as to the topology. -/
lemma addContractToTopo_json (self : Topology) {t : Topo (Json F)} (h : t.Shown)
    (info : TopoInfoFromContract) :
    TopologyFile.addContractToTopo self t.json info =
      onValue (self.addContractToTopo t info) := by
  have hbr : (((t.borderRouters.entries.map fun e => (e.1, e.2.json)).find?
      (·.1 = Topology.generateEsdxBrName t.isdAs)).map Prod.snd).getD
        (TopologyFile.newRouter self) = (self.esdxBr t).json := by
    rw [find?_members, Topology.esdxBr]
    cases t.borderRouters.get? (Topology.generateEsdxBrName t.isdAs) <;> rfl
  have hvalue : TopologyFile.addContractToTopo self t.json info = (do
      let (ifidInuse, publicAddrs) ←
        TopologyFile.inUse (t.borderRouters.entries.map fun e => (e.1, e.2.json))
      let ifid := Topology.findLowestFreeValue ifidInuse
      let (remoteIp, _) ← (ipPortFromStr info.remoteUnderlay).mapError .exc
      let publicIp ← (self.router remoteIp).mapError .exc
      let ports := (publicAddrs.filter (·.1 = publicIp)).map Prod.snd
      let port := Topology.findLowestFreeValue ports self.minPort
      if self.maxPort < port then
        throw (.exc (.runtimeError ("could not find a free port for public ip " ++ strIp publicIp)))
      let interfaces ← setItem (← getItem (self.esdxBr t).json "interfaces") (toString ifid)
        (TopologyFile.newInterface info (ipPortToStr publicIp port))
      setItem t.json "border_routers"
        (← setItem (members BorderRouter.json t.borderRouters.entries)
          (Topology.generateEsdxBrName t.isdAs)
            (← setItem (self.esdxBr t).json "interfaces" interfaces))) := by
    rw [TopologyFile.addContractToTopo, generateEsdxBrName_json h.isd_as, getItem_routers, ← hbr]
    rfl
  rw [hvalue, inUse_json h.interfaces, Topology.addContractToTopo]
  rcases Topology.inUse t.borderRouters.entries with e | ⟨ids, addrs⟩
  · rfl
  rcases hremote : ipPortFromStr info.remoteUnderlay with e | ⟨remoteIp, remotePort⟩
  · rfl
  rcases hrouter : self.router remoteIp with e | publicIp
  · simp only [bind, Except.bind, Except.mapError, onValue, hrouter, Except.map]
  simp only [bind, Except.bind, Except.mapError, onValue, hrouter]
  split
  · rfl
  exact putInterface t _ (self.esdxBr t) _ (Topology.newInterface info _)

/-- An interface is removed from the value as from the topology. -/
lemma removeInterface_json {t : Topo (Json F)} (h : t.Shown) (info : TopoInfoFromContract) :
    TopologyFile.removeInterface t.json info = onValue (Topology.removeInterface t info) := by
  have hfind := findRemote_json info.remoteUnderlay h.interfaces
  have hfrom : TopologyFile.removeInterfaceFromBr t.json info = (do
      match ← TopologyFile.findRemote info.remoteUnderlay
          (t.borderRouters.entries.map fun e => (e.1, e.2.json)) with
      | some (k, br, ifid) =>
        let interfaces ← delItem (← getItem br "interfaces") ifid
        setItem t.json "border_routers"
          (← setItem (members BorderRouter.json t.borderRouters.entries) k
            (← setItem br "interfaces" interfaces))
      | none => throw (.exc (.runtimeError ("interface with remote " ++ info.remoteUnderlay ++
          " not found in topology")))) := by
    rw [TopologyFile.removeInterfaceFromBr, getItem_routers]
    rfl
  rw [hfind] at hfrom
  rcases hremote : Topology.findRemote info.remoteUnderlay t.borderRouters.entries with
    _ | ⟨k, br, ifid⟩
  · rw [hremote] at hfrom
    rw [TopologyFile.removeInterface, hfrom, Topology.removeInterface,
      Topology.removeInterfaceFromBr, hremote]
    rfl
  obtain ⟨pre, post, hsplit, -, i, hi, -⟩ := findRemote_eq_some hremote
  have hifid : ifid ∈ br.interfaces.keys := List.mem_map_of_mem hi
  have hremoved : TopologyFile.removeInterfaceFromBr t.json info = .ok ({ t with
      borderRouters := t.borderRouters.set k
        { br with interfaces := br.interfaces.erase ifid } } : Topo (Json F)).json := by
    rw [hfrom, hremote, Option.map_some, ok_bind]
    dsimp only
    rw [getItem_router, ok_bind, delItem_members _ hifid, ok_bind]
    exact replaceRouter t k br (br.interfaces.erase ifid)
  rw [removeInterface_eq hremote, TopologyFile.removeInterface, hremoved, ok_bind]
  generalize hrouters : t.borderRouters.set k { br with interfaces := br.interfaces.erase ifid } =
    routers
  have hname : TopologyFile.generateEsdxBrName
      ({ t with borderRouters := routers } : Topo (Json F)).json =
        .ok (Topology.generateEsdxBrName t.isdAs) := generateEsdxBrName_json h.isd_as
  rw [hname, ok_bind, getItem_routers, ok_bind, getItem_members]
  dsimp only
  rcases hesdx : routers.get? (Topology.generateEsdxBrName t.isdAs) with _ | esdx
  · rfl
  have hmem : Topology.generateEsdxBrName t.isdAs ∈ routers.keys := by
    by_contra hnotMem
    simp [Dict.get?_eq_none.mpr hnotMem] at hesdx
  dsimp only
  rw [ok_bind, getItem_router, ok_bind]
  have hlen : len (members Interface.json esdx.interfaces.entries) =
      (.ok esdx.interfaces.entries.length : Except (FileError F) ℕ) := by
    rw [members, len, List.length_map]
  rw [hlen, ok_bind]
  split
  · rw [delItem_members _ hmem, ok_bind]
    exact setItem_routers _ (routers.erase _)
  · rfl

/-- **One change.**  A method does to the value of a topology what it does to the topology, with the
same exceptions. -/
lemma apply_json (self : Topology) (call : TopologyCall) {t : Topo (Json F)} (h : t.Shown) :
    TopologyFile.apply self call t.json = onValue (call.apply self t) := by
  have hinfo : ∀ c, TopologyFile.contractInfo t.json c =
      (Topology.contractInfo t.isdAs c).mapError (FileError.exc (F := F)) := by
    intro c
    rw [TopologyFile.contractInfo, getItem_isdAs h.isd_as]
    rfl
  cases call with
  | activate c =>
    rw [TopologyFile.apply, TopologyCall.apply, Topology.activated, hinfo]
    rcases Topology.contractInfo t.isdAs c with e | info
    · rfl
    · exact addContractToTopo_json self h info
  | deactivate c =>
    rw [TopologyFile.apply, TopologyCall.apply, Topology.deactivated, hinfo]
    rcases Topology.contractInfo t.isdAs c with e | info
    · rfl
    · exact removeInterface_json h info

/-! ## What is written -/

/-- The interfaces after a router was set are those of this router or were there. -/
lemma mem_interfacesOf_set {J : Type} {d : Dict (BorderRouter J)} {k : String} {br : BorderRouter J}
    {e : String × Interface J} (h : e ∈ interfacesOf (d.set k br).entries) :
    e ∈ br.interfaces.entries ∨ e ∈ interfacesOf d.entries := by
  obtain ⟨r, hr, he⟩ := List.mem_flatMap.mp h
  rcases Dict.mem_setEntries hr with rfl | hr
  · exact .inl he
  · exact .inr (List.mem_flatMap.mpr ⟨r, hr, he⟩)

/-- A changed topology shows what a method reads of it. -/
lemma Topo.Shown.apply {self : Topology} {call : TopologyCall} {t t' : Topo (Json F)}
    (h : t.Shown) (happly : call.apply self t = .ok t') : t'.Shown := by
  cases call with
  | activate c =>
    rw [TopologyCall.apply, Topology.activated] at happly
    rcases hinfo : Topology.contractInfo t.isdAs c with e | info
    · simp [hinfo, bind, Except.bind] at happly
    simp only [hinfo, ok_bind] at happly
    obtain ⟨ids, addrs, remoteIp, remotePort, publicIp, port, -, -, -, -, -, rfl⟩ :=
      Topology.addContractToTopo_eq_ok happly
    refine ⟨h.isd_as, fun e he => ?_⟩
    rcases mem_interfacesOf_set he with he | he
    · rcases Dict.mem_setEntries he with rfl | he
      · exact shown_newInterface info _
      · exact h.interfaces e (Topology.mem_interfaces_of_esdxBr he)
    · exact h.interfaces e he
  | deactivate c =>
    rw [TopologyCall.apply, Topology.deactivated] at happly
    rcases hinfo : Topology.contractInfo t.isdAs c with e | info
    · simp [hinfo, bind, Except.bind] at happly
    simp only [hinfo, ok_bind] at happly
    rcases hfind : Topology.findRemote info.remoteUnderlay t.borderRouters.entries with
      _ | ⟨k, br, ifid⟩
    · exact absurd happly (removeInterface_of_none hfind t')
    obtain ⟨pre, post, hsplit, -⟩ := findRemote_eq_some hfind
    have hset : ∀ e ∈ interfacesOf (t.borderRouters.set k
        { br with interfaces := br.interfaces.erase ifid }).entries, e.2.Shown := by
      intro e he
      rcases mem_interfacesOf_set he with he | he
      · refine h.interfaces e (List.mem_flatMap.mpr ⟨(k, br), ?_, (List.mem_filter.mp he).1⟩)
        rw [hsplit]
        simp
      · exact h.interfaces e he
    rw [removeInterface_eq hfind] at happly
    dsimp only at happly
    split at happly
    · simp at happly
    · split at happly
      · obtain rfl := Except.ok.inj happly
        refine ⟨h.isd_as, fun e he => ?_⟩
        obtain ⟨r, hr, he⟩ := List.mem_flatMap.mp he
        exact hset e (List.mem_flatMap.mpr ⟨r, (List.mem_filter.mp hr).1, he⟩)
      · obtain rfl := Except.ok.inj happly
        exact ⟨h.isd_as, hset⟩

/-- A sequence that succeeds succeeds in both parts. -/
lemma exists_of_bind {ε α β : Type} {x : Except ε α} {k : α → Except ε β} {b : β}
    (h : (x >>= k) = .ok b) : ∃ a, x = .ok a ∧ k a = .ok b := by
  rcases x with e | a
  · simp [bind, Except.bind] at h
  · exact ⟨a, rfl, h⟩

section Wf

variable {v w v' : Json F} {k : String}

/-- The value of a key is well formed. -/
lemma wf_getItem (h : v.Wf) (hget : getItem v k = .ok w) : w.Wf := by
  cases h with
  | obj hkeys h =>
    rename_i ms
    rw [getItem] at hget
    rcases hfind : ms.find? (fun m => decide (m.1 = k)) with _ | m
    · simp [hfind] at hget
    · rw [hfind] at hget
      obtain rfl := Except.ok.inj hget
      exact h m (List.mem_of_find?_eq_some hfind)
  | _ => simp [getItem] at hget

/-- A dictionary with one more key is well formed. -/
lemma wf_setItem (h : v.Wf) (hw : w.Wf) (hset : setItem v k w = .ok v') : v'.Wf := by
  cases h with
  | obj hkeys h =>
    obtain rfl := Except.ok.inj hset
    refine .obj (Dict.nodup_setEntries hkeys) fun m hm => ?_
    rcases Dict.mem_setEntries hm with rfl | hm
    · exact hw
    · exact h m hm
  | _ => simp [setItem] at hset

/-- A dictionary with one key less is well formed. -/
lemma wf_delItem (h : v.Wf) (hdel : delItem v k = .ok v') : v'.Wf := by
  cases h with
  | obj hkeys h =>
    rw [delItem] at hdel
    split at hdel
    · obtain rfl := Except.ok.inj hdel
      exact .obj (hkeys.sublist (List.filter_sublist.map _)) fun m hm =>
        h m (List.mem_filter.mp hm).1
    · simp at hdel
  | _ => simp [delItem] at hdel

/-- The values of a dictionary are well formed. -/
lemma wf_items {ms : List (String × Json F)} (h : v.Wf) (hitems : items v = .ok ms) :
    ∀ m ∈ ms, m.2.Wf := by
  cases h with
  | obj hkeys h =>
    obtain rfl := Except.ok.inj hitems
    exact h
  | _ => simp [items] at hitems

/-- A new interface is well formed. -/
lemma wf_newInterface (info : TopoInfoFromContract) (publicAddr : String) :
    (TopologyFile.newInterface info publicAddr : Json F).Wf := by
  have hunderlay : (Json.obj [("public", .str publicAddr), ("remote", .str info.remoteUnderlay)] :
      Json F).Wf := by
    refine .obj (by simp) fun m hm => ?_
    simp only [List.mem_cons, List.not_mem_nil, or_false] at hm
    rcases hm with rfl | rfl
    · exact .str _
    · exact .str _
  refine .obj (by simp) fun m hm => ?_
  simp only [List.mem_cons, List.not_mem_nil, or_false] at hm
  rcases hm with rfl | rfl | rfl | rfl
  · exact hunderlay
  · exact .str _
  · exact .int _
  · exact .str _

/-- A new router is well formed. -/
lemma wf_newRouter (self : Topology) : (TopologyFile.newRouter self : Json F).Wf := by
  refine .obj (by simp) fun m hm => ?_
  simp only [List.mem_cons, List.not_mem_nil, or_false] at hm
  rcases hm with rfl | rfl
  · exact .str _
  · exact .obj (by simp) (by simp)

end Wf

/-- A router that is found belongs to the topology. -/
lemma mem_of_findRemote {remote k ifid : String} {br : Json F} {routers : List (String × Json F)}
    (h : TopologyFile.findRemote remote routers = .ok (some (k, br, ifid))) :
    (k, br) ∈ routers := by
  induction routers with
  | nil => simp [TopologyFile.findRemote] at h
  | cons e routers ih =>
    obtain ⟨k', br'⟩ := e
    rw [TopologyFile.findRemote] at h
    obtain ⟨interfaces, -, h⟩ := exists_of_bind h
    obtain ⟨ms, -, h⟩ := exists_of_bind h
    obtain ⟨found, -, h⟩ := exists_of_bind h
    cases found with
    | none => exact List.mem_cons_of_mem _ (ih h)
    | some ifid' =>
      obtain ⟨rfl, rfl, rfl⟩ : k' = k ∧ br' = br ∧ ifid' = ifid := by simpa using Except.ok.inj h
      exact List.mem_cons_self

/-- **Well-formedness.**  Whatever the file holds, a method turns a well-formed value into a
well-formed one. -/
lemma wf_apply {self : Topology} {call : TopologyCall} {v v' : Json F} (h : v.Wf)
    (happly : TopologyFile.apply self call v = .ok v') : v'.Wf := by
  cases call with
  | activate c =>
    obtain ⟨info, -, hadd⟩ := exists_of_bind happly
    rw [TopologyFile.addContractToTopo] at hadd
    obtain ⟨name, -, hadd⟩ := exists_of_bind hadd
    obtain ⟨borderRouters, hrouters, hadd⟩ := exists_of_bind hadd
    obtain ⟨routers, hitems, hadd⟩ := exists_of_bind hadd
    obtain ⟨⟨ids, addrs⟩, -, hadd⟩ := exists_of_bind hadd
    obtain ⟨⟨remoteIp, remotePort⟩, -, hadd⟩ := exists_of_bind hadd
    obtain ⟨publicIp, -, hadd⟩ := exists_of_bind hadd
    dsimp only at hadd
    split at hadd
    · simp [throw, throwThe, MonadExceptOf.throw, bind, Except.bind] at hadd
    obtain ⟨old, hold, hadd⟩ := exists_of_bind hadd
    obtain ⟨interfaces, hinterfaces, hadd⟩ := exists_of_bind hadd
    obtain ⟨esdxBr, hesdxBr, hadd⟩ := exists_of_bind hadd
    obtain ⟨borderRouters', hrouters', hadd⟩ := exists_of_bind hadd
    have hwf := wf_getItem h hrouters
    have hbr : (((routers.find? (·.1 = name)).map Prod.snd).getD
        (TopologyFile.newRouter self)).Wf := by
      rcases hfind : routers.find? (·.1 = name) with _ | m
      · rw [hfind]
        exact wf_newRouter self
      · rw [hfind]
        exact wf_items hwf hitems m (List.mem_of_find?_eq_some hfind)
    have hinterfaces' := wf_setItem (wf_getItem hbr hold) (wf_newInterface info _) hinterfaces
    exact wf_setItem h (wf_setItem hwf (wf_setItem hbr hinterfaces' hesdxBr) hrouters') hadd
  | deactivate c =>
    obtain ⟨info, -, hremove⟩ := exists_of_bind happly
    rw [TopologyFile.removeInterface] at hremove
    obtain ⟨topo, hfrom, hremove⟩ := exists_of_bind hremove
    have htopo : topo.Wf := by
      rw [TopologyFile.removeInterfaceFromBr] at hfrom
      obtain ⟨borderRouters, hrouters, hfrom⟩ := exists_of_bind hfrom
      obtain ⟨routers, hitems, hfrom⟩ := exists_of_bind hfrom
      obtain ⟨found, hfound, hfrom⟩ := exists_of_bind hfrom
      have hwf := wf_getItem h hrouters
      match found with
      | none => simp [throw, throwThe, MonadExceptOf.throw] at hfrom
      | some (k, br, ifid) =>
        obtain ⟨old, hold, hfrom⟩ := exists_of_bind hfrom
        obtain ⟨interfaces, hinterfaces, hfrom⟩ := exists_of_bind hfrom
        obtain ⟨br', hbr', hfrom⟩ := exists_of_bind hfrom
        obtain ⟨borderRouters', hrouters', hfrom⟩ := exists_of_bind hfrom
        have hbr := wf_items hwf hitems _ (mem_of_findRemote hfound)
        have hinterfaces' := wf_delItem (wf_getItem hbr hold) hinterfaces
        exact wf_setItem h (wf_setItem hwf (wf_setItem hbr hinterfaces' hbr') hrouters') hfrom
    obtain ⟨brId, -, hremove⟩ := exists_of_bind hremove
    obtain ⟨borderRouters, hrouters, hremove⟩ := exists_of_bind hremove
    obtain ⟨br, -, hremove⟩ := exists_of_bind hremove
    obtain ⟨interfaces, -, hremove⟩ := exists_of_bind hremove
    obtain ⟨n, -, hremove⟩ := exists_of_bind hremove
    split at hremove
    · obtain ⟨borderRouters', hrouters', hremove⟩ := exists_of_bind hremove
      exact wf_setItem htopo (wf_delItem (wf_getItem htopo hrouters) hrouters') hremove
    · obtain rfl := Except.ok.inj hremove
      exact htopo

/-! ## Runs -/

section Runs

variable (ft : Json.FloatText F)

/-- The text is that of the topology. -/
structure Holds (text : List Char) (t : Topo (Json F)) : Prop where
  reads : Json.loads ft text = some t.json
  shown : t.Shown

variable {ft} {text : List Char} {t t' : Topo (Json F)} {self : Topology} {call : TopologyCall}

/-- The text that is written is that of the changed topology. -/
lemma Holds.write (h : Holds ft text t) (happly : call.apply self t = .ok t') :
    Holds ft (Json.dumps ft t'.json ++ ['\n']) t' := by
  have hvalue : TopologyFile.apply self call t.json = .ok t'.json := by
    rw [apply_json self call h.shown, happly]
    rfl
  exact ⟨Json.loads_dumps ft (wf_apply (Json.loads_wf ft h.reads) hvalue) (.inr rfl),
    h.shown.apply happly⟩

/-- A call that succeeds on the topology writes its text. -/
lemma Holds.onFile_ok (h : Holds ft text t) {u : Unit} (hcall : call.alone self t = (.ok u, t')) :
    call.onFile ft self text = (.ok u, Json.dumps ft t'.json ++ ['\n']) := by
  obtain ⟨htried, happly⟩ := TopologyCall.alone_eq_ok.mp hcall
  have hlock : self.lockAlone = .ok () := if_neg (by omega)
  have hload : loadTopo ft text = .ok t.json := by rw [loadTopo, h.reads]
  have hvalue : TopologyFile.apply self call t.json = .ok t'.json := by
    rw [apply_json self call h.shown, happly]
    rfl
  unfold TopologyCall.onFile
  rw [hlock]
  refine Tx.bind_eq_ok.mpr ⟨(), text, rfl, Tx.bind_read_eq_ok.mpr ?_⟩
  exact Tx.bind_liftM_eq_ok.mpr ⟨_, hload, Tx.bind_liftM_eq_ok.mpr ⟨_, hvalue, rfl⟩⟩

/-- A call that fails on the topology fails on its text and leaves it alone. -/
lemma Holds.onFile_error (h : Holds ft text t) {e : Exc}
    (hcall : call.alone self t = (.error e, t')) :
    call.onFile ft self text = (.error (.exc e), text) := by
  have hload : loadTopo ft text = .ok t.json := by rw [loadTopo, h.reads]
  unfold TopologyCall.alone at hcall
  unfold TopologyCall.onFile
  refine Tx.bind_eq_error.mpr ?_
  rcases Tx.bind_eq_error.mp hcall with hlocked | ⟨u, s, hlocked, hcall⟩
  · rw [(Tx.liftM_eq_error.mp hlocked).1]
    exact .inl rfl
  obtain ⟨hlock, rfl⟩ := Tx.liftM_eq_ok.mp hlocked
  rw [hlock]
  rcases Tx.bind_eq_error.mp hcall with hread | ⟨t₁, s, hread, hcall⟩
  · simp at hread
  obtain ⟨rfl, rfl⟩ := Tx.read_eq_ok.mp hread
  rcases Tx.bind_eq_error.mp hcall with happly | ⟨_, _, _, hwrite⟩
  · have hvalue : TopologyFile.apply self call t.json = .error (.exc e) := by
      rw [apply_json self call h.shown, (Tx.liftM_eq_error.mp happly).1]
      rfl
    refine .inr ⟨(), text, rfl, Tx.bind_eq_error.mpr (.inr ⟨text, text, rfl, ?_⟩)⟩
    refine Tx.bind_eq_error.mpr (.inr ⟨t.json, text, Tx.liftM_eq_ok.mpr ⟨hload, rfl⟩, ?_⟩)
    exact Tx.bind_eq_error.mpr (.inl (Tx.liftM_eq_error.mpr ⟨hvalue, rfl⟩))
  · simp at hwrite

/-- One more call starts from the text that the others leave behind. -/
lemma runFile_concat (ft : Json.FloatText F) (calls : List (Topology × TopologyCall))
    (self : Topology) (call : TopologyCall) (text : List Char) :
    runFile ft (calls ++ [(self, call)]) text =
      ((runFile ft calls text).1 ++
          [((self, call), (call.onFile ft self (runFile ft calls text).2).1)],
        (call.onFile ft self (runFile ft calls text).2).2) :=
  Machine.exec_append_singleton
    (fun i : Topology × TopologyCall => TopologyCall.onFile ft i.1 i.2) calls (self, call) text

/-- **The file is the topology.**  Calls on the text of a topology are answered as calls on the
topology.  The file can be read at any time, and it is the text of the topology that they have made,
or what it was as long as none of them has succeeded. -/
theorem runFile_eq (h : Holds ft text t) (calls : List (Topology × TopologyCall)) :
    let r := runReloader calls t
    (runFile ft calls text).1 = r.1.map (fun i => (i.1, i.2.mapError .exc)) ∧
    (runFile ft calls text).2 =
      (if r.1.any (·.2.isOk) then Json.dumps ft r.2.json ++ ['\n'] else text) ∧
    Json.loads ft (runFile ft calls text).2 = some r.2.json := by
  suffices hrun : (runFile ft calls text).1 =
        (runReloader calls t).1.map (fun i => (i.1, i.2.mapError .exc)) ∧
      (runFile ft calls text).2 = (if (runReloader calls t).1.any (·.2.isOk) then
        Json.dumps ft (runReloader calls t).2.json ++ ['\n'] else text) ∧
      Holds ft (runFile ft calls text).2 (runReloader calls t).2 from
    ⟨hrun.1, hrun.2.1, hrun.2.2.reads⟩
  induction calls using List.reverseRecOn with
  | nil => exact ⟨rfl, rfl, h⟩
  | append_singleton calls i ih =>
    obtain ⟨self, call⟩ := i
    obtain ⟨hanswers, htext, hholds⟩ := ih
    rw [runFile_concat, runReloader_concat, hanswers, List.map_append, List.any_append]
    rcases hcall : call.alone self (runReloader calls t).2 with ⟨e | u, t'⟩
    · rw [hholds.onFile_error hcall, TopologyCall.alone_error hcall]
      refine ⟨rfl, ?_, hholds⟩
      simp only [List.any_cons, List.any_nil, Except.isOk, Except.toBool, Bool.or_false]
      exact htext
    · rw [hholds.onFile_ok hcall]
      refine ⟨rfl, ?_, hholds.write (TopologyCall.alone_eq_ok.mp hcall).2⟩
      simp [Except.isOk, Except.toBool]

end Runs

/-! ## Contracts that have ended -/

/-- What a call does to the remote addresses of the active contracts. -/
def trackRemote {ε : Type} (remotes : List String) :
    (Topology × TopologyCall) × Except ε Unit → List String
  | ((_, .activate c), .ok _) => remotes ++ [c.brAddress]
  | ((_, .deactivate c), .ok _) => remotes.erase c.brAddress
  | (_, .error _) => remotes

/-- The remote addresses of the contracts that are active after a trace, in the order of their
activation. -/
def remotesAfter {ε : Type} (tr : List ((Topology × TopologyCall) × Except ε Unit)) : List String :=
  tr.foldl trackRemote []

/-- One more call changes the addresses by what it did. -/
lemma remotesAfter_concat {ε : Type} (tr : List ((Topology × TopologyCall) × Except ε Unit))
    (i : (Topology × TopologyCall) × Except ε Unit) :
    remotesAfter (tr ++ [i]) = trackRemote (remotesAfter tr) i := by
  rw [remotesAfter, List.foldl_append]
  rfl

namespace HasEsdx

variable {J : Type} {start t t' : Topo J} {esdx : List (String × Interface J)}
  {c : ContractMessage}

/-- Without interfaces in the ESDX router the topology is that of the start. -/
lemma eq_start (h : HasEsdx start t []) : t = start := by
  rcases h.routers with ⟨-, hrouters⟩ | ⟨br, hne, -⟩
  · obtain ⟨isdAs, routers, other⟩ := t
    obtain rfl : isdAs = start.isdAs := h.isd_as
    obtain rfl : other = start.other := h.other
    obtain rfl : routers = start.borderRouters := Dict.ext hrouters
    rfl
  · exact absurd rfl hne

/-- A contract that is activated gets one more interface. -/
lemma activated {self : Topology} (h : HasEsdx start t esdx)
    (hname : Topology.generateEsdxBrName start.isdAs ∉ start.borderRouters.keys)
    (happly : self.activated c t = .ok t') :
    ∃ e, e.2.remote = c.brAddress ∧ HasEsdx start t' (esdx ++ [e]) := by
  obtain ⟨info, hinfo, hadd⟩ := exists_of_bind happly
  obtain ⟨ids, addrs, remoteIp, -, publicIp, port, huse, -, -, -, -, rfl⟩ :=
    Topology.addContractToTopo_eq_ok hadd
  obtain ⟨hids, -⟩ := Topology.inUse_eq_ok huse
  obtain ⟨hesdx, hset⟩ := h.esdxBr_interfaces hname self
  have hkey : toString (Topology.findLowestFreeValue ids) ∉ (self.esdxBr t).interfaces.keys := by
    rw [Dict.keys, List.mem_map]
    rintro ⟨e, he, heq⟩
    exact id_free hids (Topology.mem_interfaces_of_esdxBr he) (heq ▸ toInt_toString _)
  have hentries := Dict.set_of_notMem (a := Topology.newInterface info (ipPortToStr publicIp port))
    hkey
  rw [hesdx] at hentries
  exact ⟨_, (contractInfo_standsFor hinfo).1, h.isd_as, h.other,
    .inr ⟨_, by simp, hentries, hset _⟩⟩

/-- A contract can be deactivated exactly when its address is that of an interface, which is then
taken out. -/
lemma deactivated (h : HasEsdx start t esdx)
    (hstock : ∀ e ∈ start.interfaces, e.2.remote ≠ c.brAddress) :
    ((∃ t', Topology.deactivated c t = .ok t') ↔
      (start.isdAs = c.offer.iaid ∨ start.isdAs = c.buyerIaid) ∧
        c.brAddress ∈ esdx.map (·.2.remote)) ∧
    ∀ t', Topology.deactivated c t = .ok t' → ∃ esdx', HasEsdx start t' esdx' ∧
      esdx'.map (·.2.remote) = (esdx.map (·.2.remote)).erase c.brAddress := by
  rcases hinfo : Topology.contractInfo t.isdAs c with e | info
  · have hparty : ¬(start.isdAs = c.offer.iaid ∨ start.isdAs = c.buyerIaid) := by
      rw [← h.isd_as, ← exists_contractInfo_iff, hinfo]
      simp
    have hfails : ∀ t', Topology.deactivated c t ≠ .ok t' := by
      simp [Topology.deactivated, hinfo, bind, Except.bind]
    refine ⟨iff_of_false ?_ ?_, fun t' ht' => absurd ht' (hfails t')⟩
    · rintro ⟨t', ht'⟩
      exact hfails t' ht'
    · rintro ⟨hp, -⟩
      exact hparty hp
  have hparty : start.isdAs = c.offer.iaid ∨ start.isdAs = c.buyerIaid := by
    rw [← h.isd_as, ← exists_contractInfo_iff]
    exact ⟨info, hinfo⟩
  have hremote := (contractInfo_standsFor hinfo).1
  have hdeactivated : Topology.deactivated c t = Topology.removeInterface t info := by
    rw [Topology.deactivated, hinfo]
    rfl
  rw [hdeactivated]
  rw [← hremote] at hstock ⊢
  by_cases hmem : info.remoteUnderlay ∈ esdx.map (·.2.remote)
  · obtain ⟨pre', post', hnotMem, hsplit, herase⟩ := List.exists_erase_eq hmem
    obtain ⟨pre, rest, rfl, hpre, hrest⟩ := List.map_eq_append_iff.mp hsplit
    obtain ⟨e, post, rfl, he, hpost⟩ := List.map_eq_cons_iff.mp hrest
    have hfirst : ∀ e' ∈ pre, e'.2.remote ≠ info.remoteUnderlay := fun e' he' heq =>
      hnotMem (hpre ▸ heq ▸ List.mem_map_of_mem he')
    obtain ⟨t', hremove, hesdx⟩ := h.remove he hfirst hstock
    refine ⟨iff_of_true ⟨t', hremove⟩ ⟨hparty, hmem⟩, fun t'' ht'' => ⟨pre ++ post, ?_, ?_⟩⟩
    · obtain rfl := Except.ok.inj (hremove.symm.trans ht'')
      exact hesdx
    · rw [herase, List.map_append, hpre, hpost]
  · have hfails : ∀ t', Topology.removeInterface t info ≠ .ok t' := fun t' =>
      h.remove_error hstock fun e he heq => hmem (heq ▸ List.mem_map_of_mem he)
    refine ⟨iff_of_false ?_ ?_, fun t' ht' => absurd ht' (hfails t')⟩
    · rintro ⟨t', ht'⟩
      exact hfails t' ht'
    · rintro ⟨-, hm⟩
      exact hmem hm

end HasEsdx

/-- **The file comes back.**  An AS starts with a file without an ESDX router.  After any calls
whose contracts have addresses that are new to the file, there is one interface in the ESDX router
for every active contract, each contract can be deactivated exactly while its address is active, and
when no contract is active the file is the one of the start, or its value as Python prints it. -/
theorem runFile_restores {ft : Json.FloatText F} {text : List Char} {start : Topo (Json F)}
    (h : Holds ft text start)
    (hname : Topology.generateEsdxBrName start.isdAs ∉ start.borderRouters.keys)
    (calls : List (Topology × TopologyCall))
    (hstock : ∀ i ∈ calls, ∀ e ∈ start.interfaces, e.2.remote ≠ i.2.contract.brAddress) :
    let r := runFile ft calls text
    (∃ t esdx, Json.loads ft r.2 = some t.json ∧ HasEsdx start t esdx ∧
      esdx.map (·.2.remote) = remotesAfter r.1) ∧
    (∀ self c, (∀ e ∈ start.interfaces, e.2.remote ≠ c.brAddress) →
      (((TopologyCall.deactivate c).onFile ft self r.2).1 = .ok () ↔ 0 < self.attempts ∧
        (start.isdAs = c.offer.iaid ∨ start.isdAs = c.buyerIaid) ∧
          c.brAddress ∈ remotesAfter r.1)) ∧
    (remotesAfter r.1 = [] → r.2 = text ∨ r.2 = Json.dumps ft start.json ++ ['\n']) := by
  suffices hrun : ∃ t esdx, Holds ft (runFile ft calls text).2 t ∧ HasEsdx start t esdx ∧
      esdx.map (·.2.remote) = remotesAfter (runFile ft calls text).1 ∧
      ((runFile ft calls text).2 = text ∨
        (runFile ft calls text).2 = Json.dumps ft t.json ++ ['\n']) by
    obtain ⟨t, esdx, hholds, hesdx, hremotes, htext⟩ := hrun
    refine ⟨⟨t, esdx, hholds.reads, hesdx, hremotes⟩, fun self c hc => ?_, fun hnil => ?_⟩
    · rw [← hremotes, ← (hesdx.deactivated hc).1]
      rcases hcall : (TopologyCall.deactivate c).alone self t with ⟨e | u, t'⟩
      · rw [hholds.onFile_error hcall]
        refine iff_of_false (by simp) fun ⟨htried, t'', ht''⟩ => ?_
        have hok : (TopologyCall.deactivate c).alone self t = (.ok (), t'') :=
          TopologyCall.alone_eq_ok.mpr ⟨htried, ht''⟩
        simp [hok] at hcall
      · obtain ⟨htried, happly⟩ := TopologyCall.alone_eq_ok.mp hcall
        rw [hholds.onFile_ok hcall]
        exact iff_of_true rfl ⟨htried, t', happly⟩
    · rw [← hremotes, List.map_eq_nil_iff] at hnil
      subst hnil
      rw [hesdx.eq_start] at htext
      exact htext
  induction calls using List.reverseRecOn with
  | nil => exact ⟨start, [], h, ⟨rfl, rfl, .inl ⟨rfl, rfl⟩⟩, rfl, .inl rfl⟩
  | append_singleton calls i ih =>
    obtain ⟨self, call⟩ := i
    obtain ⟨t, esdx, hholds, hesdx, hremotes, htext⟩ :=
      ih fun i hi => hstock i (List.mem_append_left _ hi)
    have hc := hstock (self, call) (by simp)
    rw [runFile_concat, remotesAfter_concat, ← hremotes]
    rcases hcall : call.alone self t with ⟨e | u, t'⟩
    · rw [hholds.onFile_error hcall]
      exact ⟨t, esdx, hholds, hesdx, by cases call <;> rfl, htext⟩
    · have happly := (TopologyCall.alone_eq_ok.mp hcall).2
      rw [hholds.onFile_ok hcall]
      cases call with
      | activate c =>
        obtain ⟨e, he, hesdx'⟩ := hesdx.activated hname happly
        refine ⟨t', _, hholds.write happly, hesdx', ?_, .inr rfl⟩
        rw [List.map_append, List.map_singleton, he]
        rfl
      | deactivate c =>
        obtain ⟨esdx', hesdx', hremotes'⟩ := (hesdx.deactivated hc).2 t' happly
        exact ⟨t', esdx', hholds.write happly, hesdx', hremotes', .inr rfl⟩

/-! ## A contract that ends -/

namespace SmallTopology

/-- Numbers of which only one can be written, for files that have none. -/
def noFloats : Json.FloatText Unit where
  nan := ()
  inf := ()
  negInf := ()
  repr _ := "NaN".toList
  read _ := ()
  repr_spec _ := .inl ⟨rfl, rfl⟩

/-- The file of the tests, without its services. -/
def file : Topo (Json Unit) where
  isdAs := "1-ff00:0:111"
  borderRouters := ⟨[("br1-ff00_0_111-1", {
    internalAddr := "127.0.0.17:31012"
    interfaces := ⟨[("41", {
      publicAddr := "127.0.0.5:50000"
      remote := "127.0.0.4:50000"
      isdAs := "1-ff00:0:110"
      mtu := 1280
      linkTo := "PARENT"
      other := [
        ("underlay", .obj [("public", .str "127.0.0.5:50000"), ("remote", .str "127.0.0.4:50000")]),
        ("isd_as", .str "1-ff00:0:110"),
        ("link_to", .str "PARENT"),
        ("mtu", .int 1280)] })], by decide⟩
    other := [("internal_addr", .str "127.0.0.17:31012"), ("interfaces", .null)] })], by decide⟩
  other := [
    ("attributes", .arr []),
    ("isd_as", .str "1-ff00:0:111"),
    ("mtu", .int 1472),
    ("border_routers", .null)]

/-- The text of the file. -/
def text : List Char := Json.dumps noFloats file.json ++ ['\n']

/-- Two contracts are activated, and both are deactivated in the order of their activation. -/
def ended : List (Topology × TopologyCall) :=
  calls ++ [(reloader, .deactivate (bought "1.1.1.1:50001"))]

/-- A dictionary with distinct keys and plain values is well formed. -/
lemma wf_obj_of_forall {F : Type} {ms : List (String × Json F)} (hkeys : (ms.map Prod.fst).Nodup)
    (h : ms.Forall fun m => m.2.Wf) : (Json.obj ms).Wf :=
  .obj hkeys (List.forall_iff_forall_mem.mp h)

/-- The value of the file is well formed. -/
lemma wf_file : file.json.Wf := by
  have hinterface : (Json.obj [
      ("underlay", .obj [("public", .str "127.0.0.5:50000"), ("remote", .str "127.0.0.4:50000")]),
      ("isd_as", .str "1-ff00:0:110"), ("link_to", .str "PARENT"), ("mtu", .int 1280)] :
        Json Unit).Wf :=
    wf_obj_of_forall (by simp)
      ⟨wf_obj_of_forall (by simp) ⟨.str _, .str _⟩, .str _, .str _, .int _⟩
  have hrouter : (Json.obj [("internal_addr", .str "127.0.0.17:31012"),
      ("interfaces", .null)] : Json Unit).Wf := wf_obj_of_forall (by simp) ⟨.str _, .null⟩
  have hother : (Json.obj [("attributes", .arr []), ("isd_as", .str "1-ff00:0:111"),
      ("mtu", .int 1472), ("border_routers", .null)] : Json Unit).Wf :=
    wf_obj_of_forall (by simp) ⟨.arr (by simp), .str _, .int _, .null⟩
  refine wf_setItem (k := "border_routers") hother (wf_obj_of_forall (by simp [file]) ?_) rfl
  refine wf_setItem (k := "interfaces") hrouter (wf_obj_of_forall ?_ ?_) rfl
  · simp
  · exact hinterface

/-- The text of the file is that of the topology. -/
lemma holds_text : Holds noFloats text file where
  reads := Json.loads_dumps noFloats wf_file (.inr rfl)
  shown := {
    isd_as := by simp [file, getItem]
    interfaces := by
      intro e he
      rw [List.mem_singleton.mp he]
      exact ⟨_, rfl, rfl, rfl⟩ }

end SmallTopology

/-- The second contract is left in the file after the first one has ended. -/
theorem runFile_eq_calls :
    (runFile SmallTopology.noFloats SmallTopology.calls SmallTopology.text).2 =
      Json.dumps SmallTopology.noFloats
        (runReloader SmallTopology.calls SmallTopology.file).2.json ++ ['\n'] := by
  have h := (runFile_eq SmallTopology.holds_text SmallTopology.calls).2.1
  rw [h, if_pos (by decide +kernel)]

/-- When both contracts have ended the file is what it was. -/
theorem runFile_restores_ended :
    (runFile SmallTopology.noFloats SmallTopology.ended SmallTopology.text).2 =
      SmallTopology.text := by
  have hstock : ∀ i ∈ SmallTopology.ended, ∀ e ∈ SmallTopology.file.interfaces,
      e.2.remote ≠ i.2.contract.brAddress := by
    have hcontracts : ∀ addr ∈ SmallTopology.ended.map (·.2.contract.brAddress),
        ∀ remote ∈ SmallTopology.file.interfaces.map (·.2.remote), remote ≠ addr := by
      decide +kernel
    exact fun i hi e he =>
      hcontracts _ (List.mem_map_of_mem hi) _ (List.mem_map_of_mem he)
  have h := (runFile_restores SmallTopology.holds_text (by decide +kernel) SmallTopology.ended
    hstock).2.2 (by decide +kernel)
  exact h.elim id id

end Esdx
