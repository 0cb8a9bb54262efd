import Esdx.Foundations.Run
import Esdx.Reloader.Topology

/-!
# The topology refines the set of active contracts

Seen from outside, `activate` and `deactivate` put a contract into a set and take it out.  The
file stays what it was, with one more router at its end while the set is not empty, which has one
interface for every contract of the set, in the order of activation.
-/

namespace Esdx

open InetAddress PythonText

variable {J : Type}

/-! ## Calls one after the other -/

/-- `_lock` while nobody else holds the lock.  Without any attempts it does not even try, and the
check after its loop fails. -/
def Topology.lockAlone (self : Topology) : Except Exc Unit :=
  if self.attempts ≤ 0 then .error .unboundLocalError else .ok ()

/-- A method called while nobody else holds the lock. -/
def TopologyCall.alone (self : Topology) (call : TopologyCall) : Tx (Topo J) Exc Unit := do
  self.lockAlone
  let topo ← Tx.read
  let topo ← call.apply self topo
  Tx.write topo

/-- Calls on one topology file, one after the other, each with a `Topology` object of its own. -/
def runReloader (calls : List (Topology × TopologyCall)) (start : Topo J) :
    List ((Topology × TopologyCall) × Except Exc Unit) × Topo J :=
  Machine.exec (fun i => TopologyCall.alone i.1 i.2) calls start

/-- One more call starts from the file that the others leave behind. -/
lemma runReloader_concat (calls : List (Topology × TopologyCall)) (self : Topology)
    (call : TopologyCall) (start : Topo J) :
    runReloader (calls ++ [(self, call)]) start =
      ((runReloader calls start).1 ++
          [((self, call), (call.alone self (runReloader calls start).2).1)],
        (call.alone self (runReloader calls start).2).2) :=
  Machine.exec_append_singleton (fun i : Topology × TopologyCall => TopologyCall.alone i.1 i.2)
    calls (self, call) start

/-- The contract of a call. -/
def TopologyCall.contract : TopologyCall → ContractMessage
  | .activate c => c
  | .deactivate c => c

/-- What a call does to the set of active contracts, which is kept in the order of activation. -/
def track (active : List ContractMessage) :
    (Topology × TopologyCall) × Except Exc Unit → List ContractMessage
  | ((_, .activate c), .ok _) => active ++ [c]
  | ((_, .deactivate c), .ok _) => active.erase c
  | (_, .error _) => active

/-- The contracts that are active after a trace. -/
def activeAfter (tr : List ((Topology × TopologyCall) × Except Exc Unit)) : List ContractMessage :=
  tr.foldl track []

/-- One more call changes the active contracts by what it did. -/
lemma activeAfter_concat (tr : List ((Topology × TopologyCall) × Except Exc Unit))
    (i : (Topology × TopologyCall) × Except Exc Unit) :
    activeAfter (tr ++ [i]) = track (activeAfter tr) i := by
  rw [activeAfter, List.foldl_append]
  rfl

/-- A call succeeds exactly when the lock is tried and the file can be changed. -/
lemma TopologyCall.alone_eq_ok {self : Topology} {call : TopologyCall} {t t' : Topo J} {u : Unit} :
    call.alone self t = (.ok u, t') ↔ 0 < self.attempts ∧ call.apply self t = .ok t' := by
  unfold alone
  rw [Tx.bind_liftM_eq_ok]
  have hlock : (∃ u, self.lockAlone = .ok u) ↔ 0 < self.attempts := by
    unfold Topology.lockAlone
    split
    · exact iff_of_false (by simp) (by omega)
    · exact iff_of_true ⟨(), rfl⟩ (by omega)
  rw [← hlock]
  constructor
  · rintro ⟨u, hu, h⟩
    obtain ⟨t₁, ht, h⟩ := Tx.bind_liftM_eq_ok.mp (Tx.bind_read_eq_ok.mp h)
    rw [Tx.write_eq_ok] at h
    exact ⟨⟨u, hu⟩, by rw [ht, h]⟩
  · rintro ⟨⟨u, hu⟩, h⟩
    exact ⟨u, hu, Tx.bind_read_eq_ok.mpr (Tx.bind_liftM_eq_ok.mpr ⟨t', h, Tx.write_eq_ok.mpr rfl⟩)⟩

/-- A call that raises leaves the file as it was. -/
lemma TopologyCall.alone_error {self : Topology} {call : TopologyCall} {t t' : Topo J} {e : Exc}
    (h : call.alone self t = (.error e, t')) : t' = t := by
  unfold alone at h
  rcases Tx.bind_eq_error.mp h with h | ⟨_, _, hlock, h⟩
  · exact (Tx.liftM_eq_error.mp h).2.symm
  obtain ⟨-, rfl⟩ := Tx.liftM_eq_ok.mp hlock
  rcases Tx.bind_eq_error.mp h with h | ⟨_, _, hread, h⟩
  · simp at h
  obtain ⟨rfl, rfl⟩ := Tx.read_eq_ok.mp hread
  rcases Tx.bind_eq_error.mp h with h | ⟨_, _, happly, h⟩
  · exact (Tx.liftM_eq_error.mp h).2.symm
  · simp at h

/-! ## Addresses and ids -/

/-- The texts differ and do not denote the same address and port. -/
def AddrDistinct (a b : String) : Prop :=
  a ≠ b ∧ ∀ v, ipPortFromStr a = .ok v → ipPortFromStr b ≠ .ok v

/-- The ids of the interfaces are distinct integers. -/
def IdsDistinct (interfaces : List (String × Interface J)) : Prop :=
  (∀ e ∈ interfaces, ∃ id, toInt 10 e.1.toList = .ok id) ∧
    interfaces.Pairwise fun e e' => toInt 10 e.1.toList ≠ toInt 10 e'.1.toList

/-- Fewer interfaces have distinct ids too. -/
lemma IdsDistinct.sublist {l l' : List (String × Interface J)} (h : IdsDistinct l')
    (hsub : l.Sublist l') : IdsDistinct l :=
  ⟨fun e he => h.1 e (hsub.subset he), h.2.sublist hsub⟩

/-- A printed id is read as that id. -/
lemma toInt_toString (id : ℤ) : toInt 10 (toString id).toList = .ok id :=
  toInt_eq_ok.mpr (pyInt_toString id)

/-- A free id is the id of no interface. -/
lemma id_free {interfaces : List (String × Interface J)} {ids : List ℤ}
    (h : List.Forall₂ (fun e id => toInt 10 e.1.toList = .ok id) interfaces ids)
    {e : String × Interface J} (he : e ∈ interfaces) :
    toInt 10 e.1.toList ≠ .ok (Topology.findLowestFreeValue ids) := by
  obtain ⟨id, hid, heq⟩ := Machine.exists_of_mem_forall₂ h he
  rw [heq, ne_eq, Except.ok.injEq]
  rintro rfl
  exact Topology.findLowestFreeValue_notMem ids _ hid

/-- An address with a free port is the address of no interface. -/
lemma addr_free {interfaces : List (String × Interface J)} {addrs : List (IPAddress × ℤ)}
    (h : List.Forall₂ (fun e a => ipPortFromStr e.2.publicAddr = .ok a) interfaces addrs)
    {publicIp : IPAddress} (hip : Reparsable publicIp) {port : ℤ}
    (hport : port ∉ (addrs.filter (·.1 = publicIp)).map Prod.snd) {e : String × Interface J}
    (he : e ∈ interfaces) : AddrDistinct e.2.publicAddr (ipPortToStr publicIp port) := by
  obtain ⟨a, ha, heq⟩ := Machine.exists_of_mem_forall₂ h he
  have hdistinct : ipPortFromStr (ipPortToStr publicIp port) ≠ .ok a := by
    rw [ne_eq, ipPortFromStr_ipPortToStr_eq_ok hip]
    rintro ⟨-, rfl⟩
    exact hport (List.mem_map.mpr ⟨_, List.mem_filter.mpr ⟨ha, by simp⟩, rfl⟩)
  refine ⟨fun htext => hdistinct (htext ▸ heq), fun v hv => ?_⟩
  rw [heq, Except.ok.injEq] at hv
  exact hv ▸ hdistinct

/-! ## The simulation -/

/-- The interface of the ESDX router that stands for a contract. -/
structure StandsFor (isdAs : String) (e : String × Interface J) (c : ContractMessage) : Prop where
  remote : e.2.remote = c.brAddress
  mtu : e.2.mtu = c.offer.brMtu
  linkTo : e.2.linkTo = c.offer.brLinkTo
  party : (isdAs = c.offer.iaid ∧ e.2.isdAs = c.buyerIaid) ∨
    (isdAs ≠ c.offer.iaid ∧ isdAs = c.buyerIaid ∧ e.2.isdAs = c.offer.iaid)

/-- The topology is that of the start, with an ESDX router that has the interfaces `esdx`, if there
are any. -/
structure HasEsdx (start t : Topo J) (esdx : List (String × Interface J)) : Prop where
  isd_as : t.isdAs = start.isdAs
  other : t.other = start.other
  routers : (esdx = [] ∧ t.borderRouters.entries = start.borderRouters.entries) ∨
    ∃ br, esdx ≠ [] ∧ br.interfaces.entries = esdx ∧
      t.borderRouters.entries =
        start.borderRouters.entries ++ [(Topology.generateEsdxBrName start.isdAs, br)]

namespace HasEsdx

variable {start t t' : Topo J} {esdx : List (String × Interface J)}

/-- The interfaces are those of the start and those of the ESDX router. -/
lemma interfaces_eq (h : HasEsdx start t esdx) : t.interfaces = start.interfaces ++ esdx := by
  unfold Topo.interfaces
  rcases h.routers with ⟨rfl, hrouters⟩ | ⟨br, -, rfl, hrouters⟩
  · rw [hrouters, List.append_nil]
  · rw [hrouters, interfacesOf_append, interfacesOf_singleton]

/-- The router to which an interface is added has the interfaces `esdx`. -/
lemma esdxBr_interfaces (h : HasEsdx start t esdx)
    (hname : Topology.generateEsdxBrName start.isdAs ∉ start.borderRouters.keys)
    (self : Topology) : (self.esdxBr t).interfaces.entries = esdx ∧ ∀ br,
      (t.borderRouters.set (Topology.generateEsdxBrName t.isdAs) br).entries =
        start.borderRouters.entries ++ [(Topology.generateEsdxBrName start.isdAs, br)] := by
  rw [Topology.esdxBr, h.isd_as]
  rcases h.routers with ⟨rfl, hrouters⟩ | ⟨br₀, -, rfl, hrouters⟩
  · have hmissing : Topology.generateEsdxBrName start.isdAs ∉ t.borderRouters.keys := by
      rw [Dict.keys, hrouters]
      exact hname
    refine ⟨?_, fun br => ?_⟩
    · rw [Dict.get?_eq_none.mpr hmissing]
      rfl
    · rw [Dict.set_of_notMem hmissing, hrouters]
  · refine ⟨?_, fun br => ?_⟩
    · rw [Dict.get?_of_split hrouters]
      rfl
    · exact Dict.set_of_split hrouters

/-- A contract that is added gets one more interface, with an id and an address of its own. -/
lemma add (h : HasEsdx start t esdx)
    (hname : Topology.generateEsdxBrName start.isdAs ∉ start.borderRouters.keys)
    {self : Topology} {info : TopoInfoFromContract}
    (hadd : self.addContractToTopo t info = .ok t')
    (hrouter : ∀ ip ip', self.router ip = .ok ip' → Reparsable ip') :
    ∃ id addr, HasEsdx start t' (esdx ++ [(toString id, Topology.newInterface info addr)]) ∧
      ∀ e ∈ t.interfaces, toInt 10 e.1.toList ≠ .ok id ∧ AddrDistinct e.2.publicAddr addr := by
  obtain ⟨ids, addrs, remoteIp, -, publicIp, port, huse, -, hpublic, hport, -, rfl⟩ :=
    Topology.addContractToTopo_eq_ok hadd
  have hfree : port ∉ (addrs.filter (·.1 = publicIp)).map Prod.snd :=
    hport ▸ Topology.findLowestFreeValue_notMem _ _
  obtain ⟨hids, haddrs⟩ := Topology.inUse_eq_ok huse
  obtain ⟨hesdx, hset⟩ := h.esdxBr_interfaces hname self
  have hmem : ∀ e ∈ esdx, e ∈ interfacesOf t.borderRouters.entries := by
    intro e he
    change e ∈ t.interfaces
    rw [h.interfaces_eq]
    exact List.mem_append_right _ he
  have hkey : toString (Topology.findLowestFreeValue ids) ∉ (self.esdxBr t).interfaces.keys := by
    rw [Dict.keys, hesdx, List.mem_map]
    rintro ⟨e, he, heq⟩
    exact id_free hids (hmem e he) (heq ▸ toInt_toString _)
  refine ⟨_, _, ⟨h.isd_as, h.other, .inr ⟨_, by simp, ?_, hset _⟩⟩, fun e he =>
    ⟨id_free hids he, addr_free haddrs (hrouter _ _ hpublic) hfree he⟩⟩
  rw [← hesdx]
  exact Dict.set_of_notMem hkey

end HasEsdx

/-! ## Removing an interface -/

/-- Routers without an interface with the remote address are passed over. -/
lemma findRemote_append {remote : String} {l l' : List (String × BorderRouter J)}
    (h : ∀ e ∈ interfacesOf l, e.2.remote ≠ remote) :
    Topology.findRemote remote (l ++ l') = Topology.findRemote remote l' := by
  induction l with
  | nil => rfl
  | cons e l ih =>
    obtain ⟨k, br⟩ := e
    have hnone : br.interfaces.entries.find? (·.2.remote = remote) = none := by
      refine List.find?_eq_none.mpr fun e he heq => ?_
      exact h e (by simp [interfacesOf, he]) (by simpa using heq)
    rw [List.cons_append, Topology.findRemote, hnone]
    refine ih fun e he => h e ?_
    rw [interfacesOf, List.flatMap_cons]
    exact List.mem_append_right _ he

/-- No interface with the remote address is found when there is none. -/
lemma findRemote_eq_none {remote : String} {l : List (String × BorderRouter J)}
    (h : ∀ e ∈ interfacesOf l, e.2.remote ≠ remote) : Topology.findRemote remote l = none := by
  have happend : Topology.findRemote remote (l ++ []) = none := findRemote_append h
  rwa [List.append_nil] at happend

namespace HasEsdx

variable {start t t' : Topo J}

/-- The interface of the ESDX router with the remote address is taken out, and the router goes
with its last interface. -/
lemma remove {pre post : List (String × Interface J)} {e : String × Interface J}
    (h : HasEsdx start t (pre ++ e :: post)) {info : TopoInfoFromContract}
    (he : e.2.remote = info.remoteUnderlay)
    (hpre : ∀ e' ∈ pre, e'.2.remote ≠ info.remoteUnderlay)
    (hstart : ∀ e' ∈ start.interfaces, e'.2.remote ≠ info.remoteUnderlay) :
    ∃ t', Topology.removeInterface t info = .ok t' ∧ HasEsdx start t' (pre ++ post) := by
  rcases h.routers with ⟨hnil, -⟩ | ⟨br, -, hentries, hrouters⟩
  · simp at hnil
  obtain ⟨k, interface⟩ := e
  have hfind : Topology.findRemote info.remoteUnderlay t.borderRouters.entries =
      some (Topology.generateEsdxBrName start.isdAs, br, k) := by
    have hnone : pre.find? (·.2.remote = info.remoteUnderlay) = none :=
      List.find?_eq_none.mpr fun e' he' heq => hpre e' he' (by simpa using heq)
    have hremote : interface.remote = info.remoteUnderlay := he
    rw [hrouters, findRemote_append hstart, Topology.findRemote, hentries, List.find?_append,
      hnone, List.find?_cons]
    simp [hremote]
  have hset := fun br' => Dict.set_of_split (b := br') hrouters
  have herase := Dict.erase_of_split hentries
  unfold Topology.removeInterface Topology.removeInterfaceFromBr
  rw [hfind]
  simp only [bind, Except.bind, h.isd_as]
  rw [Dict.get?_of_split (hset _)]
  dsimp only
  rw [herase]
  split
  · rename_i hempty
    refine ⟨_, rfl, rfl, h.other, .inl ⟨List.length_eq_zero_iff.mp hempty, ?_⟩⟩
    rw [Dict.erase_of_split (hset _), List.append_nil]
  · rename_i hne
    refine ⟨_, rfl, rfl, h.other, .inr ⟨_, ?_, herase, hset _⟩⟩
    exact fun hnil => hne (by rw [hnil, List.length_nil])

/-- Without an interface with the remote address nothing is removed. -/
lemma remove_error {esdx : List (String × Interface J)} (h : HasEsdx start t esdx)
    {info : TopoInfoFromContract}
    (hstart : ∀ e ∈ start.interfaces, e.2.remote ≠ info.remoteUnderlay)
    (hesdx : ∀ e ∈ esdx, e.2.remote ≠ info.remoteUnderlay) :
    Topology.removeInterface t info ≠ .ok t' := by
  have hnone : Topology.findRemote info.remoteUnderlay t.borderRouters.entries = none := by
    refine findRemote_eq_none fun e he => ?_
    have he : e ∈ t.interfaces := he
    rw [h.interfaces_eq] at he
    rcases List.mem_append.mp he with he | he
    · exact hstart e he
    · exact hesdx e he
  simp [Topology.removeInterface, Topology.removeInterfaceFromBr, hnone, bind, Except.bind]

end HasEsdx

/-! ## The invariant -/

/-- What the methods need to know about a contract. -/
lemma contractInfo_standsFor {isdAs : String} {c : ContractMessage} {info : TopoInfoFromContract}
    (h : Topology.contractInfo isdAs c = .ok info) :
    info.remoteUnderlay = c.brAddress ∧ ∀ (J : Type) (id addr : String),
      StandsFor isdAs (id, (Topology.newInterface info addr : Interface J)) c := by
  unfold Topology.contractInfo at h
  split at h
  · rename_i hseller
    obtain rfl := (Except.ok.injEq _ _).mp h
    exact ⟨rfl, fun J id addr => ⟨rfl, rfl, rfl, .inl ⟨hseller, rfl⟩⟩⟩
  · rename_i hseller
    split at h
    · rename_i hbuyer
      obtain rfl := (Except.ok.injEq _ _).mp h
      exact ⟨rfl, fun J id addr => ⟨rfl, rfl, rfl, .inr ⟨hseller, hbuyer, rfl⟩⟩⟩
    · simp at h

/-- The texts of the public addresses are distinct. -/
def TextsDistinct (t : Topo J) : Prop :=
  t.interfaces.Pairwise fun e e' => e.2.publicAddr ≠ e'.2.publicAddr

/-- No two public addresses denote the same address and port. -/
def EndpointsDistinct (t : Topo J) : Prop :=
  t.interfaces.Pairwise fun e e' =>
    ∀ v, ipPortFromStr e.2.publicAddr = .ok v → ipPortFromStr e'.2.publicAddr ≠ .ok v

/-- The topology is that of the start together with the interfaces `esdx` of the active contracts,
with distinct ids and distinct public addresses. -/
structure Refines (start t : Topo J) (active : List ContractMessage)
    (esdx : List (String × Interface J)) : Prop extends HasEsdx start t esdx where
  standsFor : List.Forall₂ (StandsFor start.isdAs) esdx active
  nodup : active.Nodup
  ids : IdsDistinct t.interfaces
  texts : TextsDistinct start → TextsDistinct t
  endpoints : EndpointsDistinct start → EndpointsDistinct t

namespace Refines

variable {start t t' : Topo J} {active : List ContractMessage}
  {esdx : List (String × Interface J)}

/-- At the start no contract is active. -/
lemma refl (hids : IdsDistinct start.interfaces) : Refines start start [] [] :=
  ⟨⟨rfl, rfl, .inl ⟨rfl, rfl⟩⟩, .nil, List.nodup_nil, hids, id, id⟩

/-- The remote addresses of the ESDX router are those of the active contracts. -/
lemma remote_ne {pre : List (String × Interface J)} {cs : List ContractMessage} {isdAs : String}
    (h : List.Forall₂ (StandsFor isdAs) pre cs) {addr : String}
    (hcs : ∀ c ∈ cs, c.brAddress ≠ addr) : ∀ e ∈ pre, e.2.remote ≠ addr := by
  intro e he
  obtain ⟨c, hc, hstands⟩ := Machine.exists_of_mem_forall₂ h he
  rw [hstands.remote]
  exact hcs c hc

/-- A successful `activate` adds the contract. -/
lemma activate (h : Refines start t active esdx)
    (hname : Topology.generateEsdxBrName start.isdAs ∉ start.borderRouters.keys)
    {self : Topology} (hrouter : ∀ ip ip', self.router ip = .ok ip' → Reparsable ip')
    {c : ContractMessage} (hc : c ∉ active) (happly : self.activated c t = .ok t') :
    ∃ esdx', Refines start t' (active ++ [c]) esdx' := by
  unfold Topology.activated at happly
  rcases hinfo : Topology.contractInfo t.isdAs c with e | info
  · simp [hinfo, bind, Except.bind] at happly
  simp only [hinfo, bind, Except.bind] at happly
  obtain ⟨id, addr, hadd, hnew⟩ := h.toHasEsdx.add hname happly hrouter
  have hinterfaces : t'.interfaces =
      t.interfaces ++ [(toString id, Topology.newInterface info addr)] := by
    rw [hadd.interfaces_eq, h.interfaces_eq, List.append_assoc]
  have hstands := (contractInfo_standsFor hinfo).2 J (toString id) addr
  rw [h.isd_as] at hstands
  refine ⟨_, hadd, List.rel_append h.standsFor (.cons hstands .nil), ?_, ⟨?_, ?_⟩, fun hs => ?_,
    fun hs => ?_⟩
  · rw [List.nodup_append]
    exact ⟨h.nodup, List.nodup_singleton c, fun a ha b hb => by
      rw [List.mem_singleton.mp hb]
      exact fun heq => hc (heq ▸ ha)⟩
  · intro e he
    rw [hinterfaces, List.mem_append, List.mem_singleton] at he
    rcases he with he | rfl
    · exact h.ids.1 e he
    · exact ⟨id, toInt_toString id⟩
  · rw [hinterfaces, List.pairwise_append]
    refine ⟨h.ids.2, List.pairwise_singleton _ _, fun e he e' he' => ?_⟩
    rw [List.mem_singleton.mp he', toInt_toString]
    exact (hnew e he).1
  · rw [TextsDistinct, hinterfaces, List.pairwise_append]
    refine ⟨h.texts hs, List.pairwise_singleton _ _, fun e he e' he' => ?_⟩
    rw [List.mem_singleton.mp he']
    exact (hnew e he).2.1
  · rw [EndpointsDistinct, hinterfaces, List.pairwise_append]
    refine ⟨h.endpoints hs, List.pairwise_singleton _ _, fun e he e' he' => ?_⟩
    rw [List.mem_singleton.mp he']
    exact (hnew e he).2.2

/-- `deactivate` takes out an active contract, and no other. -/
lemma deactivate_mem (h : Refines start t active esdx) {c : ContractMessage} (hc : c ∈ active)
    (hunique : ∀ c' ∈ active, c'.brAddress = c.brAddress → c' = c)
    (hstart : ∀ e ∈ start.interfaces, e.2.remote ≠ c.brAddress) :
    ∃ t' esdx', Topology.deactivated c t = .ok t' ∧ Refines start t' (active.erase c) esdx' := by
  obtain ⟨pre, post, hnotMem, rfl, herase⟩ := List.exists_erase_eq hc
  obtain ⟨pre', e, post', rfl, hpre, hstands, hpost⟩ := Machine.exists_split_forall₂ h.standsFor
  obtain ⟨info, hinfo⟩ : ∃ info, Topology.contractInfo t.isdAs c = .ok info := by
    rw [h.isd_as, Topology.contractInfo]
    rcases hstands.party with ⟨hseller, -⟩ | ⟨hseller, hbuyer, -⟩
    · exact ⟨_, if_pos hseller⟩
    · exact ⟨_, (if_neg hseller).trans (if_pos hbuyer)⟩
  have hremote := (contractInfo_standsFor hinfo).1
  rw [← hremote] at hstart
  have hpre' : ∀ e' ∈ pre', e'.2.remote ≠ info.remoteUnderlay := by
    refine remote_ne hpre fun c' hc' heq => ?_
    rw [hremote] at heq
    exact hnotMem (hunique c' (List.mem_append_left _ hc') heq ▸ hc')
  obtain ⟨t', hremove, hesdx⟩ :=
    h.toHasEsdx.remove (hstands.remote.trans hremote.symm) hpre' hstart
  have hsub : t'.interfaces.Sublist t.interfaces := by
    rw [hesdx.interfaces_eq, h.interfaces_eq]
    exact (List.sublist_cons_self _ _).append_left _ |>.append_left _
  refine ⟨t', _, ?_, hesdx, ?_, h.nodup.erase c, h.ids.sublist hsub,
    fun hs => (h.texts hs).sublist hsub, fun hs => (h.endpoints hs).sublist hsub⟩
  · simp only [Topology.deactivated, hinfo, bind, Except.bind]
    exact hremove
  · rw [herase]
    exact List.rel_append hpre hpost

/-- Only an active contract can be deactivated. -/
lemma mem_of_deactivated (h : Refines start t active esdx) {c : ContractMessage}
    (hunique : ∀ c' ∈ active, c'.brAddress = c.brAddress → c' = c)
    (hstart : ∀ e ∈ start.interfaces, e.2.remote ≠ c.brAddress)
    (happly : Topology.deactivated c t = .ok t') : c ∈ active := by
  unfold Topology.deactivated at happly
  rcases hinfo : Topology.contractInfo t.isdAs c with e | info
  · simp [hinfo, bind, Except.bind] at happly
  simp only [hinfo, bind, Except.bind] at happly
  have hremote := (contractInfo_standsFor hinfo).1
  rw [← hremote] at hstart
  by_contra hnotMem
  refine h.toHasEsdx.remove_error hstart (remote_ne h.standsFor fun c' hc' heq => ?_) happly
  rw [hremote] at heq
  exact hnotMem (hunique c' hc' heq ▸ hc')

end Refines

/-! ## Runs -/

/-- No contract is activated while it is active. -/
def ActivatesInactive (calls : List (Topology × TopologyCall)) (start : Topo J) : Prop :=
  ∀ pre self c post, calls = pre ++ (self, .activate c) :: post →
    c ∉ activeAfter (runReloader pre start).1

/-- An active contract has been given to a call. -/
lemma mem_of_mem_track {active : List ContractMessage}
    {i : (Topology × TopologyCall) × Except Exc Unit} {c : ContractMessage}
    (h : c ∈ track active i) : c ∈ active ∨ c = i.1.2.contract := by
  obtain ⟨⟨self, call⟩, r⟩ := i
  cases r with
  | error e =>
    cases call <;> exact .inl h
  | ok u =>
    cases call with
    | activate c' => simpa [track, TopologyCall.contract] using h
    | deactivate c' => exact .inl (List.mem_of_mem_erase h)

/-- **The topology refines the set of active contracts.**  After any calls on contracts with
distinct addresses, the topology is that of the start with the interfaces of the active contracts
in its ESDX router, and with distinct ids and public addresses. -/
theorem run_refines {start : Topo J} {S : Set ContractMessage}
    {calls : List (Topology × TopologyCall)}
    (hname : Topology.generateEsdxBrName start.isdAs ∉ start.borderRouters.keys)
    (hids : IdsDistinct start.interfaces)
    (hrouter : ∀ i ∈ calls, ∀ ip ip', i.1.router ip = .ok ip' → Reparsable ip')
    (hinj : S.InjOn ContractMessage.brAddress)
    (hstock : ∀ c ∈ S, ∀ e ∈ start.interfaces, e.2.remote ≠ c.brAddress)
    (hcalls : ∀ i ∈ calls, i.2.contract ∈ S) (hinactive : ActivatesInactive calls start) :
    ∃ esdx, Refines start (runReloader calls start).2 (activeAfter (runReloader calls start).1)
      esdx := by
  suffices h : (∃ esdx, Refines start (runReloader calls start).2
      (activeAfter (runReloader calls start).1) esdx) ∧
      ∀ c ∈ activeAfter (runReloader calls start).1, c ∈ S from h.1
  induction calls using List.reverseRecOn with
  | nil => exact ⟨⟨[], Refines.refl hids⟩, fun c hc => absurd hc List.not_mem_nil⟩
  | append_singleton calls i ih =>
    obtain ⟨self, call⟩ := i
    obtain ⟨⟨esdx, h⟩, hactive⟩ := ih (fun i hi => hrouter i (List.mem_append_left _ hi))
      (fun i hi => hcalls i (List.mem_append_left _ hi))
      (fun pre self' c post hsplit =>
        hinactive pre self' c (post ++ [(self, call)]) (by rw [hsplit]; simp))
    have hlast : (self, call) ∈ calls ++ [(self, call)] := by simp
    have hc : call.contract ∈ S := hcalls _ hlast
    rw [runReloader_concat, activeAfter_concat]
    refine ⟨?_, fun c hmem => (mem_of_mem_track hmem).elim (hactive c) (fun heq => heq ▸ hc)⟩
    rcases hstep : call.alone self (runReloader calls start).2 with ⟨e | u, t'⟩
    · rw [TopologyCall.alone_error hstep]
      exact ⟨esdx, by cases call <;> exact h⟩
    · have happly := (TopologyCall.alone_eq_ok.mp hstep).2
      cases call with
      | activate c =>
        exact h.activate hname (hrouter _ hlast) (hinactive calls self c [] rfl) happly
      | deactivate c =>
        have hunique : ∀ c' ∈ activeAfter (runReloader calls start).1,
            c'.brAddress = c.brAddress → c' = c := fun c' hc' => hinj (hactive c' hc') hc
        have hmem := h.mem_of_deactivated hunique (hstock c hc) happly
        obtain ⟨t'', esdx', hdeactivated, h'⟩ := h.deactivate_mem hmem hunique (hstock c hc)
        obtain rfl : t'' = t' := Except.ok.inj (hdeactivated.symm.trans happly)
        exact ⟨esdx', h'⟩

/-! ## Two contracts, of which one ends -/

namespace SmallTopology

/-- A topology with one router that has one interface. -/
def start : Topo Unit where
  isdAs := "1-ff00:0:111"
  borderRouters := ⟨[("br1-ff00_0_111-1", {
    internalAddr := "127.0.0.17:31012"
    interfaces := ⟨[("41", {
      publicAddr := "127.0.0.5:50000"
      remote := "127.0.0.4:50000"
      isdAs := "1-ff00:0:110"
      mtu := 1280
      linkTo := "PARENT" })], by decide⟩ })], by decide⟩
  other := []

/-- A contract bought by the AS of the topology. -/
def bought (brAddress : String) : ContractMessage where
  contractId := 1
  contractTimestamp := {}
  contractSignature := []
  offer := {
    iaid := "1-ff00:0:110"
    notbefore := some { seconds := 1 }
    notafter := some { seconds := 3 }
    reachablePaths := "*"
    qosClass := 1
    pricePerUnit := ⟨0⟩
    bwProfile := "3,3"
    brAddressTemplate := "1.1.1.1:50000-50100"
    brMtu := 1500
    brLinkTo := "PARENT"
    signature := [] }
  brAddress
  buyerIaid := "1-ff00:0:111"
  buyerStartingOn := { seconds := 1 }
  buyerBwProfile := "3,3"
  buyerSignature := []

/-- The object with the default router. -/
def reloader : Topology where
  internalAddrIp := .v4 ⟨[1, 1, 1, 1], rfl, by decide⟩
  internalAddrPort := 43210
  router := Topology.defaultRouter

/-- Two contracts are activated, and the first is deactivated. -/
def calls : List (Topology × TopologyCall) :=
  [(reloader, .activate (bought "1.1.1.1:50000")), (reloader, .activate (bought "1.1.1.1:50001")),
    (reloader, .deactivate (bought "1.1.1.1:50000"))]

/-- The second contract is still active. -/
lemma activeAfter_calls :
    activeAfter (runReloader calls start).1 = [bought "1.1.1.1:50001"] := by
  decide +kernel

/-- The id of the stock interface is an integer. -/
lemma idsDistinct_start : IdsDistinct start.interfaces := by
  have hinterfaces : start.interfaces.map Prod.fst = [toString (41 : ℤ)] := by decide +kernel
  obtain ⟨e, he, hid⟩ := List.map_eq_singleton_iff.mp hinterfaces
  rw [he]
  refine ⟨fun e' he' => ⟨41, ?_⟩, List.pairwise_singleton _ _⟩
  rw [List.mem_singleton.mp he', hid]
  exact toInt_toString 41

/-- The default router returns addresses without a zone. -/
lemma reparsable_router {ip ip' : IPAddress} (h : reloader.router ip = .ok ip') :
    Reparsable ip' := by
  cases ip with
  | v4 a =>
    obtain rfl := Except.ok.inj h
    trivial
  | v6 a =>
    obtain rfl := Except.ok.inj h
    intro z hz
    simp at hz

/-- The contract that is activated second is not the first one. -/
lemma activatesInactive_calls : ActivatesInactive calls start := by
  intro pre self c post hsplit
  rcases pre with _ | ⟨i, _ | ⟨j, _ | ⟨k, _ | ⟨l, pre⟩⟩⟩⟩
  · exact List.not_mem_nil
  · simp only [calls, List.cons_append, List.nil_append, List.cons.injEq, Prod.mk.injEq,
      TopologyCall.activate.injEq] at hsplit
    obtain ⟨rfl, ⟨-, rfl⟩, -⟩ := hsplit
    decide +kernel
  all_goals simp [calls] at hsplit

end SmallTopology

/-- Two contracts are activated, the first is deactivated, and the second one is left. -/
theorem run_refines_calls : ∃ esdx, Refines SmallTopology.start
    (runReloader SmallTopology.calls SmallTopology.start).2
    [SmallTopology.bought "1.1.1.1:50001"] esdx := by
  rw [← SmallTopology.activeAfter_calls]
  refine @run_refines Unit SmallTopology.start
    {SmallTopology.bought "1.1.1.1:50000", SmallTopology.bought "1.1.1.1:50001"}
    SmallTopology.calls (by decide +kernel) SmallTopology.idsDistinct_start ?_ ?_ ?_ ?_
    SmallTopology.activatesInactive_calls
  · intro i hi ip ip' h
    have hrouter : i.1 = SmallTopology.reloader := by
      simp only [SmallTopology.calls, List.mem_cons, List.not_mem_nil, or_false] at hi
      rcases hi with rfl | rfl | rfl <;> rfl
    exact SmallTopology.reparsable_router (hrouter ▸ h)
  · intro c hc c' hc' heq
    rcases hc with rfl | rfl <;> rcases hc' with rfl | rfl
    · rfl
    · exact absurd heq (by decide +kernel)
    · exact absurd heq (by decide +kernel)
    · rfl
  · intro c hc e he
    have hremote : e.2.remote = "127.0.0.4:50000" := by
      have hall : ∀ r ∈ SmallTopology.start.interfaces.map (·.2.remote), r = "127.0.0.4:50000" := by
        decide +kernel
      exact hall _ (List.mem_map_of_mem he)
    rw [hremote]
    rcases hc with rfl | rfl <;> decide +kernel
  · intro i hi
    simp only [SmallTopology.calls, List.mem_cons, List.not_mem_nil, or_false] at hi
    rcases hi with rfl | rfl | rfl
    · exact .inl rfl
    · exact .inr rfl
    · exact .inl rfl

end Esdx
