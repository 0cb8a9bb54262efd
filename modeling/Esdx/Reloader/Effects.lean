import Esdx.Reloader.Allocation

/-!
# What the methods change in the file

`activate` adds one interface to the ESDX router, which is put into the file where it is missing.
`deactivate` takes out the first interface with the remote address of the contract, in whichever
router it is, and afterwards looks at the ESDX router alone.  The internal addresses of the other
routers stay as they are, so `Topology` can be constructed again for the file.
-/

namespace Esdx

open InetAddress

variable {J : Type}

/-! ## Removing an interface -/

/-- The interface that is found is the first one with the remote address. -/
lemma findRemote_eq_some {remote k ifid : String} {br : BorderRouter J}
    {l : List (String × BorderRouter J)} (h : Topology.findRemote remote l = some (k, br, ifid)) :
    ∃ pre post, l = pre ++ (k, br) :: post ∧ (∀ e ∈ interfacesOf pre, e.2.remote ≠ remote) ∧
      ∃ i, (ifid, i) ∈ br.interfaces.entries ∧ i.remote = remote := by
  induction l with
  | nil => simp [Topology.findRemote] at h
  | cons e l ih =>
    obtain ⟨k', br'⟩ := e
    rw [Topology.findRemote] at h
    split at h
    · rename_i ifid' i hfind
      simp only [Option.some.injEq, Prod.mk.injEq] at h
      obtain ⟨rfl, rfl, rfl⟩ := h
      exact ⟨[], l, rfl, fun e he => by simp [interfacesOf] at he,
        i, List.mem_of_find?_eq_some hfind, by simpa using List.find?_some hfind⟩
    · rename_i hfind
      obtain ⟨pre, post, rfl, hpre, hi⟩ := ih h
      refine ⟨(k', br') :: pre, post, rfl, fun e he => ?_, hi⟩
      rw [interfacesOf, List.flatMap_cons] at he
      rcases List.mem_append.mp he with he | he
      · simpa using List.find?_eq_none.mp hfind e he
      · exact hpre e he

/-- The first interface with the remote address is found. -/
lemma findRemote_of_split {remote k : String} {br : BorderRouter J}
    {pre post : List (String × BorderRouter J)}
    (hpre : ∀ e ∈ interfacesOf pre, e.2.remote ≠ remote)
    {ipre ipost : List (String × Interface J)} {ifid : String} {i : Interface J}
    (hbr : br.interfaces.entries = ipre ++ (ifid, i) :: ipost)
    (hipre : ∀ e ∈ ipre, e.2.remote ≠ remote) (hi : i.remote = remote) :
    Topology.findRemote remote (pre ++ (k, br) :: post) = some (k, br, ifid) := by
  have hnone : ipre.find? (·.2.remote = remote) = none :=
    List.find?_eq_none.mpr fun e he heq => hipre e he (by simpa using heq)
  rw [findRemote_append hpre, Topology.findRemote, hbr, List.find?_append, hnone, List.find?_cons]
  simp [hi]

/-! ## Other routers -/

/-- The topologies differ in the ESDX router at most. -/
structure OnlyEsdxChanged (t t' : Topo J) : Prop where
  isd_as : t'.isdAs = t.isdAs
  other : t'.other = t.other
  routers : t'.borderRouters.erase (Topology.generateEsdxBrName t.isdAs) =
    t.borderRouters.erase (Topology.generateEsdxBrName t.isdAs)

/-- The first interface with the remote address, in the order of the file, belongs to a router
other than the ESDX router. -/
def Topo.FirstIsForeign (t : Topo J) (remote : String) : Prop :=
  ∃ pre k br post, t.borderRouters.entries = pre ++ (k, br) :: post ∧
    k ≠ Topology.generateEsdxBrName t.isdAs ∧ (∀ e ∈ interfacesOf pre, e.2.remote ≠ remote) ∧
    ∃ e ∈ br.interfaces.entries, e.2.remote = remote

/-- A call of `deactivate` for a contract of the local AS meets an ESDX router, while the first
interface with the remote address of the contract is that of another router. -/
def TopologyCall.HitsForeign (self : Topology) (t : Topo J) : TopologyCall → Prop
  | .activate _ => False
  | .deactivate c => 0 < self.attempts ∧ (t.isdAs = c.offer.iaid ∨ t.isdAs = c.buyerIaid) ∧
      Topology.generateEsdxBrName t.isdAs ∈ t.borderRouters.keys ∧ t.FirstIsForeign c.brAddress

namespace OnlyEsdxChanged

variable {t t' : Topo J}

lemma refl (t : Topo J) : OnlyEsdxChanged t t := ⟨rfl, rfl, rfl⟩

/-- Setting the ESDX router changes nothing else. -/
lemma set (t : Topo J) (br : BorderRouter J) : OnlyEsdxChanged t { t with
    borderRouters := t.borderRouters.set (Topology.generateEsdxBrName t.isdAs) br } :=
  ⟨rfl, rfl, Dict.erase_set_self⟩

/-- Taking out the ESDX router too changes nothing else. -/
lemma erase (h : OnlyEsdxChanged t t') : OnlyEsdxChanged t { t' with
    borderRouters := t'.borderRouters.erase (Topology.generateEsdxBrName t'.isdAs) } :=
  ⟨h.isd_as, h.other, by rw [h.isd_as, Dict.erase_erase_self, h.routers]⟩

/-- A router that has changed is the ESDX router. -/
lemma eq_of_get?_ne (h : OnlyEsdxChanged t t') {k : String}
    (hk : t'.borderRouters.get? k ≠ t.borderRouters.get? k) :
    k = Topology.generateEsdxBrName t.isdAs := by
  by_contra hne
  apply hk
  rw [← Dict.get?_erase_of_ne hne, h.routers, Dict.get?_erase_of_ne hne]

end OnlyEsdxChanged

/-- What `_remove_interface` returns when it finds an interface. -/
lemma removeInterface_eq {t : Topo J} {info : TopoInfoFromContract} {k ifid : String}
    {br : BorderRouter J}
    (h : Topology.findRemote info.remoteUnderlay t.borderRouters.entries = some (k, br, ifid)) :
    Topology.removeInterface t info =
      let routers := t.borderRouters.set k { br with interfaces := br.interfaces.erase ifid }
      match routers.get? (Topology.generateEsdxBrName t.isdAs) with
      | none => .error (.keyError (Topology.generateEsdxBrName t.isdAs))
      | some esdx =>
        if esdx.interfaces.entries.length = 0 then
          .ok { t with borderRouters := routers.erase (Topology.generateEsdxBrName t.isdAs) }
        else .ok { t with borderRouters := routers } := by
  unfold Topology.removeInterface Topology.removeInterfaceFromBr
  simp only [h, bind, Except.bind]
  rcases hget : (t.borderRouters.set k { br with interfaces := br.interfaces.erase ifid }).get?
    (Topology.generateEsdxBrName t.isdAs) with _ | esdx
  · rfl
  · rfl

/-- Without an interface with the remote address nothing is written. -/
lemma removeInterface_of_none {t : Topo J} {info : TopoInfoFromContract}
    (h : Topology.findRemote info.remoteUnderlay t.borderRouters.entries = none) (t' : Topo J) :
    Topology.removeInterface t info ≠ .ok t' := by
  simp [Topology.removeInterface, Topology.removeInterfaceFromBr, h, bind, Except.bind]

/-- The first interface is foreign exactly when a foreign one is found. -/
lemma Topo.firstIsForeign_iff {t : Topo J} {remote : String} : t.FirstIsForeign remote ↔
    ∃ k br ifid, Topology.findRemote remote t.borderRouters.entries = some (k, br, ifid) ∧
      k ≠ Topology.generateEsdxBrName t.isdAs := by
  constructor
  · rintro ⟨pre, k, br, post, hsplit, hne, hpre, e, he, hremote⟩
    rw [hsplit, findRemote_append hpre, Topology.findRemote]
    split
    · rename_i ifid i _
      exact ⟨k, br, ifid, rfl, hne⟩
    · rename_i hnone
      exact absurd (by simpa using hremote) (List.find?_eq_none.mp hnone e he)
  · rintro ⟨k, br, ifid, hfind, hne⟩
    obtain ⟨pre, post, hsplit, hpre, i, hi, hremote⟩ := findRemote_eq_some hfind
    exact ⟨pre, k, br, post, hsplit, hne, hpre, _, hi, hremote⟩

/-- A contract has the needed information exactly for its seller and its buyer. -/
lemma exists_contractInfo_iff {isdAs : String} {c : ContractMessage} :
    (∃ info, Topology.contractInfo isdAs c = .ok info) ↔
      isdAs = c.offer.iaid ∨ isdAs = c.buyerIaid := by
  unfold Topology.contractInfo
  split
  · rename_i hseller
    exact iff_of_true ⟨_, rfl⟩ (.inl hseller)
  · rename_i hseller
    split
    · rename_i hbuyer
      exact iff_of_true ⟨_, rfl⟩ (.inr hbuyer)
    · rename_i hbuyer
      exact iff_of_false (by simp) (not_or.mpr ⟨hseller, hbuyer⟩)

/-- `activate` changes the ESDX router at most. -/
lemma onlyEsdxChanged_activated {self : Topology} {c : ContractMessage} {t t' : Topo J}
    (h : self.activated c t = .ok t') : OnlyEsdxChanged t t' := by
  unfold Topology.activated at h
  rcases hinfo : Topology.contractInfo t.isdAs c with e | info
  · simp [hinfo, bind, Except.bind] at h
  simp only [hinfo, bind, Except.bind] at h
  obtain ⟨_, _, _, _, _, _, -, -, -, -, -, rfl⟩ := Topology.addContractToTopo_eq_ok h
  exact OnlyEsdxChanged.set t _

/-- Removing an interface of the ESDX router changes this router at most. -/
lemma onlyEsdxChanged_removeInterface {t t' : Topo J} {info : TopoInfoFromContract}
    {br : BorderRouter J} {ifid : String}
    (hfind : Topology.findRemote info.remoteUnderlay t.borderRouters.entries =
      some (Topology.generateEsdxBrName t.isdAs, br, ifid))
    (h : Topology.removeInterface t info = .ok t') : OnlyEsdxChanged t t' := by
  rw [removeInterface_eq hfind] at h
  simp only [Dict.get?_set_self] at h
  have hset := OnlyEsdxChanged.set t { br with interfaces := br.interfaces.erase ifid }
  split at h
  · obtain rfl := Except.ok.inj h
    exact hset.erase
  · obtain rfl := Except.ok.inj h
    exact hset

/-- Removing an interface of another router changes that router. -/
lemma not_onlyEsdxChanged_removeInterface {t t' : Topo J} {info : TopoInfoFromContract}
    {k : String} {br : BorderRouter J} {ifid : String}
    (hfind : Topology.findRemote info.remoteUnderlay t.borderRouters.entries = some (k, br, ifid))
    (hne : k ≠ Topology.generateEsdxBrName t.isdAs)
    (h : Topology.removeInterface t info = .ok t') : ¬OnlyEsdxChanged t t' := by
  obtain ⟨pre, post, hsplit, -, i, hi, -⟩ := findRemote_eq_some hfind
  have hbefore : t.borderRouters.get? k = some br := Dict.get?_of_split hsplit
  have hafter : t'.borderRouters.get? k =
      some { br with interfaces := br.interfaces.erase ifid } := by
    rw [removeInterface_eq hfind] at h
    dsimp only at h
    split at h
    · simp at h
    · split at h
      · obtain rfl := Except.ok.inj h
        rw [Dict.get?_erase_of_ne hne, Dict.get?_set_self]
      · obtain rfl := Except.ok.inj h
        rw [Dict.get?_set_self]
  intro honly
  apply hne
  apply honly.eq_of_get?_ne
  rw [hbefore, hafter]
  intro heq
  -- the id of the interface is gone
  have hinterfaces := congrArg BorderRouter.interfaces (Option.some.inj heq)
  have hgone := congrArg (Dict.get? · ifid) hinterfaces
  simp only [Dict.get?_erase_self] at hgone
  exact Dict.get?_eq_none.mp hgone.symm (List.mem_map_of_mem hi)

/-- With an ESDX router, removing an interface of another router succeeds. -/
lemma exists_removeInterface {t : Topo J} {info : TopoInfoFromContract}
    (hesdx : Topology.generateEsdxBrName t.isdAs ∈ t.borderRouters.keys)
    (hforeign : t.FirstIsForeign info.remoteUnderlay) :
    ∃ t', Topology.removeInterface t info = .ok t' := by
  obtain ⟨k, br, ifid, hfind, hne⟩ := Topo.firstIsForeign_iff.mp hforeign
  rw [removeInterface_eq hfind]
  dsimp only
  rw [Dict.get?_set_of_ne hne.symm]
  rcases hget : t.borderRouters.get? (Topology.generateEsdxBrName t.isdAs) with _ | esdx
  · exact absurd hesdx (Dict.get?_eq_none.mp hget)
  · dsimp only
    split
    · exact ⟨_, rfl⟩
    · exact ⟨_, rfl⟩

/-- `deactivate` changes another router exactly when it hits a foreign interface. -/
lemma onlyEsdxChanged_deactivate_iff (self : Topology) (c : ContractMessage) (t : Topo J) :
    OnlyEsdxChanged t ((TopologyCall.deactivate c).alone self t).2 ↔
      ¬TopologyCall.HitsForeign self t (.deactivate c) := by
  rcases hcall : (TopologyCall.deactivate c).alone self t with ⟨e | u, t'⟩
  · obtain rfl := TopologyCall.alone_error hcall
    refine iff_of_true (OnlyEsdxChanged.refl t') ?_
    rintro ⟨hattempts, hlocal, hesdx, hforeign⟩
    obtain ⟨info, hinfo⟩ := exists_contractInfo_iff.mpr hlocal
    rw [← (contractInfo_standsFor hinfo).1] at hforeign
    obtain ⟨t'', hremove⟩ := exists_removeInterface hesdx hforeign
    have happly : (TopologyCall.deactivate c).apply self t' = .ok t'' := by
      simp only [TopologyCall.apply, Topology.deactivated, hinfo, bind, Except.bind]
      exact hremove
    have hok := (TopologyCall.alone_eq_ok (u := ())).mpr ⟨hattempts, happly⟩
    simp [hcall] at hok
  · obtain ⟨hattempts, happly⟩ := TopologyCall.alone_eq_ok.mp hcall
    simp only [TopologyCall.apply, Topology.deactivated] at happly
    rcases hinfo : Topology.contractInfo t.isdAs c with e | info
    · simp [hinfo, bind, Except.bind] at happly
    simp only [hinfo, bind, Except.bind] at happly
    have hremote := (contractInfo_standsFor hinfo).1
    rcases hfind : Topology.findRemote info.remoteUnderlay t.borderRouters.entries with
      _ | ⟨k, br, ifid⟩
    · exact absurd happly (removeInterface_of_none hfind t')
    by_cases hk : k = Topology.generateEsdxBrName t.isdAs
    · subst hk
      refine iff_of_true (onlyEsdxChanged_removeInterface hfind happly) ?_
      rintro ⟨-, -, -, hforeign⟩
      obtain ⟨k', br', ifid', hfind', hne⟩ := Topo.firstIsForeign_iff.mp hforeign
      rw [← hremote, hfind] at hfind'
      exact hne (Prod.mk.inj (Option.some.inj hfind')).1.symm
    · refine iff_of_false (not_onlyEsdxChanged_removeInterface hfind hk happly) (not_not.mpr ?_)
      refine ⟨hattempts, exists_contractInfo_iff.mp ⟨info, hinfo⟩, ?_, ?_⟩
      · by_contra hmissing
        rw [removeInterface_eq hfind] at happly
        dsimp only at happly
        rw [Dict.get?_set_of_ne (Ne.symm hk), Dict.get?_eq_none.mpr hmissing] at happly
        simp at happly
      · rw [← hremote]
        exact Topo.firstIsForeign_iff.mpr ⟨k, br, ifid, hfind, hk⟩

/-! ## A foreign interface with the remote address -/

namespace SmallTopology

/-- The ESDX router is there, and an interface of the router before it has the remote address of a
contract that is not active. -/
def sharedRemote : Topo Unit where
  isdAs := "1-ff00:0:111"
  borderRouters := ⟨[
    ("br1-ff00_0_111-1", {
      internalAddr := "127.0.0.17:31012"
      interfaces := ⟨[("41", {
        publicAddr := "127.0.0.5:50000"
        remote := "1.1.1.1:50000"
        isdAs := "1-ff00:0:110"
        mtu := 1280
        linkTo := "PARENT" })], by decide⟩ }),
    ("br1-ff00_0_111-1111", {
      internalAddr := "1.1.1.1:43210"
      interfaces := ⟨[("1", {
        publicAddr := "127.0.0.1:50000"
        remote := "1.1.1.1:50001"
        isdAs := "1-ff00:0:110"
        mtu := 1500
        linkTo := "PARENT" })], by decide⟩ })], by decide⟩
  other := []

end SmallTopology

/-- **Only the ESDX router is touched.**  A call changes no other router and no other field of the
file exactly when it does not hit a foreign interface: when it is no `deactivate` for a contract of
the local AS that meets an ESDX router while the first interface with the remote address of the
contract is that of another router. -/
theorem onlyEsdxChanged_iff (self : Topology) (call : TopologyCall) (t : Topo J) :
    OnlyEsdxChanged t (call.alone self t).2 ↔ ¬call.HitsForeign self t := by
  cases call with
  | activate c =>
    refine iff_of_true ?_ not_false
    rcases hcall : (TopologyCall.activate c).alone self t with ⟨e | u, t'⟩
    · obtain rfl := TopologyCall.alone_error hcall
      exact OnlyEsdxChanged.refl t'
    · exact onlyEsdxChanged_activated (TopologyCall.alone_eq_ok.mp hcall).2
  | deactivate c => exact onlyEsdxChanged_deactivate_iff self c t

/-- A stock interface with the remote address of the contract is taken out. -/
theorem not_onlyEsdxChanged :
    ¬∀ (J : Type) (self : Topology) (call : TopologyCall) (t : Topo J),
      OnlyEsdxChanged t (call.alone self t).2 := by
  intro h
  refine (onlyEsdxChanged_deactivate_iff _ _ _).mp (h Unit SmallTopology.reloader
    (.deactivate (SmallTopology.bought "1.1.1.1:50000")) SmallTopology.sharedRemote) ?_
  refine ⟨by decide, .inr rfl, by decide +kernel, [], _, _, _, rfl, by decide +kernel, ?_,
    _, List.mem_singleton_self _, rfl⟩
  intro e he
  simp [interfacesOf] at he

/-! ## Deactivating what was activated -/

namespace Topo

variable {t : Topo J} {self : Topology} {info : TopoInfoFromContract} {id : ℤ}
  {interface : Interface J}

/-- A router that is put at the end of the file for one interface is taken out with it. -/
lemma removeInterface_new (hremote : ∀ e ∈ t.interfaces, e.2.remote ≠ info.remoteUnderlay)
    (hinterface : interface.remote = info.remoteUnderlay)
    (hesdx : t.borderRouters.get? (Topology.generateEsdxBrName t.isdAs) = none) :
    Topology.removeInterface (self.withInterface t id interface) info = .ok t := by
  have hbr : self.esdxBr t =
      { internalAddr := ipPortToStr self.internalAddrIp self.internalAddrPort } := by
    rw [Topology.esdxBr, hesdx]
    rfl
  have hkeys := Dict.get?_eq_none.mp hesdx
  have hset := fun br : BorderRouter J => Dict.set_of_notMem (a := br) hkeys
  have hentries : ((self.esdxBr t).interfaces.set (toString id) interface).entries =
      [] ++ (toString id, interface) :: [] := by
    rw [hbr]
    rfl
  have hfind : Topology.findRemote info.remoteUnderlay
      (self.withInterface t id interface).borderRouters.entries = some
        (Topology.generateEsdxBrName t.isdAs, { self.esdxBr t with
          interfaces := (self.esdxBr t).interfaces.set (toString id) interface }, toString id) := by
    rw [Topology.withInterface, hset]
    exact findRemote_of_split hremote hentries
      (fun e he => absurd he List.not_mem_nil) hinterface
  rw [removeInterface_eq hfind]
  dsimp only [Topology.withInterface]
  rw [Dict.get?_set_self]
  dsimp only
  rw [if_pos, Dict.set_set_self]
  · congr 1
    rcases t with ⟨isdAs, borderRouters, other⟩
    congr 1
    ext1
    exact (Dict.erase_of_split (hset _)).trans (List.append_nil _)
  · rw [Dict.erase_of_split hentries]
    rfl

/-- An interface that is put into the ESDX router is taken out of it. -/
lemma removeInterface_old (hremote : ∀ e ∈ t.interfaces, e.2.remote ≠ info.remoteUnderlay)
    (hinterface : interface.remote = info.remoteUnderlay) (hid : id ∉ t.usedIds)
    {br : BorderRouter J}
    (hesdx : t.borderRouters.get? (Topology.generateEsdxBrName t.isdAs) = some br)
    (hne : br.interfaces.entries ≠ []) :
    Topology.removeInterface (self.withInterface t id interface) info = .ok t := by
  have hbr : self.esdxBr t = br := by
    rw [Topology.esdxBr, hesdx]
    rfl
  have hkey : toString id ∉ (self.esdxBr t).interfaces.keys :=
    Topology.toString_notMem_esdxBr hid
  rw [hbr] at hkey
  obtain ⟨pre, post, hsplit⟩ := Dict.exists_split hesdx
  have hinterfaces : ∀ e, e ∈ interfacesOf pre ∨ e ∈ br.interfaces.entries → e ∈ t.interfaces := by
    intro e he
    rw [Topo.interfaces, hsplit, interfacesOf_append, List.mem_append]
    refine he.imp_right fun he => ?_
    rw [interfacesOf, List.flatMap_cons]
    exact List.mem_append_left _ he
  have hset := Dict.set_of_notMem (a := interface) hkey
  have hfind : Topology.findRemote info.remoteUnderlay
      (self.withInterface t id interface).borderRouters.entries = some
        (Topology.generateEsdxBrName t.isdAs,
          { br with interfaces := br.interfaces.set (toString id) interface }, toString id) := by
    rw [Topology.withInterface, hbr, Dict.set_of_split hsplit]
    exact findRemote_of_split (fun e he => hremote e (hinterfaces e (.inl he))) hset
      (fun e he => hremote e (hinterfaces e (.inr he))) hinterface
  have herase : (br.interfaces.set (toString id) interface).erase (toString id) =
      br.interfaces := by
    ext1
    exact (Dict.erase_of_split hset).trans (List.append_nil _)
  rw [removeInterface_eq hfind]
  dsimp only [Topology.withInterface]
  rw [Dict.get?_set_self, herase]
  dsimp only
  rw [if_neg (fun hlength => hne (List.length_eq_zero_iff.mp hlength)), Dict.set_set_self]
  congr 1
  rcases t with ⟨isdAs, borderRouters, other⟩
  congr 1
  ext1
  exact (Dict.set_of_split hsplit).trans hsplit.symm

end Topo

/-- **Deactivating undoes activating.**  When no interface has the remote address of the contract
and the ESDX router is missing or has an interface, `deactivate` after a successful `activate`
restores the file. -/
theorem deactivate_activate {self : Topology} {c : ContractMessage} {t t' : Topo J}
    (hremote : ∀ e ∈ t.interfaces, e.2.remote ≠ c.brAddress)
    (hesdx : ∀ br, t.borderRouters.get? (Topology.generateEsdxBrName t.isdAs) = some br →
      br.interfaces.entries ≠ [])
    (h : (TopologyCall.activate c).alone self t = (.ok (), t')) :
    (TopologyCall.deactivate c).alone self t' = (.ok (), t) := by
  obtain ⟨hattempts, happly⟩ := TopologyCall.alone_eq_ok.mp h
  simp only [TopologyCall.apply, Topology.activated] at happly
  rcases hinfo : Topology.contractInfo t.isdAs c with e | info
  · simp [hinfo, bind, Except.bind] at happly
  simp only [hinfo, bind, Except.bind] at happly
  rw [← (contractInfo_standsFor hinfo).1] at hremote
  obtain ⟨ids, _, _, _, publicIp, port, huse, -, -, -, -, rfl⟩ :=
    Topology.addContractToTopo_eq_ok happly
  have hid : Topology.findLowestFreeValue ids ∉ t.usedIds := by
    rintro ⟨e, he, heq⟩
    exact id_free (Topology.inUse_eq_ok huse).1 he heq
  have hremove : Topology.removeInterface (self.withInterface t (Topology.findLowestFreeValue ids)
      (Topology.newInterface info (ipPortToStr publicIp port))) info = .ok t := by
    rcases hget : t.borderRouters.get? (Topology.generateEsdxBrName t.isdAs) with _ | br
    · exact Topo.removeInterface_new hremote rfl hget
    · exact Topo.removeInterface_old hremote rfl hid hget (hesdx br hget)
  refine TopologyCall.alone_eq_ok.mpr ⟨hattempts, ?_⟩
  simp only [TopologyCall.apply, Topology.deactivated, hinfo, bind, Except.bind]
  exact hremove

/-- A contract is activated in the small topology, and deactivated again. -/
theorem deactivate_activate_start : ∃ t',
    (TopologyCall.activate (SmallTopology.bought "1.1.1.1:50000")).alone SmallTopology.reloader
      SmallTopology.start = (.ok (), t') ∧
    (TopologyCall.deactivate (SmallTopology.bought "1.1.1.1:50000")).alone SmallTopology.reloader
      t' = (.ok (), SmallTopology.start) := by
  have hok : ((TopologyCall.activate (SmallTopology.bought "1.1.1.1:50000")).alone
      SmallTopology.reloader SmallTopology.start).1 = .ok () := by
    decide +kernel
  refine ⟨_, Prod.ext hok rfl, deactivate_activate (fun e he => ?_) (fun br hbr => ?_)
    (Prod.ext hok rfl)⟩
  · rw [List.mem_singleton.mp he]
    decide +kernel
  · have hnone : (SmallTopology.start.borderRouters.get?
        (Topology.generateEsdxBrName SmallTopology.start.isdAs)).isNone = true := by
      decide +kernel
    rw [hbr] at hnone
    exact absurd hnone Bool.false_ne_true

/-! ## The internal address -/

/-- The router with this name is taken for an ESDX router. -/
def IsEsdxName (k : String) : Prop := "-1111".toList <:+ k.toList

instance : DecidablePred IsEsdxName := fun k =>
  inferInstanceAs (Decidable ("-1111".toList <:+ k.toList))

/-- The internal addresses of the routers other than ESDX routers. -/
def stockAddrs (routers : List (String × BorderRouter J)) : List String :=
  (routers.filter fun e => ¬IsEsdxName e.1).map fun e => e.2.internalAddr

/-- The name of the ESDX router shows what it is. -/
lemma isEsdxName_generateEsdxBrName (isdAs : String) :
    IsEsdxName (Topology.generateEsdxBrName isdAs) := by
  rw [IsEsdxName, Topology.generateEsdxBrName, String.toList_append]
  exact List.suffix_append _ _

/-- Setting an ESDX router adds no other address. -/
lemma stockAddrs_set {routers : Dict (BorderRouter J)} {k : String}
    (hk : IsEsdxName k) (br : BorderRouter J) :
    stockAddrs (routers.set k br).entries = stockAddrs routers.entries := by
  rcases hget : routers.get? k with _ | br'
  · rw [Dict.set_of_notMem (Dict.get?_eq_none.mp hget)]
    simp [stockAddrs, hk]
  · obtain ⟨pre, post, hsplit⟩ := Dict.exists_split hget
    rw [Dict.set_of_split hsplit, hsplit]
    simp [stockAddrs, hk]

/-- Erasing an ESDX router takes out no other address. -/
lemma stockAddrs_erase {routers : Dict (BorderRouter J)} {k : String} (hk : IsEsdxName k) :
    stockAddrs (routers.erase k).entries = stockAddrs routers.entries := by
  simp only [stockAddrs, Dict.erase, List.filter_filter]
  refine congrArg _ (List.filter_congr fun e _ => ?_)
  by_cases heq : e.1 = k
  · simp [heq, hk]
  · simp [heq]

/-- Changing the interfaces of a router leaves its address. -/
lemma stockAddrs_setInterfaces {routers : Dict (BorderRouter J)}
    {pre post : List (String × BorderRouter J)} {k : String} {br : BorderRouter J}
    (hsplit : routers.entries = pre ++ (k, br) :: post) (interfaces : Dict (Interface J)) :
    stockAddrs (routers.set k { br with interfaces }).entries = stockAddrs routers.entries := by
  rw [Dict.set_of_split hsplit, hsplit]
  by_cases hk : IsEsdxName k
  · simp [stockAddrs, hk]
  · simp [stockAddrs, hk]

/-- A call leaves the internal addresses of the other routers. -/
lemma stockAddrs_alone (self : Topology) (call : TopologyCall) (t : Topo J) :
    stockAddrs (call.alone self t).2.borderRouters.entries =
      stockAddrs t.borderRouters.entries := by
  rcases hcall : call.alone self t with ⟨e | u, t'⟩
  · rw [TopologyCall.alone_error hcall]
  · obtain ⟨-, happly⟩ := TopologyCall.alone_eq_ok.mp hcall
    cases call with
    | activate c =>
      have honly := onlyEsdxChanged_activated happly
      have hname := isEsdxName_generateEsdxBrName t.isdAs
      calc stockAddrs t'.borderRouters.entries
          = stockAddrs (t'.borderRouters.erase (Topology.generateEsdxBrName t.isdAs)).entries :=
            (stockAddrs_erase hname).symm
        _ = stockAddrs (t.borderRouters.erase (Topology.generateEsdxBrName t.isdAs)).entries := by
            rw [honly.routers]
        _ = stockAddrs t.borderRouters.entries := stockAddrs_erase hname
    | deactivate c =>
      simp only [TopologyCall.apply, Topology.deactivated] at happly
      rcases hinfo : Topology.contractInfo t.isdAs c with e | info
      · simp [hinfo, bind, Except.bind] at happly
      simp only [hinfo, bind, Except.bind] at happly
      rcases hfind : Topology.findRemote info.remoteUnderlay t.borderRouters.entries with
        _ | ⟨k, br, ifid⟩
      · exact absurd happly (removeInterface_of_none hfind t')
      obtain ⟨pre, post, hsplit, -, -⟩ := findRemote_eq_some hfind
      have hset := stockAddrs_setInterfaces hsplit (br.interfaces.erase ifid)
      rw [removeInterface_eq hfind] at happly
      dsimp only at happly
      split at happly
      · simp at happly
      · split at happly
        · obtain rfl := Except.ok.inj happly
          exact (stockAddrs_erase (isEsdxName_generateEsdxBrName t.isdAs)).trans hset
        · obtain rfl := Except.ok.inj happly
          exact hset

/-- The internal address is free exactly when all other routers have addresses that can be read, and
none of them is this one. -/
lemma checkInternalAddr_eq_ok {internalAddr : String} {ip : IPAddress} {port : ℤ}
    {routers : List (String × BorderRouter J)} :
    Topology.checkInternalAddr internalAddr ip port routers = .ok () ↔
      ∀ addr ∈ stockAddrs routers, ∃ ip' port', ipPortFromStr addr = .ok (ip', port') ∧
        ¬(ip' = ip ∧ port' = port) := by
  induction routers with
  | nil => simp [Topology.checkInternalAddr, stockAddrs]
  | cons e rest ih =>
    obtain ⟨k, br⟩ := e
    rw [Topology.checkInternalAddr]
    by_cases hk : IsEsdxName k
    · have hstock : stockAddrs ((k, br) :: rest) = stockAddrs rest := by simp [stockAddrs, hk]
      have hsuffix : ¬¬"-1111".toList <:+ k.toList := not_not.mpr hk
      rw [if_neg hsuffix, hstock]
      exact ih
    · have hstock : stockAddrs ((k, br) :: rest) = br.internalAddr :: stockAddrs rest := by
        simp [stockAddrs, hk]
      have hsuffix : ¬"-1111".toList <:+ k.toList := hk
      rw [if_pos hsuffix, hstock, List.forall_mem_cons]
      rcases haddr : ipPortFromStr br.internalAddr with ex | ⟨ip', port'⟩
      · simp [bind, Except.bind]
      · by_cases hsame : ip' = ip ∧ port' = port
        · simp [bind, Except.bind, hsame]
        · rw [and_iff_right ⟨ip', port', rfl, hsame⟩, ← ih]
          simp [bind, Except.bind, hsame]

/-- **The internal address.**  When the object could be constructed for a file, it can be
constructed again after any calls, and then still no router other than an ESDX router has its
internal address. -/
theorem init_runReloader {start : Topo J} {internalAddr : String}
    {router : IPAddress → Except Exc IPAddress} {minPort maxPort attempts : ℤ} {self : Topology}
    (h : Topology.init start internalAddr router minPort maxPort attempts = .ok self)
    (calls : List (Topology × TopologyCall)) :
    Topology.init (runReloader calls start).2 internalAddr router minPort maxPort attempts =
        .ok self ∧
      ∀ addr ∈ stockAddrs (runReloader calls start).2.borderRouters.entries,
        ipPortFromStr addr ≠ .ok (self.internalAddrIp, self.internalAddrPort) := by
  have hstock : stockAddrs (runReloader calls start).2.borderRouters.entries =
      stockAddrs start.borderRouters.entries := by
    induction calls using List.reverseRecOn with
    | nil => rfl
    | append_singleton calls i ih =>
      rw [runReloader_concat, stockAddrs_alone, ih]
  unfold Topology.init at h ⊢
  rcases haddr : ipPortFromStr internalAddr with e | ⟨ip, port⟩
  · simp [haddr, bind, Except.bind] at h
  rcases hcheck : Topology.checkInternalAddr internalAddr ip port start.borderRouters.entries with
    e | _
  · simp [haddr, hcheck, bind, Except.bind] at h
  simp only [haddr, hcheck, bind, Except.bind, pure, Except.pure, Except.ok.injEq] at h
  have hfree := checkInternalAddr_eq_ok.mp hcheck
  rw [← hstock] at hfree
  have hagain : Topology.checkInternalAddr internalAddr ip port
      (runReloader calls start).2.borderRouters.entries = .ok () :=
    checkInternalAddr_eq_ok.mpr hfree
  refine ⟨?_, fun addr hmem heq => ?_⟩
  · simp only [hagain, bind, Except.bind, pure, Except.pure, h]
  · obtain ⟨ip', port', hread, hne⟩ := hfree addr hmem
    obtain ⟨rfl, rfl⟩ := Prod.mk.inj (Except.ok.inj (hread.symm.trans heq))
    exact hne (by rw [← h]; exact ⟨rfl, rfl⟩)

end Esdx
