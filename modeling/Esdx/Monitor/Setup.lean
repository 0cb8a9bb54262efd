import Esdx.Foundations.PythonText
import Esdx.Monitor.Wire

/-!
# The host application: set-up

The command line and the static maps of `monitor.go`, and the XDP program `esdx_monitor`, which
reads these maps.  The host and the data path name a hop differently: the host by its two interface
ids, the data path by a 32-bit key that holds them as they stand in the packet.
-/

namespace Esdx.Monitor

open ByteOrder PythonText

/-! ## Hops and keys -/

/-- `Hop`: ingress and egress interface in beaconing direction. -/
structure Hop where
  ingress : UInt16
  egress : UInt16
deriving DecidableEq

/-- `Hop.ToMapKey`. -/
def Hop.toMapKey (h : Hop) : UInt32 :=
  (bswap16 h.ingress).toUInt32 ||| ((bswap16 h.egress).toUInt32 <<< 16)

/-- The decoding of a ring-buffer record in `poll_ringbuf`. -/
def decodeRecord (rawSample : List UInt8) : Hop := ⟨be16 rawSample 0, be16 rawSample 2⟩

/-- The hop that the host reads from a record with this key. -/
def hopOfKey (key : UInt32) : Hop := decodeRecord (bytes32 key)

/-- The two halves of a key do not overlap. -/
lemma toNat_halves (a b : UInt16) :
    (a.toUInt32 ||| (b.toUInt32 <<< 16)).toNat = a.toNat + b.toNat * 65536 := by
  have ha : a.toNat < 2 ^ 16 := a.toNat_lt
  have hb := b.toNat_lt
  have hshift : b.toNat <<< 16 % 2 ^ 32 = b.toNat <<< 16 := by
    rw [Nat.shiftLeft_eq, Nat.mod_eq_of_lt (by omega)]
  rw [UInt32.toNat_or, UInt32.toNat_shiftLeft, UInt16.toNat_toUInt32, UInt16.toNat_toUInt32]
  simp only [UInt32.reduceToNat, Nat.reduceMod]
  rw [hshift, Nat.or_comm, ← Nat.shiftLeft_add_eq_or_of_lt ha, Nat.shiftLeft_eq]
  omega

/-- The key that the host computes from the interface ids of a hop field is the key that the data
path reads. -/
lemma toMapKey_be16 (p : Packet) (hf : ℕ) :
    Hop.toMapKey ⟨be16 p (hf + 2), be16 p (hf + 4)⟩ = hopKey p hf := by
  rw [Hop.toMapKey, bswap16_be16, bswap16_be16, hopKey]

/-- The host decodes a key to the two halves, swapped. -/
lemma hopOfKey_halves (a b : UInt16) :
    hopOfKey (a.toUInt32 ||| (b.toUInt32 <<< 16)) = ⟨bswap16 a, bswap16 b⟩ := by
  have ha := a.toNat_lt
  have hb := b.toNat_lt
  have hkey := toNat_halves a b
  rw [hopOfKey, decodeRecord, Hop.mk.injEq, ← UInt16.toNat_inj, ← UInt16.toNat_inj]
  simp only [toNat_be16, toNat_bswap16, byteAt, bytes32, Nat.reduceAdd, List.getD_cons_zero,
    List.getD_cons_succ, UInt32.toNat_toUInt8, UInt32.toNat_div, hkey, UInt32.reduceToNat]
  omega

/-- A key consists of its two halves. -/
lemma halves_eq (key : UInt32) :
    key.toUInt16.toUInt32 ||| ((key / 65536).toUInt16.toUInt32 <<< 16) = key := by
  have hkey := key.toNat_lt
  rw [← UInt32.toNat_inj, toNat_halves, UInt32.toNat_toUInt16, UInt32.toNat_toUInt16,
    UInt32.toNat_div]
  simp only [UInt32.reduceToNat]
  omega

/-- The host maps the hop that it decodes from a key back to the key. -/
@[simp] lemma toMapKey_hopOfKey (key : UInt32) : (hopOfKey key).toMapKey = key := by
  rw [← halves_eq key, hopOfKey_halves, Hop.toMapKey, bswap16_bswap16, bswap16_bswap16]

/-- The host decodes the key of a hop to the hop. -/
@[simp] lemma hopOfKey_toMapKey (h : Hop) : hopOfKey h.toMapKey = h := by
  rw [Hop.toMapKey, hopOfKey_halves, bswap16_bswap16, bswap16_bswap16]

/-! ## The command line -/

/-- The digits of an unsigned number, underscores skipped; `none` when a digit does not belong to
the base or the number needs more than 16 bits. -/
def readUint16 (base : ℕ) : ℕ → List Char → Option ℕ
  | n, [] => some n
  | n, c :: cs =>
    if c = '_' then readUint16 base n cs
    else
      match digitValue base c with
      | none => none
      | some d => if 65535 < n * base + d then none else readUint16 base (n * base + d) cs

/-- The classes of characters that `underscoreOK` tells apart. -/
inductive Saw
  | start
  | digit
  | underscore
  | other
deriving DecidableEq

/-- The loop of `underscoreOK`. -/
def underscoreLoop (hex : Bool) : Saw → List Char → Bool
  | saw, [] => saw != .underscore
  | saw, c :: cs =>
    if (digitValue (if hex then 16 else 10) c).isSome then underscoreLoop hex .digit cs
    else if c = '_' then
      if saw = .digit then underscoreLoop hex .underscore cs else false
    else if saw = .underscore then false
    else underscoreLoop hex .other cs

/-- `underscoreOK` of `strconv`: underscores stand between digits or after a base prefix. -/
def underscoreOK (s : List Char) : Bool :=
  let s := match s with
    | '-' :: cs => cs
    | '+' :: cs => cs
    | cs => cs
  match s with
  | '0' :: x :: cs =>
    if x.toLower = 'b' ∨ x.toLower = 'o' ∨ x.toLower = 'x' then
      underscoreLoop (x.toLower = 'x') .digit cs
    else underscoreLoop false .start s
  | _ => underscoreLoop false .start s

/-- The base that the prefix of a number stands for, and the digits after it. -/
def basePrefix (s : List Char) : ℕ × List Char :=
  match s with
  | '0' :: x :: c :: cs =>
    if x.toLower = 'b' then (2, c :: cs)
    else if x.toLower = 'o' then (8, c :: cs)
    else if x.toLower = 'x' then (16, c :: cs)
    else (8, x :: c :: cs)
  | '0' :: cs => (8, cs)
  | cs => (10, cs)

/-- `strconv.ParseUint(s, 0, 16)`. -/
def parseUint (s : List Char) : Option UInt16 :=
  if s = [] then none
  else
    match readUint16 (basePrefix s).1 0 (basePrefix s).2 with
    | none => none
    | some n => if '_' ∈ s ∧ underscoreOK s = false then none else some (UInt16.ofNat n)

/-- The flags of the command. -/
structure Flags where
  role : String := ""
  ports : String := "30042-30051"
  up : String := ""
  down : String := ""

/-- `Config` of the host: the position, the SCION underlay ports as closed interval, and the
indexes of the two interfaces. -/
structure Conf where
  role : UInt32
  scionPortRange : UInt16 × UInt16
  upPort : UInt32
  downPort : UInt32
deriving DecidableEq

/-- The role in `parse_args`. -/
def parseRole (role : String) : Except String UInt32 :=
  if role = "" then .error "role must be specified"
  else if role = "upstream" then .ok UPSTREAM
  else if role = "downstream" then .ok DOWNSTREAM
  else .error "invalid monitor role"

/-- The underlay port range in `parse_args`. -/
def parsePorts (ports : String) : Except String (UInt16 × UInt16) :=
  match ports.toList.splitOn ':' with
  | [first, last] =>
    match parseUint first, parseUint last with
    | some first, some last => .ok (first, last)
    | _, _ => .error "invalid underlay port"
  | _ => .error "invalid underlay port range"

/-- `parse_args`; `interfaceByName` is the lookup of the operating system. -/
def parseArgs (interfaceByName : String → Option UInt32) (flags : Flags) :
    Except String Conf := do
  let role ← parseRole flags.role
  let range ← parsePorts flags.ports
  if flags.up = "" ∨ flags.down = "" then
    throw "both the up-port and the down-port must be specified"
  match interfaceByName flags.up, interfaceByName flags.down with
  | none, _ => throw ("interface not found: " ++ flags.up)
  -- the message names the other interface
  | some _, none => throw ("interface not found: " ++ flags.up)
  | some up, some down => return ⟨role, range, up, down⟩

/-! ## The static maps -/

/-- A map of type array: every index below its size has a value. -/
structure ArrayMap (α : Type) where
  maxEntries : UInt32
  values : UInt32 → α

namespace ArrayMap

variable {α : Type}

/-- `bpf_map_lookup_elem`. -/
def lookup (m : ArrayMap α) (key : UInt32) : Option α :=
  if key < m.maxEntries then some (m.values key) else none

/-- `updateMapElem`: an update beyond the size fails and is only logged. -/
def update (m : ArrayMap α) (key : UInt32) (value : α) : ArrayMap α :=
  if key < m.maxEntries then { m with values := fun k => if k = key then value else m.values k }
  else m

/-- An update keeps the size. -/
@[simp] lemma maxEntries_update (m : ArrayMap α) (key : UInt32) (value : α) :
    (m.update key value).maxEntries = m.maxEntries := by
  unfold update
  split <;> rfl

/-- What is found after an update. -/
lemma lookup_update {m : ArrayMap α} {key k : UInt32} {value : α} :
    (m.update key value).lookup k =
      if k = key ∧ key < m.maxEntries then some value else m.lookup k := by
  unfold update lookup
  by_cases hkey : key < m.maxEntries
  · by_cases hk : k = key
    · simp [hk, hkey]
    · simp [hkey, hk]
  · simp [hkey]

end ArrayMap

/-- `MAX_PORTS`. -/
def MAX_PORTS : UInt32 := 32

/-- The maps that the host fills at the start. -/
structure Maps where
  configMap : ArrayMap Config := ⟨1, fun _ => ⟨0, 0, 0⟩⟩
  portMap : ArrayMap Port := ⟨MAX_PORTS, fun _ => ⟨0, 0⟩⟩
  /-- the egress interfaces that packets can be redirected to -/
  txPort : ArrayMap (Option UInt32) := ⟨MAX_PORTS, fun _ => none⟩

/-- `initMaps`, on the zeroed maps of the loaded program. -/
def initMaps (conf : Conf) : Maps where
  configMap := (Maps.configMap {}).update 0
    ⟨conf.role, bswap16 conf.scionPortRange.1, bswap16 conf.scionPortRange.2⟩
  portMap := ((Maps.portMap {}).update conf.upPort ⟨DOWNSTREAM, conf.downPort⟩).update
    conf.downPort ⟨UPSTREAM, conf.upPort⟩
  txPort := ((Maps.txPort {}).update conf.upPort (some conf.upPort)).update
    conf.downPort (some conf.downPort)

/-- The configuration that the data path reads. -/
lemma lookup_configMap (conf : Conf) :
    (initMaps conf).configMap.lookup 0 =
      some ⟨conf.role, bswap16 conf.scionPortRange.1, bswap16 conf.scionPortRange.2⟩ := by
  unfold initMaps
  rw [ArrayMap.lookup_update, if_pos (by decide)]

/-- A value found under a key that was just updated is the new one. -/
lemma ArrayMap.eq_of_lookup_update {α : Type} {m : ArrayMap α} {key : UInt32} {value v : α}
    (h : (m.update key value).lookup key = some v) : v = value := by
  rw [lookup_update] at h
  split at h
  · exact (Option.some.inj h).symm
  · rename_i hnot
    have hsize : ¬key < m.maxEntries := fun hlt => hnot ⟨rfl, hlt⟩
    simp [lookup, hsize] at h

/-- Packets that enter on the up-port go downstream, when the ports differ. -/
lemma direction_upPort {conf : Conf} (hports : conf.upPort ≠ conf.downPort) {port : Port}
    (h : (initMaps conf).portMap.lookup conf.upPort = some port) :
    port.direction = DOWNSTREAM := by
  unfold initMaps at h
  rw [ArrayMap.lookup_update, if_neg (fun hup => hports hup.1)] at h
  rw [ArrayMap.eq_of_lookup_update h]

/-- Packets that enter on the down-port go upstream. -/
lemma direction_downPort {conf : Conf} {port : Port}
    (h : (initMaps conf).portMap.lookup conf.downPort = some port) :
    port.direction = UPSTREAM := by
  rw [ArrayMap.eq_of_lookup_update h]

/-! ## The XDP program -/

/-- The verdicts of the XDP program. -/
inductive XdpAction
  | aborted
  | redirect (ifindex : UInt32)
deriving DecidableEq

/-- `bpf_redirect_map(&tx_port, forward_to, 0)`. -/
def redirectMap (txPort : ArrayMap (Option UInt32)) (forwardTo : UInt32) : XdpAction :=
  match txPort.lookup forwardTo with
  | some (some ifindex) => .redirect ifindex
  | _ => .aborted

/-- `esdx_monitor`: the verdict, and the key of the hop that the packet is attributed to. -/
def esdxMonitor (maps : Maps) (ingressIfindex : UInt32) (p : Packet) :
    XdpAction × Option UInt32 :=
  match maps.configMap.lookup 0 with
  | none => (.aborted, none)
  | some config =>
    match maps.portMap.lookup ingressIfindex with
    | none => (.aborted, none)
    | some port =>
      (redirectMap maps.txPort port.forwardTo, countedHop config p (config.role == port.direction))

/-- What a packet is counted as depends on the role and the direction of the interface. -/
lemma esdxMonitor_snd {conf : Conf} {ifindex : UInt32} {p : Packet} {key : UInt32}
    (h : (esdxMonitor (initMaps conf) ifindex p).2 = some key) :
    ∃ config port, (initMaps conf).portMap.lookup ifindex = some port ∧
      countedHop config p (conf.role == port.direction) = some key := by
  unfold esdxMonitor at h
  rw [lookup_configMap] at h
  dsimp only at h
  split at h
  · simp at h
  · rename_i port hport
    exact ⟨_, port, hport, h⟩

end Esdx.Monitor
