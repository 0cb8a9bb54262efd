import Esdx.Foundations.ByteOrder

/-!
# The packet parser of the data path

The parsing half of `bpf/monitor.c` and the macros of `bpf/scion.h`, on a little-endian host, the
only one for which `bpf/builtins.h` defines the byte swaps.  A packet is the list of its bytes from
`data` to `data_end`, and a pointer into it is an offset.
-/

namespace Esdx.Monitor

open ByteOrder

/-- The bytes of a frame, from `data` to `data_end`. -/
abbrev Packet := List UInt8

/-! ## Structures -/

/-- The positions of a monitor, and the directions of a packet. -/
def UPSTREAM : UInt32 := 0

def DOWNSTREAM : UInt32 := 1

/-- `struct config`. -/
structure Config where
  role : UInt32
  firstScionPort : UInt16
  lastScionPort : UInt16
deriving DecidableEq

/-- `struct port`. -/
structure Port where
  direction : UInt32
  forwardTo : UInt32
deriving DecidableEq

/-- `struct headers`: pointers to the headers of a packet. -/
structure Headers where
  eth : ℕ := 0
  ip : ℕ := 0
  udp : ℕ := 0
  scion : ℕ := 0
  hf : ℕ := 0

/-! ## Sizes and field positions -/

def ETH_P_IP : UInt16 := 0x0800

def ETH_P_IPV6 : UInt16 := 0x86dd

def IPPROTO_UDP : UInt8 := 17

def SC_PATH_TYPE_SCION : UInt8 := 1

/-- `sizeof(struct ethhdr)`. -/
def sizeofEthhdr : ℕ := 14

/-- `sizeof(struct iphdr)`, without options. -/
def sizeofIphdr : ℕ := 20

/-- `sizeof(struct ipv6hdr)`. -/
def sizeofIpv6hdr : ℕ := 40

/-- `sizeof(struct udphdr)`. -/
def sizeofUdphdr : ℕ := 8

/-- `sizeof(struct scionhdr)`: the common header and the ISD-AS numbers of the address header. -/
def sizeofScionhdr : ℕ := 28

/-- `sizeof(struct infofield)`. -/
def sizeofInfofield : ℕ := 8

/-- `sizeof(struct hopfield)`. -/
def sizeofHopfield : ℕ := 12

/-- `SC_GET_VER`. -/
def scGetVer (p : Packet) (scion : ℕ) : UInt32 := bswap32 (le32 p scion) >>> 28

/-- `SC_GET_DL`. -/
def scGetDl (p : Packet) (scion : ℕ) : UInt8 := (byteAt p (scion + 9) >>> 4) &&& 0x03

/-- `SC_GET_SL`. -/
def scGetSl (p : Packet) (scion : ℕ) : UInt8 := byteAt p (scion + 9) &&& 0x03

/-- `PATH_GET_SEG0_HOST`. -/
def pathGetSeg0 (path : UInt32) : UInt32 := (path >>> 12) &&& 0x3f

/-- `PATH_GET_SEG1_HOST`. -/
def pathGetSeg1 (path : UInt32) : UInt32 := (path >>> 6) &&& 0x3f

/-- `PATH_GET_SEG2_HOST`. -/
def pathGetSeg2 (path : UInt32) : UInt32 := path &&& 0x3f

/-- `PATH_GET_CURR_HF_HOST`. -/
def pathGetCurrHf (path : UInt32) : UInt32 := (path >>> 24) &&& 0x3f

/-- `4 * (size_t)hdr->ip.v4->ihl - sizeof(*hdr->ip.v4)`, which wraps below zero. -/
def ipOptions (p : Packet) (ip : ℕ) : ℕ :=
  (4 * (byteAt p ip &&& 0x0f).toNat + (2 ^ 64 - sizeofIphdr)) % 2 ^ 64

/-! ## Parsing -/

/-- The end of `parse_underlay`: the UDP header. -/
def parseUdp (p : Packet) (hdr : Headers) (data : ℕ) : Option (Headers × ℕ) :=
  let hdr := { hdr with udp := data }
  let data := data + sizeofUdphdr
  if p.length < data then none else some (hdr, data)

/-- `parse_underlay`: the Ethernet header and the IP/UDP underlay. -/
def parseUnderlay (p : Packet) (hdr : Headers) (data : ℕ) : Option (Headers × ℕ) :=
  let hdr := { hdr with eth := data }
  let data := data + sizeofEthhdr
  if p.length < data then none
  else
    let hProto := le16 p (hdr.eth + 12)
    if hProto = bswap16 ETH_P_IP then
      let hdr := { hdr with ip := data }
      let data := data + sizeofIphdr
      if p.length < data then none
      else
        let skip := ipOptions p hdr.ip
        if 40 < skip then none
        else if byteAt p (hdr.ip + 9) ≠ IPPROTO_UDP then none
        else parseUdp p hdr (data + skip)
    else if hProto = bswap16 ETH_P_IPV6 then
      let hdr := { hdr with ip := data }
      let data := data + sizeofIpv6hdr
      if p.length < data then none
      else if byteAt p (hdr.ip + 6) ≠ IPPROTO_UDP then none
      else parseUdp p hdr data
    else none

/-- `parse_scion_path`: the standard SCION path, up to the current or the previous hop field. -/
def parseScionPath (p : Packet) (hdr : Headers) (data : ℕ) (prevHf : Bool) :
    Option (Headers × ℕ) :=
  let metaHdr := data
  let data := data + 4
  if p.length < data then none
  else
    let path := bswap32 (le32 p metaHdr)
    let numInf := (if 0 < pathGetSeg0 path then 1 else 0) +
      (if 0 < pathGetSeg1 path then 1 else 0) + (if 0 < pathGetSeg2 path then 1 else 0)
    let currHf := (pathGetCurrHf path).toNat
    let firstHf := data + numInf * sizeofInfofield
    let hf := firstHf + currHf * sizeofHopfield
    if p.length < hf + sizeofHopfield then none
    else
      -- the pointer steps back also from the first hop field
      let hf := if prevHf then hf - sizeofHopfield else hf
      some ({ hdr with hf := hf }, data)

/-- `parse_scion`: the SCION common and address headers and the path. -/
def parseScion (p : Packet) (hdr : Headers) (data : ℕ) (prevHf : Bool) : Option (Headers × ℕ) :=
  let hdr := { hdr with scion := data }
  let data := data + sizeofScionhdr
  if p.length < data then none
  else if scGetVer p hdr.scion ≠ 0 then none
  else
    -- skip over the addresses inside the ASes
    let data := data + 8 + 4 * (scGetDl p hdr.scion).toNat + 4 * (scGetSl p hdr.scion).toNat
    if p.length < data then none
    else if byteAt p (hdr.scion + 8) = SC_PATH_TYPE_SCION then parseScionPath p hdr data prevHf
    else none

/-- `hdr.udp->dest`, in network byte order. -/
def udpDest (p : Packet) (hdr : Headers) : UInt16 := le16 p (hdr.udp + 2)

/-- The test of `count` for the range of SCION ports. -/
def isScionPort (config : Config) (dest : UInt16) : Bool :=
  !(dest < config.firstScionPort || dest > config.lastScionPort)

/-- The key of a hop field: its ingress and egress interface as they stand in the packet. -/
def hopKey (p : Packet) (hf : ℕ) : UInt32 :=
  (le16 p (hf + 2)).toUInt32 ||| ((le16 p (hf + 4)).toUInt32 <<< 16)

/-- The parsing half of `count`: the key of the hop that the packet is attributed to, if any. -/
def countedHop (config : Config) (p : Packet) (prevHf : Bool) : Option UInt32 :=
  match parseUnderlay p {} 0 with
  | none => none
  | some (hdr, data) =>
    if isScionPort config (udpDest p hdr) then
      match parseScion p hdr data prevHf with
      | none => none
      | some (hdr, _) => some (hopKey p hdr.hf)
    else none

end Esdx.Monitor
