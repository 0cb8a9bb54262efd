import Esdx.Monitor.Setup

/-!
# Counters

`struct counter` of the data path with its wrapping arithmetic, the sum over all CPUs that the host
reads, and `count` as one CPU runs it when no other CPU touches the map.
-/

namespace Esdx.Monitor

/-- `struct counter`. -/
@[ext]
structure Counter where
  bytes : UInt64
  packets : UInt64
deriving DecidableEq

namespace Counter

instance : Zero Counter := ⟨⟨0, 0⟩⟩

instance : Add Counter := ⟨fun a b => ⟨a.bytes + b.bytes, a.packets + b.packets⟩⟩

@[simp] lemma bytes_zero : (0 : Counter).bytes = 0 := rfl

@[simp] lemma packets_zero : (0 : Counter).packets = 0 := rfl

@[simp] lemma bytes_add (a b : Counter) : (a + b).bytes = a.bytes + b.bytes := rfl

@[simp] lemma packets_add (a b : Counter) : (a + b).packets = a.packets + b.packets := rfl

instance : AddCommMonoid Counter where
  add_assoc a b c := by ext1 <;> exact add_assoc ..
  zero_add a := by ext1 <;> exact zero_add _
  add_zero a := by ext1 <;> exact add_zero _
  add_comm a b := by ext1 <;> exact add_comm ..
  nsmul := nsmulRec

/-- What one packet of this size adds. -/
def packet (pktSize : UInt64) : Counter := ⟨pktSize, 1⟩

/-- A packet changes every counter. -/
lemma add_packet_ne (c : Counter) (pktSize : UInt64) : c + packet pktSize ≠ c := by
  intro h
  have hpackets : c.packets + 1 = c.packets := congrArg Counter.packets h
  have hlt := c.packets.toNat_lt
  rw [← UInt64.toNat_inj, UInt64.toNat_add, UInt64.toNat_one] at hpackets
  omega

end Counter

/-- The sum in `read_percpu_counters`, over the values of all CPUs. -/
def sumPercpu (perCpuValues : List Counter) : Counter :=
  perCpuValues.foldl (fun total values => total + values) 0

/-- The order of the CPUs does not matter. -/
lemma sumPercpu_ofFn {n : ℕ} (slots : Fin n → Counter) :
    sumPercpu (List.ofFn slots) = ∑ cpu, slots cpu := by
  rw [← List.sum_ofFn, sumPercpu, List.sum_eq_foldl]

/-- The size of a packet, `data_end - data`. -/
def pktSize (p : Packet) : UInt64 := UInt64.ofNat p.length

/-- `count` on the slots of one CPU, and whether it reports a new hop. -/
def count (config : Config) (p : Packet) (prevHf : Bool) (counters : UInt32 → Option Counter) :
    (UInt32 → Option Counter) × Option UInt32 :=
  match countedHop config p prevHf with
  | none => (counters, none)
  | some hop =>
    match counters hop with
    | some ctr =>
      (Function.update counters hop (some (ctr + Counter.packet (pktSize p))), none)
    | none => (Function.update counters hop (some (Counter.packet (pktSize p))), some hop)

/-- `count` changes exactly the counter of the hop that the packet is attributed to. -/
lemma count_ne_iff {config : Config} {p : Packet} {prevHf : Bool}
    {counters : UInt32 → Option Counter} {key : UInt32} :
    (count config p prevHf counters).1 key ≠ counters key ↔
      countedHop config p prevHf = some key := by
  unfold count
  rcases hcounted : countedHop config p prevHf with _ | hop
  · simp
  dsimp only
  rw [Option.some.injEq]
  by_cases hkey : hop = key
  · subst hkey
    rcases hctr : counters hop with _ | ctr
    · simp
    · simp [Counter.add_packet_ne]
  · have hother : ∀ c : Counter, Function.update counters hop (some c) key = counters key :=
      fun c => Function.update_of_ne (Ne.symm hkey) ..
    rcases counters hop with _ | ctr
    · exact iff_of_false (not_not.mpr (hother _)) hkey
    · exact iff_of_false (not_not.mpr (hother _)) hkey

end Esdx.Monitor
