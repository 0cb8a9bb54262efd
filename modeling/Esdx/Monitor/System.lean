import Esdx.Foundations.Guarded
import Esdx.Monitor.HopField
import Mathlib.Data.List.AList

/-!
# The running monitor

The parties that run at the same time: the XDP program on every CPU, the eviction of the LRU map,
the goroutine that reads the ring buffer, and the goroutine that logs the counters.  Every action
is one operation on what they share: the counters map, the ring buffer, the channel, the log.

An entry of the map is an element of the kernel's table: a lookup returns a pointer to the slot of
the own CPU in the element, and an evicted element can be taken again for another key while a CPU
still holds such a pointer.  Next to the lines of the log, the history keeps what the data path has
done.
-/

namespace Esdx.Monitor

/-- A key of the counters map. -/
abbrev Key := UInt32

/-- `RINGBUF_SIZE`. -/
def RINGBUF_SIZE : ℕ := 4 * 4096

/-- The records that fit into the ring buffer: each takes a header of eight bytes and four bytes of
data, rounded up to a multiple of eight, and the buffer is never filled completely. -/
def ringbufRecords : ℕ := (RINGBUF_SIZE - 1) / 16

/-- What has happened: the lines that the host has logged, and the steps of the data path.  A packet
of a hop is added to the entry of some key, or to an element that is not in use. -/
inductive Event
  | newHop (hop : Hop)
  | deleteHop (hop : Hop)
  | totals (hop : Hop) (total : Counter)
  | attributed (key : Key) (p : Packet)
  | added (hop : Key) (entry : Option Key) (p : Packet)
  | inserted (key : Key)
  | insertFailed (key : Key) (p : Packet)
  | reserveFailed (key : Key)
  | evicted (key : Key)
deriving DecidableEq

/-- Where a CPU is in `count`: it has found the element of the hop, or none, or it has inserted the
hop and not reported it yet. -/
inductive Phase
  | idle
  | found (hop : Key) (elem : ℕ) (p : Packet)
  | missing (hop : Key) (p : Packet)
  | inserted (hop : Key)
deriving DecidableEq

/-- Where `poll_ringbuf` is: reading, sending a hop on the channel, or at its end after an
error. -/
inductive Reader
  | reading
  | sending (hop : Hop)
  | stopped

/-- Where `poll_counters` is: waiting for a tick or a hop, or in `log_counters` with the hops that
are still to be visited and those found to be deleted. -/
inductive Poll
  | waiting
  | logging (todo deleted : List Hop)

/-- The state of the monitor on `n` CPUs. -/
structure State (n : ℕ) where
  /-- the element of each key in the counters map -/
  counters : Key → Option ℕ := fun _ => none
  /-- the key of each element in use -/
  owner : ℕ → Option Key := fun _ => none
  slots : ℕ → Fin n → Counter := fun _ _ => 0
  cpu : Fin n → Phase := fun _ => .idle
  ringbuf : List Key := []
  reader : Reader := .reading
  hops : AList fun _ : Hop => Counter := ∅
  poll : Poll := .waiting
  history : List Event := []

/-- One operation of one party. -/
inductive Action (n : ℕ)
  /-- a packet arrives, and `count` looks its hop up -/
  | receive (cpu : Fin n) (ifindex : UInt32) (p : Packet)
  | increment (cpu : Fin n)
  /-- `bpf_map_update_elem` with `BPF_NOEXIST`; a new entry takes this element -/
  | update (cpu : Fin n) (elem : ℕ)
  /-- `report_new_hop` -/
  | report (cpu : Fin n)
  | evict (key : Key)
  /-- `reader.Read`, without and with an error -/
  | read
  | readFails
  /-- the hop that is sent is received -/
  | handOver
  /-- a tick starts `log_counters` -/
  | tick
  /-- the loop of `log_counters` on one hop, whose lookup may fail for another reason than a
  missing key -/
  | visit (hop : Hop)
  | visitFails (hop : Hop)
  /-- the deletions at the end of `log_counters` -/
  | finish

variable {n : ℕ}

namespace State

variable (s : State n)

/-- The CPU goes to another phase. -/
def goto (cpu : Fin n) (phase : Phase) : State n :=
  { s with cpu := Function.update s.cpu cpu phase }

/-- More events have happened. -/
def record (events : List Event) : State n := { s with history := s.history ++ events }

/-- The CPU adds a packet to its slot of an element. -/
def addToSlot (cpu : Fin n) (elem : ℕ) (p : Packet) : State n :=
  { s with
    slots := Function.update s.slots elem (Function.update (s.slots elem) cpu
      (s.slots elem cpu + Counter.packet (pktSize p))) }

/-- A new entry: the slot of the CPU that inserts it has the packet, the other slots are zero. -/
def insertEntry (cpu : Fin n) (elem : ℕ) (hop : Key) (p : Packet) : State n :=
  { s with
    counters := Function.update s.counters hop (some elem)
    owner := Function.update s.owner elem (some hop)
    slots := Function.update s.slots elem
      (Function.update (fun _ => 0) cpu (Counter.packet (pktSize p))) }

/-- The entry of a key goes, and its element is free again. -/
def removeEntry (key : Key) (elem : ℕ) : State n :=
  { s with
    counters := Function.update s.counters key none
    owner := Function.update s.owner elem none }

/-- `read_percpu_counters`, `none` standing for `ErrKeyNotExist`. -/
def readPercpuCounters (key : Key) : Option Counter :=
  (s.counters key).map fun elem => sumPercpu (List.ofFn (s.slots elem))

end State

variable (maps : Maps)

/-- One action, if it is possible. -/
def step : Action n → State n → Option (State n)
  | .receive cpu ifindex p, s =>
    match s.cpu cpu with
    | .idle =>
      match (esdxMonitor maps ifindex p).2 with
      | none => some s
      | some hop =>
        match s.counters hop with
        | some elem => some ((s.goto cpu (.found hop elem p)).record [.attributed hop p])
        | none => some ((s.goto cpu (.missing hop p)).record [.attributed hop p])
    | _ => none
  | .increment cpu, s =>
    match s.cpu cpu with
    | .found hop elem p =>
      -- the element may have been evicted, and taken again for another key
      some (((s.goto cpu .idle).addToSlot cpu elem p).record [.added hop (s.owner elem) p])
    | _ => none
  | .update cpu elem, s =>
    match s.cpu cpu with
    | .missing hop p =>
      let s' := s.goto cpu (.inserted hop)
      match s.counters hop, s.owner elem with
      -- the result `-EEXIST` is ignored
      | some _, _ => some (s'.record [.insertFailed hop p])
      | none, none =>
        some ((s'.insertEntry cpu elem hop p).record [.inserted hop, .added hop (some hop) p])
      | none, some _ => none
    | _ => none
  | .report cpu, s =>
    match s.cpu cpu with
    | .inserted hop =>
      let s' := s.goto cpu .idle
      if s.ringbuf.length < ringbufRecords then some { s' with ringbuf := s.ringbuf ++ [hop] }
      else some (s'.record [.reserveFailed hop])
    | _ => none
  | .evict key, s =>
    match s.counters key with
    | some elem => some ((s.removeEntry key elem).record [.evicted key])
    | none => none
  | .read, s =>
    match s.reader, s.ringbuf with
    | .reading, hop :: rest => some { s with ringbuf := rest, reader := .sending (hopOfKey hop) }
    | _, _ => none
  | .readFails, s =>
    match s.reader with
    | .reading => some { s with reader := .stopped }
    | _ => none
  | .handOver, s =>
    match s.reader, s.poll with
    | .sending hop, .waiting =>
      some ({ s with reader := .reading, hops := s.hops.insert hop 0 }.record [.newHop hop])
    | _, _ => none
  | .tick, s =>
    match s.poll with
    | .waiting => some { s with poll := .logging s.hops.keys [] }
    | _ => none
  | .visit hop, s =>
    match s.poll, s.hops.lookup hop with
    | .logging todo deleted, some oldVal =>
      if hop ∈ todo then
        match s.readPercpuCounters hop.toMapKey with
        | none =>
          some ({ s with poll := .logging (todo.erase hop) (deleted ++ [hop]) }.record
            [.deleteHop hop])
        | some newVal =>
          some ({ s with
            poll := .logging (todo.erase hop) deleted
            hops := s.hops.insert hop newVal }.record
              (if newVal ≠ oldVal then [.totals hop newVal] else []))
      else none
    | _, _ => none
  | .visitFails hop, s =>
    match s.poll with
    | .logging todo deleted =>
      if hop ∈ todo then some { s with poll := .logging (todo.erase hop) deleted } else none
    | _ => none
  | .finish, s =>
    match s.poll with
    | .logging [] deleted =>
      some { s with
        poll := .waiting
        hops := deleted.foldl (fun hops hop => hops.erase hop) s.hops }
    | _ => none

/-! ## What a step does -/

/-- The possible steps, with what is known before and how the state changes. -/
inductive Effect (s : State n) : Action n → State n → Prop
  | ignored {cpu : Fin n} {ifindex : UInt32} {p : Packet} (hcpu : s.cpu cpu = .idle)
      (hnone : (esdxMonitor maps ifindex p).2 = none) : Effect s (.receive cpu ifindex p) s
  | found {cpu : Fin n} {ifindex : UInt32} {p : Packet} {hop : Key} {elem : ℕ}
      (hcpu : s.cpu cpu = .idle) (hsome : (esdxMonitor maps ifindex p).2 = some hop)
      (hentry : s.counters hop = some elem) :
      Effect s (.receive cpu ifindex p)
        ((s.goto cpu (.found hop elem p)).record [.attributed hop p])
  | missing {cpu : Fin n} {ifindex : UInt32} {p : Packet} {hop : Key} (hcpu : s.cpu cpu = .idle)
      (hsome : (esdxMonitor maps ifindex p).2 = some hop) (hentry : s.counters hop = none) :
      Effect s (.receive cpu ifindex p)
        ((s.goto cpu (.missing hop p)).record [.attributed hop p])
  | incremented {cpu : Fin n} {hop : Key} {elem : ℕ} {p : Packet}
      (hcpu : s.cpu cpu = .found hop elem p) :
      Effect s (.increment cpu)
        (((s.goto cpu .idle).addToSlot cpu elem p).record [.added hop (s.owner elem) p])
  | insertFailed {cpu : Fin n} {elem elem' : ℕ} {hop : Key} {p : Packet}
      (hcpu : s.cpu cpu = .missing hop p) (hentry : s.counters hop = some elem') :
      Effect s (.update cpu elem)
        ((s.goto cpu (.inserted hop)).record [.insertFailed hop p])
  | inserted {cpu : Fin n} {elem : ℕ} {hop : Key} {p : Packet}
      (hcpu : s.cpu cpu = .missing hop p) (hentry : s.counters hop = none)
      (howner : s.owner elem = none) :
      Effect s (.update cpu elem)
        (((s.goto cpu (.inserted hop)).insertEntry cpu elem hop p).record
          [.inserted hop, .added hop (some hop) p])
  | reported {cpu : Fin n} {hop : Key} (hcpu : s.cpu cpu = .inserted hop)
      (hroom : s.ringbuf.length < ringbufRecords) :
      Effect s (.report cpu) { s.goto cpu .idle with ringbuf := s.ringbuf ++ [hop] }
  | reserveFailed {cpu : Fin n} {hop : Key} (hcpu : s.cpu cpu = .inserted hop)
      (hfull : ringbufRecords ≤ s.ringbuf.length) :
      Effect s (.report cpu) ((s.goto cpu .idle).record [.reserveFailed hop])
  | evicted {key : Key} {elem : ℕ} (hentry : s.counters key = some elem) :
      Effect s (.evict key) ((s.removeEntry key elem).record [.evicted key])
  | read {hop : Key} {rest : List Key} (hreader : s.reader = .reading)
      (hringbuf : s.ringbuf = hop :: rest) :
      Effect s .read { s with ringbuf := rest, reader := .sending (hopOfKey hop) }
  | stopped (hreader : s.reader = .reading) : Effect s .readFails { s with reader := .stopped }
  | handedOver {hop : Hop} (hreader : s.reader = .sending hop) (hpoll : s.poll = .waiting) :
      Effect s .handOver
        ({ s with reader := .reading, hops := s.hops.insert hop 0 }.record [.newHop hop])
  | ticked (hpoll : s.poll = .waiting) :
      Effect s .tick { s with poll := .logging s.hops.keys [] }
  | deleted {hop : Hop} {todo deleted : List Hop} (hpoll : s.poll = .logging todo deleted)
      (htodo : hop ∈ todo) (hentry : s.counters hop.toMapKey = none) :
      Effect s (.visit hop)
        ({ s with poll := .logging (todo.erase hop) (deleted ++ [hop]) }.record [.deleteHop hop])
  | visited {hop : Hop} {todo deleted : List Hop} {elem : ℕ} {lines : List Event}
      (hpoll : s.poll = .logging todo deleted) (htodo : hop ∈ todo) (hknown : hop ∈ s.hops)
      (hentry : s.counters hop.toMapKey = some elem)
      (hlines : lines = [] ∨ lines = [.totals hop (∑ cpu, s.slots elem cpu)]) :
      Effect s (.visit hop)
        ({ s with
          poll := .logging (todo.erase hop) deleted
          hops := s.hops.insert hop (∑ cpu, s.slots elem cpu) }.record lines)
  | skipped {hop : Hop} {todo deleted : List Hop} (hpoll : s.poll = .logging todo deleted)
      (htodo : hop ∈ todo) :
      Effect s (.visitFails hop) { s with poll := .logging (todo.erase hop) deleted }
  | finished {deleted : List Hop} (hpoll : s.poll = .logging [] deleted) :
      Effect s .finish { s with
        poll := .waiting
        hops := deleted.foldl (fun hops hop => hops.erase hop) s.hops }

variable {maps} {s s' : State n}

/-- The counters that the host reads. -/
lemma readPercpuCounters_eq_some {key : Key} {total : Counter} :
    s.readPercpuCounters key = some total ↔
      ∃ elem, s.counters key = some elem ∧ ∑ cpu, s.slots elem cpu = total := by
  simp only [State.readPercpuCounters, Option.map_eq_some_iff, sumPercpu_ofFn]

/-- A key without counters has no entry. -/
lemma readPercpuCounters_eq_none {key : Key} :
    s.readPercpuCounters key = none ↔ s.counters key = none := by
  rw [State.readPercpuCounters, Option.map_eq_none_iff]

/-- Every step has one of the effects. -/
lemma step_effect {a : Action n} (h : step maps a s = some s') : Effect maps s a s' := by
  cases a with
  | receive cpu ifindex p =>
    rw [step] at h
    split at h
    · rename_i hcpu
      split at h
      · rename_i hnone
        obtain rfl := Option.some.inj h
        exact .ignored hcpu hnone
      · rename_i hop hsome
        split at h
        · rename_i elem hentry
          obtain rfl := Option.some.inj h
          exact .found hcpu hsome hentry
        · rename_i hentry
          obtain rfl := Option.some.inj h
          exact .missing hcpu hsome hentry
    · simp at h
  | increment cpu =>
    rw [step] at h
    split at h
    · rename_i hop elem p hcpu
      obtain rfl := Option.some.inj h
      exact .incremented hcpu
    · simp at h
  | update cpu elem =>
    rw [step] at h
    split at h
    · rename_i hop p hcpu
      dsimp only at h
      split at h
      · rename_i elem' _ hentry
        obtain rfl := Option.some.inj h
        exact .insertFailed hcpu hentry
      · rename_i hentry howner
        obtain rfl := Option.some.inj h
        exact .inserted hcpu hentry howner
      · simp at h
    · simp at h
  | report cpu =>
    rw [step] at h
    split at h
    · rename_i hop hcpu
      dsimp only at h
      split at h
      · rename_i hroom
        obtain rfl := Option.some.inj h
        exact .reported hcpu hroom
      · rename_i hfull
        obtain rfl := Option.some.inj h
        exact .reserveFailed hcpu (not_lt.mp hfull)
    · simp at h
  | evict key =>
    rw [step] at h
    split at h
    · rename_i elem hentry
      obtain rfl := Option.some.inj h
      exact .evicted hentry
    · simp at h
  | read =>
    rw [step] at h
    split at h
    · rename_i hop rest hreader hringbuf
      obtain rfl := Option.some.inj h
      exact .read hreader hringbuf
    · simp at h
  | readFails =>
    rw [step] at h
    split at h
    · rename_i hreader
      obtain rfl := Option.some.inj h
      exact .stopped hreader
    · simp at h
  | handOver =>
    rw [step] at h
    split at h
    · rename_i hop hreader hpoll
      obtain rfl := Option.some.inj h
      exact .handedOver hreader hpoll
    · simp at h
  | tick =>
    rw [step] at h
    split at h
    · rename_i hpoll
      obtain rfl := Option.some.inj h
      exact .ticked hpoll
    · simp at h
  | visit hop =>
    rw [step] at h
    split at h
    · rename_i todo deleted oldVal hpoll hold
      have hknown : hop ∈ s.hops := AList.lookup_isSome.mp (by rw [hold]; rfl)
      split at h
      · rename_i htodo
        split at h
        · rename_i hread
          obtain rfl := Option.some.inj h
          exact .deleted hpoll htodo (readPercpuCounters_eq_none.mp hread)
        · rename_i newVal hread
          obtain ⟨elem, hentry, rfl⟩ := readPercpuCounters_eq_some.mp hread
          obtain rfl := Option.some.inj h
          refine .visited hpoll htodo hknown hentry ?_
          split
          · exact .inr rfl
          · exact .inl rfl
      · simp at h
    · simp at h
  | visitFails hop =>
    rw [step] at h
    split at h
    · rename_i todo deleted hpoll
      split at h
      · rename_i htodo
        obtain rfl := Option.some.inj h
        exact .skipped hpoll htodo
      · simp at h
    · simp at h
  | finish =>
    rw [step] at h
    split at h
    · rename_i deleted hpoll
      obtain rfl := Option.some.inj h
      exact .finished hpoll
    · simp at h

end Esdx.Monitor
