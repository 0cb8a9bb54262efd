import Esdx.Monitor.Counting
import Mathlib.Algebra.Order.Monoid.Prod

/-!
# The logged totals of one life of a hop

The totals that the host logs are those of the entry that it finds: what was added to the entry
since its insertion.  An entry that is evicted and inserted again starts anew, and the host may log
its totals before it has received the event of the insertion.  A CPU that still holds a pointer to
an evicted element adds its packet to whichever entry has the element by then.
-/

namespace Esdx.Monitor

variable {n : ℕ} {maps : Maps} {s s' : State n}

/-! ## What an entry has counted -/

/-- What the entry of a key has counted after some events, when it has counted `t` before them. -/
def countedFrom (key : Key) (t : Traffic) (events : List Event) : Traffic :=
  events.foldl (fun t e => if e = .inserted key then 0 else t + addedTo key e) t

/-- What was added to the entry of a key since its last insertion. -/
def sinceInsertion (key : Key) (events : List Event) : Traffic := countedFrom key 0 events

@[simp] lemma countedFrom_nil (key : Key) (t : Traffic) : countedFrom key t [] = t := rfl

lemma countedFrom_cons (key : Key) (t : Traffic) (e : Event) (events : List Event) :
    countedFrom key t (e :: events) =
      countedFrom key (if e = .inserted key then 0 else t + addedTo key e) events := rfl

lemma countedFrom_append (key : Key) (t : Traffic) (events events' : List Event) :
    countedFrom key t (events ++ events') = countedFrom key (countedFrom key t events) events' :=
  List.foldl_append ..

lemma sumOver_cons (f : Event → Traffic) (e : Event) (events : List Event) :
    sumOver f (e :: events) = f e + sumOver f events := rfl

/-- A new entry has counted one packet. -/
lemma countedFrom_insertion (key hop : Key) (t : Traffic) (p : Packet) :
    countedFrom key t [.inserted hop, .added hop (some hop) p] =
      if hop = key then traffic p else t := by
  rw [countedFrom_cons, countedFrom_cons, countedFrom_nil, if_neg (by simp)]
  by_cases hkey : hop = key
  · simp [hkey, addedTo]
  · simp [hkey, addedTo]

/-- An entry counts no more than what was there and what is added. -/
lemma countedFrom_le (key : Key) (t : Traffic) (events : List Event) :
    countedFrom key t events ≤ t + sumOver (addedTo key) events := by
  induction events generalizing t with
  | nil => exact le_self_add
  | cons e events ih =>
    rw [countedFrom_cons, sumOver_cons]
    split
    · calc countedFrom key 0 events ≤ 0 + sumOver (addedTo key) events := ih 0
        _ ≤ t + (addedTo key e + sumOver (addedTo key) events) := by
          rw [zero_add, ← add_assoc]
          exact le_add_self
    · rw [← add_assoc]
      exact ih _

/-- No insertion of the key discards traffic: when the key is inserted, nothing was there before the
events and nothing was added since. -/
def NothingDiscarded (key : Key) (t : Traffic) (events : List Event) : Prop :=
  ∀ before after, events = before ++ .inserted key :: after →
    t = 0 ∧ sumOver (addedTo key) before = 0

/-- Without an insertion nothing is discarded. -/
lemma nothingDiscarded_of_not_mem {key : Key} {events : List Event}
    (h : .inserted key ∉ events) (t : Traffic) : NothingDiscarded key t events := by
  intro before after hsplit
  exact absurd (hsplit ▸ List.mem_append_right _ List.mem_cons_self) h

/-- The first event of a list in which nothing is discarded. -/
lemma nothingDiscarded_cons {key : Key} {t : Traffic} {e : Event} {events : List Event} :
    NothingDiscarded key t (e :: events) ↔
      (e = .inserted key → t = 0) ∧ NothingDiscarded key (t + addedTo key e) events := by
  constructor
  · intro h
    refine ⟨fun he => (h [] events (by rw [he]; rfl)).1, fun before after hsplit => ?_⟩
    obtain ⟨ht, hsum⟩ := h (e :: before) after (by rw [hsplit]; rfl)
    rw [sumOver_cons, add_eq_zero] at hsum
    exact ⟨by rw [ht, hsum.1, add_zero], hsum.2⟩
  · rintro ⟨hfirst, hrest⟩ before after hsplit
    cases before with
    | nil => exact ⟨hfirst (List.cons.inj hsplit).1, rfl⟩
    | cons e' before =>
      obtain ⟨rfl, htail⟩ := List.cons.inj hsplit
      obtain ⟨ht, hsum⟩ := hrest before after htail
      rw [add_eq_zero] at ht
      exact ⟨ht.1, by rw [sumOver_cons, ht.2, hsum, add_zero]⟩

/-- An entry has counted all that was there and was added exactly when nothing is discarded. -/
lemma countedFrom_eq_iff {key : Key} {t : Traffic} {events : List Event} :
    countedFrom key t events = t + sumOver (addedTo key) events ↔
      NothingDiscarded key t events := by
  induction events generalizing t with
  | nil =>
    refine iff_of_true (add_zero t).symm fun before after hsplit => ?_
    simp at hsplit
  | cons e events ih =>
    rw [countedFrom_cons, sumOver_cons, ← add_assoc, nothingDiscarded_cons, ← ih]
    split
    · rename_i he
      have hadded : addedTo key e = 0 := by rw [he]; rfl
      rw [hadded, add_zero]
      constructor
      · intro h
        have ht : t = 0 := by
          have hle := h ▸ countedFrom_le key 0 events
          rw [zero_add] at hle
          have hle : t + sumOver (addedTo key) events ≤ 0 + sumOver (addedTo key) events := by
            rwa [zero_add]
          exact le_zero_iff.mp (le_of_add_le_add_right hle)
        exact ⟨fun _ => ht, by rw [ht] at h ⊢; exact h⟩
      · rintro ⟨ht, h⟩
        rw [ht he] at h ⊢
        exact h
    · rename_i he
      exact (and_iff_right fun he' => absurd he' he).symm

/-- The counters only show what was there before modulo their size. -/
lemma toCounter_countedFrom_congr {key : Key} {t u : Traffic} (h : toCounter t = toCounter u)
    (events : List Event) :
    toCounter (countedFrom key t events) = toCounter (countedFrom key u events) := by
  induction events generalizing t u with
  | nil => exact h
  | cons e events ih =>
    rw [countedFrom_cons, countedFrom_cons]
    refine ih ?_
    split
    · rfl
    · rw [toCounter_add, toCounter_add, h]

/-! ## The invariant -/

/-- Every logged total is what the entry of the hop had counted then. -/
def Logged (history : List Event) : Prop :=
  ∀ before hop v after, history = before ++ .totals hop v :: after →
    v = toCounter (sinceInsertion hop.toMapKey before)

/-- More events, with totals of what the entries have counted. -/
lemma Logged.append {history events : List Event} (h : Logged history)
    (hevents : ∀ before hop v after, events = before ++ .totals hop v :: after →
      v = toCounter (sinceInsertion hop.toMapKey (history ++ before))) :
    Logged (history ++ events) := by
  intro before hop v after hsplit
  rcases List.append_eq_append_iff.mp hsplit with ⟨middle, rfl, htail⟩ | ⟨middle, hhead, htail⟩
  · exact hevents middle hop v after htail
  · cases middle with
    | nil =>
      rw [List.append_nil] at hhead
      rw [List.nil_append] at htail
      rw [hevents [] hop v after htail.symm, List.append_nil, hhead]
    | cons e middle =>
      obtain ⟨rfl, -⟩ := List.cons.inj htail
      exact h before hop v middle hhead

/-- More events without totals. -/
lemma Logged.append_of_not_mem {history events : List Event} (h : Logged history)
    (hevents : ∀ hop v, .totals hop v ∉ events) : Logged (history ++ events) := by
  refine h.append fun before hop v after hsplit => ?_
  exact absurd (hsplit ▸ List.mem_append_right _ List.mem_cons_self) (hevents hop v)

/-- The slots of every entry add up to what it has counted, and so do the logged totals. -/
structure Counted (s : State n) : Prop where
  consistent : Consistent s
  total : ∀ key elem, s.counters key = some elem →
    ∑ cpu, s.slots elem cpu = toCounter (sinceInsertion key s.history)
  logged : Logged s.history

/-- The start. -/
lemma counted_init : Counted ({} : State n) where
  consistent key elem := by simp
  total key elem h := by simp at h
  logged before hop v after h := by simp at h

/-- An event that neither inserts nor counts. -/
def KeepsEntries (e : Event) : Prop := ∀ key, e ≠ .inserted key ∧ addedTo key e = 0

/-- Events that neither insert nor count. -/
lemma countedFrom_of_keepsEntries {events : List Event} (h : ∀ e ∈ events, KeepsEntries e)
    (key : Key) (t : Traffic) : countedFrom key t events = t := by
  induction events generalizing t with
  | nil => rfl
  | cons e events ih =>
    obtain ⟨hinserted, hadded⟩ := h e List.mem_cons_self key
    rw [countedFrom_cons, if_neg hinserted, hadded, add_zero]
    exact ih (fun e he => h e (List.mem_cons_of_mem _ he)) t

/-- A step that leaves the elements and their slots, and inserts and counts nothing. -/
lemma Counted.of_keeps (h : Counted s) {events : List Event}
    (hcounters : s'.counters = s.counters) (howner : s'.owner = s.owner)
    (hslots : s'.slots = s.slots) (hhistory : s'.history = s.history ++ events)
    (hkeeps : ∀ e ∈ events, KeepsEntries e) (hlogged : Logged s'.history) : Counted s' := by
  refine ⟨?_, ?_, hlogged⟩
  · intro key elem
    rw [hcounters, howner]
    exact h.consistent key elem
  · intro key elem hentry
    rw [hslots, hhistory, sinceInsertion, countedFrom_append, countedFrom_of_keepsEntries hkeeps]
    exact h.total key elem (hcounters ▸ hentry)

/-- A step that records at most one event, which is neither an insertion, nor counts, nor has
totals. -/
lemma Counted.of_event (h : Counted s) {e : Event} (hcounters : s'.counters = s.counters)
    (howner : s'.owner = s.owner) (hslots : s'.slots = s.slots)
    (hhistory : s'.history = s.history ++ [e]) (hkeeps : KeepsEntries e)
    (htotals : ∀ hop v, e ≠ .totals hop v) : Counted s' := by
  refine h.of_keeps hcounters howner hslots hhistory (by simpa using hkeeps) ?_
  rw [hhistory]
  exact h.logged.append_of_not_mem fun hop v hmem =>
    htotals hop v (List.mem_singleton.mp hmem).symm

/-- A step that records nothing. -/
lemma Counted.of_silent (h : Counted s) (hcounters : s'.counters = s.counters)
    (howner : s'.owner = s.owner) (hslots : s'.slots = s.slots)
    (hhistory : s'.history = s.history) : Counted s' := by
  refine h.of_keeps hcounters howner hslots (hhistory.trans (List.append_nil _).symm) (by simp) ?_
  rw [hhistory]
  exact h.logged

/-- A CPU adds its packet to the element that it has found, which may be that of another key by now,
or of none. -/
lemma Counted.incremented (h : Counted s) (cpu : Fin n) (hop : Key) (elem : ℕ) (p : Packet) :
    Counted (((s.goto cpu .idle).addToSlot cpu elem p).record [.added hop (s.owner elem) p]) := by
  refine ⟨h.consistent, ?_, h.logged.append_of_not_mem (by simp)⟩
  intro k elem' hk
  have hk : s.counters k = some elem' := hk
  have htotal : ∑ c, (s.goto cpu .idle).slots elem' c = toCounter (sinceInsertion k s.history) :=
    h.total k elem' hk
  have hadded : sinceInsertion k (s.history ++ [.added hop (s.owner elem) p]) =
      sinceInsertion k s.history + if s.owner elem = some k then traffic p else 0 := by
    rw [sinceInsertion, countedFrom_append, countedFrom_cons, if_neg (by simp), countedFrom_nil]
    rfl
  have howner : elem' = elem ↔ s.owner elem = some k := by
    rw [← h.consistent k elem, hk, Option.some.injEq]
  refine ((sum_slots_addToSlot (s.goto cpu .idle) cpu elem elem' p).trans ?_).trans
    (congrArg toCounter hadded.symm)
  simp only [htotal, howner]
  by_cases hkey : s.owner elem = some k
  · rw [if_pos hkey, if_pos hkey, toCounter_add]
  · rw [if_neg hkey, if_neg hkey, add_zero, add_zero]

/-- A new entry has counted the packet of the CPU that inserts it. -/
lemma Counted.inserted (h : Counted s) {cpu : Fin n} {elem : ℕ} {hop : Key} {p : Packet}
    (hentry : s.counters hop = none) (howner : s.owner elem = none) :
    Counted (((s.goto cpu (.inserted hop)).insertEntry cpu elem hop p).record
      [.inserted hop, .added hop (some hop) p]) := by
  refine ⟨h.consistent.insertEntry hentry howner cpu p, ?_,
    h.logged.append_of_not_mem (by simp)⟩
  intro k e hlookup
  have hk := (counters_insertEntry (s.goto cpu (.inserted hop)) cpu elem hop p k).symm.trans hlookup
  have hcount : sinceInsertion k (s.history ++ [.inserted hop, .added hop (some hop) p]) =
      if hop = k then traffic p else sinceInsertion k s.history := by
    rw [sinceInsertion, countedFrom_append, countedFrom_insertion]
    rfl
  refine ((sum_slots_insertEntry (s.goto cpu (.inserted hop)) cpu elem e hop p).trans ?_).trans
    (congrArg toCounter hcount.symm)
  by_cases hkey : hop = k
  · rw [if_pos hkey.symm] at hk
    rw [if_pos (Option.some.inj hk).symm, if_pos hkey]
  · rw [if_neg (Ne.symm hkey)] at hk
    have hk : s.counters k = some e := hk
    rw [if_neg (h.consistent.ne_of_free hk howner), if_neg hkey]
    exact h.total k e hk

/-- An evicted entry is gone, and the others stay. -/
lemma Counted.evicted (h : Counted s) {key : Key} {elem : ℕ} (hentry : s.counters key = some elem) :
    Counted ((s.removeEntry key elem).record [.evicted key]) := by
  refine ⟨h.consistent.removeEntry hentry, ?_, h.logged.append_of_not_mem (by simp)⟩
  intro k e hlookup
  have hk := (counters_removeEntry s key elem k).symm.trans hlookup
  have hkey : k ≠ key := by
    rintro rfl
    rw [if_pos rfl] at hk
    simp at hk
  rw [if_neg hkey] at hk
  have hcount : sinceInsertion k (s.history ++ [.evicted key]) = sinceInsertion k s.history := by
    rw [sinceInsertion, countedFrom_append,
      countedFrom_of_keepsEntries (by simp [KeepsEntries, addedTo])]
    rfl
  exact (h.total k e hk).trans (congrArg toCounter hcount.symm)

/-- **One step.**  Every step keeps the slots and the logged totals at what the entries have
counted. -/
lemma Counted.step (h : Counted s) {a : Action n} (ha : Effect maps s a s') : Counted s' := by
  cases ha with
  | ignored => exact h
  | incremented hcpu => exact h.incremented _ _ _ _
  | inserted hcpu hentry howner => exact h.inserted hentry howner
  | evicted hentry => exact h.evicted hentry
  | @visited hop todo deleted elem lines hpoll htodo hknown hentry hlines =>
    refine h.of_keeps rfl rfl rfl rfl ?_ ?_
    · rcases hlines with rfl | rfl
      · simp
      · simp [KeepsEntries, addedTo]
    · refine h.logged.append fun before hop' v after hsplit => ?_
      rcases hlines with rfl | rfl
      · simp at hsplit
      · -- the totals are those of the entry that was found
        cases before with
        | nil =>
          obtain ⟨rfl, rfl⟩ := Event.totals.inj (List.cons.inj hsplit).1
          rw [List.append_nil]
          exact h.total _ elem hentry
        | cons e before => simp at hsplit
  | found => exact h.of_event rfl rfl rfl rfl (by simp [KeepsEntries, addedTo]) (by simp)
  | missing => exact h.of_event rfl rfl rfl rfl (by simp [KeepsEntries, addedTo]) (by simp)
  | insertFailed => exact h.of_event rfl rfl rfl rfl (by simp [KeepsEntries, addedTo]) (by simp)
  | reserveFailed => exact h.of_event rfl rfl rfl rfl (by simp [KeepsEntries, addedTo]) (by simp)
  | handedOver => exact h.of_event rfl rfl rfl rfl (by simp [KeepsEntries, addedTo]) (by simp)
  | deleted => exact h.of_event rfl rfl rfl rfl (by simp [KeepsEntries, addedTo]) (by simp)
  | _ => exact h.of_silent rfl rfl rfl rfl

/-- **Runs.**  After every run the slots and the logged totals are what the entries have
counted. -/
lemma run_counted {actions : List (Action n)} (h : Guarded.run (step maps) actions {} = some s) :
    Counted s :=
  Guarded.run_induction Counted counted_init (fun _ _ _ ht hstep => ht.step (step_effect hstep)) h

/-! ## Two reports of a hop -/

/-- The host has reported totals of a hop twice, with no message in between that the hop is new or
deleted. -/
structure Reports (s : State n) (hop : Hop) (v v' : Counter)
    (before between after : List Event) : Prop where
  history : s.history = before ++ .totals hop v :: (between ++ .totals hop v' :: after)
  notNew : .newHop hop ∉ between
  notDeleted : .deleteHop hop ∉ between

/-- The traffic that a counter shows. -/
def Counter.toTraffic (c : Counter) : Traffic := (c.bytes.toNat, c.packets.toNat)

lemma toTraffic_toCounter (t : Traffic) :
    (toCounter t).toTraffic = (t.1 % 2 ^ 64, t.2 % 2 ^ 64) := by
  ext1
  · exact UInt64.toNat_ofNat'
  · exact UInt64.toNat_ofNat'

lemma toCounter_toTraffic (c : Counter) : toCounter c.toTraffic = c := by
  ext1
  · exact UInt64.ofNat_toNat
  · exact UInt64.ofNat_toNat

/-- The later totals are at least the earlier ones, and the difference is the traffic in between. -/
def Grows (v v' : Counter) (t : Traffic) : Prop :=
  v.bytes ≤ v'.bytes ∧ v.packets ≤ v'.packets ∧ v'.toTraffic - v.toTraffic = t

/-- The later totals are the earlier ones and the traffic in between. -/
lemma grows_iff {v v' : Counter} {t : Traffic} :
    Grows v v' t ↔ v'.toTraffic = v.toTraffic + t := by
  simp only [Grows, Counter.toTraffic, UInt64.le_iff_toNat_le, Prod.ext_iff, Prod.fst_add,
    Prod.snd_add, Prod.fst_sub, Prod.snd_sub]
  omega

/-- The traffic of an event, if a packet of the hop is counted with it: it is added to the element
that the CPU has found, of whichever key by now, or its insertion fails. -/
def trafficOf (key : Key) : Event → Traffic
  | .added hop _ p => if hop = key then traffic p else 0
  | .insertFailed hop p => if hop = key then traffic p else 0
  | _ => 0

/-- The packets of the hop are added to its entry, and so are no others. -/
structure CountsOwn (key : Key) (events : List Event) : Prop where
  added : ∀ hop entry p, .added hop entry p ∈ events → (hop = key ↔ entry = some key)
  insertFailed : ∀ p, .insertFailed key p ∉ events

/-- Where the entry counts the packets of its hop, what is added to it is the traffic of the hop. -/
lemma CountsOwn.sumOver_eq {key : Key} {events : List Event} (h : CountsOwn key events) :
    sumOver (trafficOf key) events = sumOver (addedTo key) events := by
  refine congrArg List.sum (List.map_congr_left fun e he => ?_)
  cases e with
  | added hop entry p => simp only [trafficOf, addedTo, h.added hop entry p he]
  | insertFailed hop p =>
    have hne : hop ≠ key := by
      rintro rfl
      exact h.insertFailed p he
    exact if_neg hne
  | _ => rfl

/-- Between two reports of a hop, its entry is not inserted again after it has counted traffic, and
the counters do not overflow. -/
def Undisturbed (key : Key) (before between : List Event) : Prop :=
  let counted := (toCounter (sinceInsertion key before)).toTraffic
  NothingDiscarded key counted between ∧ Fits (counted + sumOver (addedTo key) between)

/-- The totals of two reports differ by what is added to the entry in between exactly when nothing
disturbs the entry. -/
lemma Counted.grows_iff (h : Counted s) {hop : Hop} {v v' : Counter}
    {before between after : List Event} (hreports : Reports s hop v v' before between after) :
    Grows v v' (sumOver (addedTo hop.toMapKey) between) ↔
      Undisturbed hop.toMapKey before between := by
  have hv : v = toCounter (sinceInsertion hop.toMapKey before) :=
    h.logged before hop v _ hreports.history
  have hsplit : s.history = (before ++ .totals hop v :: between) ++ .totals hop v' :: after := by
    rw [hreports.history, List.append_assoc, List.cons_append]
  have hv' : v' = toCounter (countedFrom hop.toMapKey v.toTraffic between) := by
    have hadded : addedTo hop.toMapKey (.totals hop v) = 0 := rfl
    rw [h.logged _ hop v' after hsplit, sinceInsertion, countedFrom_append,
      countedFrom_cons, if_neg (by simp), hadded, add_zero]
    refine toCounter_countedFrom_congr ?_ between
    rw [toCounter_toTraffic]
    exact hv.symm
  have hle := countedFrom_le hop.toMapKey v.toTraffic between
  rw [Monitor.grows_iff, Undisturbed, ← hv, ← countedFrom_eq_iff, hv', toTraffic_toCounter]
  simp only [Fits, Prod.ext_iff, Prod.le_def, Prod.fst_add, Prod.snd_add] at hle ⊢
  omega

/-- **Logged totals in one life of a hop.**  In every run, the totals of two reports of a hop with
no message in between that it is new or deleted do not run backwards, and their difference is the
traffic of the hop in between, provided that the entry of the hop counts the packets of the hop and
no others in between: if and only if the entry is not inserted again in between, after it has
counted traffic, and the counters do not overflow in between. -/
theorem run_grows_iff {actions : List (Action n)}
    (h : Guarded.run (step maps) actions {} = some s) {hop : Hop} {v v' : Counter}
    {before between after : List Event} (hreports : Reports s hop v v' before between after)
    (hown : CountsOwn hop.toMapKey between) :
    Grows v v' (sumOver (trafficOf hop.toMapKey) between) ↔
      Undisturbed hop.toMapKey before between := by
  rw [hown.sumOver_eq]
  exact (run_counted h).grows_iff hreports

/-! ## Two CPUs and one known hop -/

/-- Two CPUs count packets of a hop that the host knows, and the second one a new hop, between two
ticks. -/
def sharedHop (c c' : Fin n) : List (Action n) :=
  let report : List (Action n) := [.tick, .visit ⟨1, 41⟩, .finish]
  [.receive c 2 (hopFrame 0 ⟨1, 41⟩), .update c 0, .report c, .read, .handOver] ++ report ++
    [.receive c 2 (hopFrame 0 ⟨1, 41⟩), .receive c' 2 (hopFrame 0 ⟨1, 41⟩), .increment c',
      .receive c' 2 (hopFrame 0 ⟨2, 41⟩), .update c' 1, .increment c, .report c'] ++ report

/-- What happens before and between the two reports. -/
def beforeTicks : List Event :=
  [.attributed 0x29000100 (hopFrame 0 ⟨1, 41⟩), .inserted 0x29000100,
    .added 0x29000100 (some 0x29000100) (hopFrame 0 ⟨1, 41⟩), .newHop ⟨1, 41⟩]

def betweenTicks : List Event :=
  [.attributed 0x29000100 (hopFrame 0 ⟨1, 41⟩), .attributed 0x29000100 (hopFrame 0 ⟨1, 41⟩),
    .added 0x29000100 (some 0x29000100) (hopFrame 0 ⟨1, 41⟩),
    .attributed 0x29000200 (hopFrame 0 ⟨2, 41⟩), .inserted 0x29000200,
    .added 0x29000200 (some 0x29000200) (hopFrame 0 ⟨2, 41⟩),
    .added 0x29000100 (some 0x29000100) (hopFrame 0 ⟨1, 41⟩)]

/-- The two CPUs count for the known hop what it has sent. -/
lemma countsOwn_betweenTicks : CountsOwn 0x29000100 betweenTicks where
  added := fun hop entry p hmem => by
    simp only [betweenTicks, List.mem_cons, Event.added.injEq, reduceCtorEq, false_or,
      List.not_mem_nil, or_false] at hmem
    rcases hmem with ⟨rfl, rfl, -⟩ | ⟨rfl, rfl, -⟩ | ⟨rfl, rfl, -⟩ <;> decide
  insertFailed := fun p hmem => by simp [betweenTicks] at hmem

/-- The two reports of the known hop. -/
lemma run_sharedHop :
    ∃ s, Guarded.run (step (initMaps smallConf)) (sharedHop (0 : Fin 2) 1) {} = some s ∧
      Reports s ⟨1, 41⟩ ⟨134, 1⟩ ⟨402, 3⟩ beforeTicks betweenTicks [] := by
  have hrun : (Guarded.run (step (initMaps smallConf)) (sharedHop (0 : Fin 2) 1) {}).map
      (·.history) = some (beforeTicks ++ .totals ⟨1, 41⟩ ⟨134, 1⟩ ::
        (betweenTicks ++ [.totals ⟨1, 41⟩ ⟨402, 3⟩])) := by
    decide +kernel
  obtain ⟨s, hs, hhistory⟩ := Option.map_eq_some_iff.mp hrun
  exact ⟨s, hs, hhistory, by simp [betweenTicks], by simp [betweenTicks]⟩

/-- The totals of the known hop grow by the two packets in between. -/
theorem run_grows_iff_sharedHop :
    ∃ s, Guarded.run (step (initMaps smallConf)) (sharedHop (0 : Fin 2) 1) {} = some s ∧
      Reports s ⟨1, 41⟩ ⟨134, 1⟩ ⟨402, 3⟩ beforeTicks betweenTicks [] ∧
      Grows ⟨134, 1⟩ ⟨402, 3⟩ (sumOver (trafficOf (Hop.toMapKey ⟨1, 41⟩)) betweenTicks) := by
  obtain ⟨s, hs, hreports⟩ := run_sharedHop
  have hkey : Hop.toMapKey ⟨1, 41⟩ = 0x29000100 := by decide
  refine ⟨s, hs, hreports, (run_grows_iff hs hreports (hkey ▸ countsOwn_betweenTicks)).mpr ?_⟩
  rw [hkey]
  refine ⟨nothingDiscarded_of_not_mem (by simp [betweenTicks]) _, ?_⟩
  have hfits : (toCounter (sinceInsertion 0x29000100 beforeTicks)).toTraffic +
      sumOver (addedTo 0x29000100) betweenTicks = (402, 3) := by
    decide +kernel
  rw [hfits]
  exact ⟨by decide, by decide⟩

/-! ## An evicted hop -/

/-- A hop with two packets is reported, evicted, and inserted again with one packet; the next tick
comes before the event of the insertion is read. -/
def evictedHop : List (Action 1) :=
  let packet : List (Action 1) := [.receive 0 2 (hopFrame 0 ⟨1, 41⟩)]
  let report : List (Action 1) := [.tick, .visit ⟨1, 41⟩, .finish]
  packet ++ [.update 0 0, .report 0, .read, .handOver] ++ packet ++ [.increment 0] ++ report ++
    [.evict 0x29000100] ++ packet ++ [.update 0 0, .report 0] ++ report

/-- What happens between the two reports. -/
def betweenReports : List Event :=
  [.evicted 0x29000100, .attributed 0x29000100 (hopFrame 0 ⟨1, 41⟩), .inserted 0x29000100,
    .added 0x29000100 (some 0x29000100) (hopFrame 0 ⟨1, 41⟩)]

/-- **Totals that run backwards.**  The first report of the hop has two packets, the second one has
one, and no message says in between that the hop is new or deleted. -/
theorem not_run_grows :
    ∃ s before, Guarded.run (step (initMaps smallConf)) evictedHop {} = some s ∧
      Reports s ⟨1, 41⟩ ⟨268, 2⟩ ⟨134, 1⟩ before betweenReports [] ∧
      ¬((268 : UInt64) ≤ 134 ∧ (2 : UInt64) ≤ 1) := by
  have hrun : (Guarded.run (step (initMaps smallConf)) evictedHop {}).map (·.history) =
      some ([.attributed 0x29000100 (hopFrame 0 ⟨1, 41⟩), .inserted 0x29000100,
        .added 0x29000100 (some 0x29000100) (hopFrame 0 ⟨1, 41⟩), .newHop ⟨1, 41⟩,
        .attributed 0x29000100 (hopFrame 0 ⟨1, 41⟩),
        .added 0x29000100 (some 0x29000100) (hopFrame 0 ⟨1, 41⟩)] ++
          .totals ⟨1, 41⟩ ⟨268, 2⟩ :: (betweenReports ++ [.totals ⟨1, 41⟩ ⟨134, 1⟩])) := by
    decide +kernel
  obtain ⟨s, hs, hhistory⟩ := Option.map_eq_some_iff.mp hrun
  exact ⟨s, _, hs, ⟨hhistory, by simp [betweenReports], by simp [betweenReports]⟩, by decide⟩

end Esdx.Monitor
