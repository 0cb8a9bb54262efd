import Esdx.Monitor.System

/-!
# No packet is lost or counted twice

While nothing is evicted, the slots of a hop's entry add up to the packets that were added to it.
A packet that was attributed to the hop is added, still on its way, or lost: lost is the packet of
a CPU that found no entry and whose insertion failed because another CPU had inserted the hop in
the meantime.
-/

namespace Esdx.Monitor

variable {n : ℕ} {maps : Maps} {s s' : State n}

/-! ## Traffic -/

/-- The number of bytes and the number of packets. -/
abbrev Traffic := ℕ × ℕ

/-- The traffic of one packet. -/
def traffic (p : Packet) : Traffic := (p.length, 1)

/-- The traffic as the wrapping counters show it. -/
def toCounter (t : Traffic) : Counter := ⟨UInt64.ofNat t.1, UInt64.ofNat t.2⟩

@[simp] lemma toCounter_zero : toCounter 0 = 0 := rfl

lemma toCounter_add (t u : Traffic) : toCounter (t + u) = toCounter t + toCounter u := by
  ext1
  · exact UInt64.ofNat_add ..
  · exact UInt64.ofNat_add ..

@[simp] lemma toCounter_traffic (p : Packet) : toCounter (traffic p) = Counter.packet (pktSize p) :=
  rfl

/-- The traffic of an event, if it attributes a packet to the hop. -/
def attributedTo (key : Key) : Event → Traffic
  | .attributed key' p => if key' = key then traffic p else 0
  | _ => 0

/-- The traffic of an event, if it adds a packet, of whichever hop, to the entry of the key. -/
def addedTo (key : Key) : Event → Traffic
  | .added _ entry p => if entry = some key then traffic p else 0
  | _ => 0

/-- The traffic of an event, if it is a failed insertion of the hop. -/
def failedFor (key : Key) : Event → Traffic
  | .insertFailed key' p => if key' = key then traffic p else 0
  | _ => 0

/-- The sum over some events. -/
def sumOver (f : Event → Traffic) (events : List Event) : Traffic := (events.map f).sum

@[simp] lemma sumOver_append (f : Event → Traffic) (l l' : List Event) :
    sumOver f (l ++ l') = sumOver f l + sumOver f l' := by
  rw [sumOver, List.map_append, List.sum_append]
  rfl

@[simp] lemma sumOver_nil (f : Event → Traffic) : sumOver f [] = 0 := rfl

@[simp] lemma sumOver_singleton (f : Event → Traffic) (e : Event) : sumOver f [e] = f e := by
  simp [sumOver]

/-- The packet of a CPU that is attributed to the hop and on its way. -/
def pending (key : Key) : Phase → Traffic
  | .found hop _ p => if hop = key then traffic p else 0
  | .missing hop p => if hop = key then traffic p else 0
  | _ => 0

/-- The packets of the hop that are on their way. -/
def inFlight (s : State n) (key : Key) : Traffic := ∑ cpu, pending key (s.cpu cpu)

/-- One CPU goes to another phase. -/
lemma inFlight_goto (s : State n) (cpu : Fin n) (phase : Phase) (key : Key) :
    inFlight (s.goto cpu phase) key + pending key (s.cpu cpu) =
      inFlight s key + pending key phase := by
  have hold := Finset.add_sum_erase Finset.univ (fun c => pending key (s.cpu c))
    (Finset.mem_univ cpu)
  have hnew := Finset.add_sum_erase Finset.univ
    (fun c => pending key ((s.goto cpu phase).cpu c)) (Finset.mem_univ cpu)
  have hrest : ∑ c ∈ Finset.univ.erase cpu, pending key ((s.goto cpu phase).cpu c) =
      ∑ c ∈ Finset.univ.erase cpu, pending key (s.cpu c) :=
    Finset.sum_congr rfl fun c hc =>
      congrArg (pending key) (Function.update_of_ne (Finset.ne_of_mem_erase hc) ..)
  have hself : (s.goto cpu phase).cpu cpu = phase := Function.update_self ..
  unfold inFlight
  rw [← hold, ← hnew, hrest, hself]
  abel

/-- A CPU that has found an entry had found it before, or has just gone on to it. -/
lemma found_of_goto {cpu c : Fin n} {phase : Phase} {hop : Key} {elem : ℕ} {p : Packet}
    (h : (s.goto cpu phase).cpu c = .found hop elem p) :
    phase = .found hop elem p ∨ s.cpu c = .found hop elem p := by
  by_cases hc : c = cpu
  · subst hc
    exact .inl ((Function.update_self ..).symm.trans h)
  · exact .inr ((Function.update_of_ne hc ..).symm.trans h)

/-! ## Entries and their slots -/

/-- One slot gets a packet. -/
lemma sum_slots_addToSlot (s : State n) (cpu : Fin n) (elem e : ℕ) (p : Packet) :
    ∑ c, (s.addToSlot cpu elem p).slots e c =
      ∑ c, s.slots e c + if e = elem then toCounter (traffic p) else 0 := by
  simp only [State.addToSlot, toCounter_traffic]
  by_cases helem : e = elem
  · subst helem
    rw [Function.update_self, if_pos rfl, Finset.sum_update_of_mem (Finset.mem_univ cpu),
      Finset.sdiff_singleton_eq_erase,
      ← Finset.add_sum_erase Finset.univ (s.slots e) (Finset.mem_univ cpu)]
    abel
  · rw [Function.update_of_ne helem, if_neg helem, add_zero]

/-- The slots of a new entry have one packet. -/
lemma sum_slots_insertEntry (s : State n) (cpu : Fin n) (elem e : ℕ) (hop : Key) (p : Packet) :
    ∑ c, (s.insertEntry cpu elem hop p).slots e c =
      if e = elem then toCounter (traffic p) else ∑ c, s.slots e c := by
  simp only [State.insertEntry, toCounter_traffic]
  by_cases helem : e = elem
  · subst helem
    rw [Function.update_self, if_pos rfl, Finset.sum_update_of_mem (Finset.mem_univ cpu),
      Finset.sum_const_zero, add_zero]
  · rw [Function.update_of_ne helem, if_neg helem]

/-- The entries after an insertion. -/
lemma counters_insertEntry (s : State n) (cpu : Fin n) (elem : ℕ) (hop : Key) (p : Packet)
    (key : Key) : (s.insertEntry cpu elem hop p).counters key =
      if key = hop then some elem else s.counters key :=
  Function.update_apply ..

/-- The entries after an eviction. -/
lemma counters_removeEntry (s : State n) (hop : Key) (elem : ℕ) (key : Key) :
    (s.removeEntry hop elem).counters key = if key = hop then none else s.counters key :=
  Function.update_apply ..

/-! ## The invariant -/

/-- Every element in use has the key that it is found under. -/
def Consistent (s : State n) : Prop :=
  ∀ key elem, s.counters key = some elem ↔ s.owner elem = some key

/-- An element in use is that of one key. -/
lemma Consistent.eq_iff (h : Consistent s) {key key' : Key} {elem elem' : ℕ}
    (hentry : s.counters key = some elem) (howner : s.owner elem' = some key') :
    elem = elem' ↔ key = key' := by
  constructor
  · rintro rfl
    exact Option.some.inj (((h key elem).mp hentry).symm.trans howner)
  · rintro rfl
    exact Option.some.inj (hentry.symm.trans ((h key elem').mpr howner))

/-- The element of an entry is not free. -/
lemma Consistent.ne_of_free (h : Consistent s) {key : Key} {elem elem' : ℕ}
    (hentry : s.counters key = some elem) (howner : s.owner elem' = none) : elem ≠ elem' := by
  rintro rfl
  exact absurd (((h key elem).mp hentry).symm.trans howner) (by simp)

/-- A new entry takes an element that is free. -/
lemma Consistent.insertEntry (h : Consistent s) {hop : Key} {elem : ℕ}
    (hentry : s.counters hop = none) (howner : s.owner elem = none) (cpu : Fin n) (p : Packet) :
    Consistent (s.insertEntry cpu elem hop p) := by
  intro k e
  change Function.update s.counters hop (some elem) k = some e ↔
    Function.update s.owner elem (some hop) e = some k
  have hk := h k e
  by_cases hkey : k = hop
  · by_cases helem : e = elem
    · rw [hkey, helem, Function.update_self, Function.update_self]
      simp
    · rw [hkey, Function.update_self, Function.update_of_ne helem, ← hkey, ← hk, hkey, hentry]
      simpa using Ne.symm helem
  · by_cases helem : e = elem
    · rw [helem, Function.update_of_ne hkey, Function.update_self, h, howner]
      simpa using Ne.symm hkey
    · rw [Function.update_of_ne hkey, Function.update_of_ne helem]
      exact hk

/-- An entry that goes leaves its element free. -/
lemma Consistent.removeEntry (h : Consistent s) {hop : Key} {elem : ℕ}
    (hentry : s.counters hop = some elem) : Consistent (s.removeEntry hop elem) := by
  have howner := (h hop elem).mp hentry
  intro k e
  change Function.update s.counters hop none k = some e ↔
    Function.update s.owner elem none e = some k
  have hk := h k e
  by_cases hkey : k = hop
  · by_cases helem : e = elem
    · rw [hkey, helem, Function.update_self, Function.update_self]
      simp
    · rw [hkey, Function.update_self, Function.update_of_ne helem, ← hkey, ← hk, hkey, hentry]
      simpa using Ne.symm helem
  · by_cases helem : e = elem
    · rw [helem, Function.update_of_ne hkey, Function.update_self, h, howner]
      simpa using Ne.symm hkey
    · rw [Function.update_of_ne hkey, Function.update_of_ne helem]
      exact hk

/-- Every attributed packet is in the slots of its hop, on its way, or lost. -/
structure Balanced (s : State n) : Prop where
  consistent : Consistent s
  found : ∀ cpu hop elem p, s.cpu cpu = .found hop elem p → s.counters hop = some elem
  total : ∀ key elem, s.counters key = some elem →
    ∑ cpu, s.slots elem cpu = toCounter (sumOver (addedTo key) s.history)
  absent : ∀ key, s.counters key = none → sumOver (addedTo key) s.history = 0
  balance : ∀ key, sumOver (addedTo key) s.history + inFlight s key +
    sumOver (failedFor key) s.history = sumOver (attributedTo key) s.history

/-- The key that an event evicts. -/
def evictedKey? : Event → Option Key
  | .evicted key => some key
  | _ => none

/-- Nothing has been evicted. -/
def NoEviction (s : State n) : Prop := ∀ key, .evicted key ∉ s.history

/-- Nothing has been evicted exactly when the history has no evicted key. -/
lemma noEviction_iff : NoEviction s ↔ s.history.filterMap evictedKey? = [] := by
  rw [List.filterMap_eq_nil_iff]
  constructor
  · intro h e he
    cases e with
    | evicted key => exact absurd he (h key)
    | _ => rfl
  · intro h key hmem
    exact absurd (h _ hmem) (by simp [evictedKey?])

/-- The start. -/
lemma balanced_init : Balanced ({} : State n) where
  consistent key elem := by simp
  found cpu hop elem p h := by simp at h
  total key elem h := by simp at h
  absent key h := rfl
  balance key := by simp [inFlight, pending]

/-- A step that does not touch the map and the CPUs, and records only lines of the log. -/
lemma Balanced.of_lines (h : Balanced s) {events : List Event}
    (hcounters : s'.counters = s.counters) (howner : s'.owner = s.owner)
    (hslots : s'.slots = s.slots) (hcpu : s'.cpu = s.cpu)
    (hhistory : s'.history = s.history ++ events)
    (hevents : ∀ key, sumOver (attributedTo key) events = 0 ∧ sumOver (addedTo key) events = 0 ∧
      sumOver (failedFor key) events = 0) : Balanced s' := by
  have hadded : ∀ key, sumOver (addedTo key) s'.history = sumOver (addedTo key) s.history := by
    intro key
    rw [hhistory, sumOver_append, (hevents key).2.1, add_zero]
  refine ⟨?_, ?_, ?_, ?_, ?_⟩
  · intro key elem
    rw [hcounters, howner]
    exact h.consistent key elem
  · intro cpu hop elem p hfound
    rw [hcounters]
    exact h.found cpu hop elem p (hcpu ▸ hfound)
  · intro key elem hentry
    rw [hslots, hadded]
    exact h.total key elem (hcounters ▸ hentry)
  · intro key hentry
    rw [hadded]
    exact h.absent key (hcounters ▸ hentry)
  · intro key
    have hflight : inFlight s' key = inFlight s key := by rw [inFlight, inFlight, hcpu]
    rw [hadded, hflight, hhistory, sumOver_append, sumOver_append, (hevents key).1,
      (hevents key).2.2, add_zero, add_zero]
    exact h.balance key

/-- A CPU whose packet is not on its way in the new phase. -/
lemma Balanced.goto_record (h : Balanced s) {cpu : Fin n} {phase : Phase} {events : List Event}
    (hphase : ∀ hop elem p, phase = .found hop elem p → s.counters hop = some elem)
    (hadded : ∀ key, sumOver (addedTo key) events = 0)
    (hbalance : ∀ key, pending key phase + sumOver (failedFor key) events =
      pending key (s.cpu cpu) + sumOver (attributedTo key) events) :
    Balanced ((s.goto cpu phase).record events) := by
  have hsum : ∀ key, sumOver (addedTo key) (s.history ++ events) =
      sumOver (addedTo key) s.history := by
    intro key
    rw [sumOver_append, hadded, add_zero]
  refine ⟨h.consistent, ?_, ?_, ?_, ?_⟩
  · intro c hop elem p hfound
    rcases found_of_goto hfound with hnew | hold
    · exact hphase hop elem p hnew
    · exact h.found c hop elem p hold
  · intro key elem hentry
    exact (h.total key elem hentry).trans (congrArg toCounter (hsum key).symm)
  · intro key hentry
    exact (hsum key).trans (h.absent key hentry)
  · intro key
    change sumOver (addedTo key) (s.history ++ events) + inFlight (s.goto cpu phase) key +
      sumOver (failedFor key) (s.history ++ events) =
      sumOver (attributedTo key) (s.history ++ events)
    have hgoto := inFlight_goto s cpu phase key
    have hkey := hbalance key
    have hold := h.balance key
    rw [hsum, sumOver_append, sumOver_append, ← hold]
    simp only [Prod.ext_iff, Prod.fst_add, Prod.snd_add] at hgoto hkey ⊢
    omega

/-- A CPU adds its packet to the element that it has found. -/
lemma Balanced.incremented (h : Balanced s) {cpu : Fin n} {key : Key} {elem : ℕ} {p : Packet}
    (hcpu : s.cpu cpu = .found key elem p) :
    Balanced (((s.goto cpu .idle).addToSlot cpu elem p).record [.added key (s.owner elem) p]) := by
  have hentry : s.counters key = some elem := h.found cpu key elem p hcpu
  have howner : s.owner elem = some key := (h.consistent key elem).mp hentry
  rw [howner]
  have hother : ∀ k, k ≠ key → sumOver (addedTo k) (s.history ++ [.added key (some key) p]) =
      sumOver (addedTo k) s.history := by
    intro k hk
    rw [sumOver_append, sumOver_singleton, addedTo, if_neg (by simpa using Ne.symm hk), add_zero]
  have hself : sumOver (addedTo key) (s.history ++ [.added key (some key) p]) =
      sumOver (addedTo key) s.history + traffic p := by
    rw [sumOver_append, sumOver_singleton, addedTo, if_pos rfl]
  refine ⟨h.consistent, ?_, ?_, ?_, ?_⟩
  · intro c hop' elem' p' hfound
    rcases found_of_goto hfound with hnew | hold
    · exact absurd hnew (by simp)
    · exact h.found c hop' elem' p' hold
  · intro k elem' hk
    refine (sum_slots_addToSlot ..).trans ?_
    have hk : s.counters k = some elem' := hk
    have htotal : ∑ c, (s.goto cpu .idle).slots elem' c =
        toCounter (sumOver (addedTo k) s.history) := h.total k elem' hk
    have hadded : toCounter (sumOver (addedTo k) (s.history ++ [.added key (some key) p])) =
        toCounter (sumOver (addedTo k) s.history) +
          if k = key then toCounter (traffic p) else 0 := by
      by_cases hkey : k = key
      · rw [if_pos hkey, hkey, hself, toCounter_add]
      · rw [if_neg hkey, hother k hkey, add_zero]
    simp only [htotal, h.consistent.eq_iff hk howner]
    exact hadded.symm
  · intro k hk
    have hkey : k ≠ key := by
      rintro rfl
      exact absurd (hentry.symm.trans hk) (by simp)
    exact (hother k hkey).trans (h.absent k hk)
  · intro k
    change sumOver (addedTo k) (s.history ++ [.added key (some key) p]) +
      inFlight (s.goto cpu .idle) k +
      sumOver (failedFor k) (s.history ++ [.added key (some key) p]) =
      sumOver (attributedTo k) (s.history ++ [.added key (some key) p])
    have hgoto := inFlight_goto s cpu .idle k
    rw [hcpu] at hgoto
    have hold := h.balance k
    simp only [sumOver_append, sumOver_singleton, addedTo, failedFor, attributedTo, add_zero,
      Option.some.injEq]
    rw [← hold]
    simp only [pending, Prod.ext_iff, Prod.fst_add, Prod.snd_add, add_zero] at hgoto ⊢
    omega

/-- A CPU inserts the entry that it has not found. -/
lemma Balanced.inserted (h : Balanced s) {cpu : Fin n} {elem : ℕ} {hop : Key} {p : Packet}
    (hcpu : s.cpu cpu = .missing hop p) (hentry : s.counters hop = none)
    (howner : s.owner elem = none) :
    Balanced (((s.goto cpu (.inserted hop)).insertEntry cpu elem hop p).record
      [.inserted hop, .added hop (some hop) p]) := by
  have hadded : ∀ k, sumOver (addedTo k) [.inserted hop, .added hop (some hop) p] =
      if hop = k then traffic p else 0 := by
    intro k
    change 0 + (addedTo k (.added hop (some hop) p) + 0) = _
    rw [zero_add, add_zero, addedTo]
    simp only [Option.some.injEq]
  have hcounters := counters_insertEntry (s.goto cpu (.inserted hop)) cpu elem hop p
  refine ⟨?_, ?_, ?_, ?_, ?_⟩
  · exact h.consistent.insertEntry hentry howner cpu p
  · intro c k e p' hfound
    rcases found_of_goto hfound with hnew | hold
    · exact absurd hnew (by simp)
    · have hk := h.found c k e p' hold
      have hkey : k ≠ hop := by
        rintro rfl
        exact absurd (hentry.symm.trans hk) (by simp)
      exact (hcounters k).trans ((if_neg hkey).trans hk)
  · intro k e hlookup
    have hk := (hcounters k).symm.trans hlookup
    have hsum : sumOver (addedTo k) (s.history ++ [.inserted hop, .added hop (some hop) p]) =
        sumOver (addedTo k) s.history + if hop = k then traffic p else 0 := by
      rw [sumOver_append, hadded]
    have hslots := sum_slots_insertEntry (s.goto cpu (.inserted hop)) cpu elem e hop p
    refine (hslots.trans ?_).trans (congrArg toCounter hsum.symm)
    by_cases hkey : k = hop
    · subst hkey
      rw [if_pos rfl] at hk
      rw [if_pos (Option.some.inj hk).symm, if_pos rfl, h.absent k hentry, zero_add]
    · rw [if_neg hkey] at hk
      have hk : s.counters k = some e := hk
      rw [if_neg (h.consistent.ne_of_free hk howner), if_neg (Ne.symm hkey), add_zero]
      exact h.total k e hk
  · intro k hlookup
    have hk := (hcounters k).symm.trans hlookup
    have hkey : k ≠ hop := by
      rintro rfl
      rw [if_pos rfl] at hk
      simp at hk
    rw [if_neg hkey] at hk
    have habsent : sumOver (addedTo k) s.history = 0 := h.absent k hk
    change sumOver (addedTo k) (s.history ++ [.inserted hop, .added hop (some hop) p]) = 0
    rw [sumOver_append, hadded, habsent, if_neg (Ne.symm hkey), add_zero]
  · intro k
    change sumOver (addedTo k) (s.history ++ [.inserted hop, .added hop (some hop) p]) +
      inFlight (s.goto cpu (.inserted hop)) k +
      sumOver (failedFor k) (s.history ++ [.inserted hop, .added hop (some hop) p]) =
      sumOver (attributedTo k) (s.history ++ [.inserted hop, .added hop (some hop) p])
    have hgoto := inFlight_goto s cpu (.inserted hop) k
    rw [hcpu] at hgoto
    have hold := h.balance k
    have hfailed : sumOver (failedFor k) [.inserted hop, .added hop (some hop) p] = 0 := rfl
    have hattributed : sumOver (attributedTo k) [.inserted hop, .added hop (some hop) p] = 0 := rfl
    rw [sumOver_append, sumOver_append, sumOver_append, hadded, hfailed, hattributed, ← hold]
    simp only [pending, Prod.ext_iff, Prod.fst_add, Prod.snd_add, add_zero] at hgoto ⊢
    omega

/-- What has happened stays in the history. -/
lemma Effect.history {a : Action n} (h : Effect maps s a s') :
    ∃ events, s'.history = s.history ++ events := by
  cases h
  case ignored => exact ⟨[], (List.append_nil _).symm⟩
  case reported => exact ⟨[], (List.append_nil _).symm⟩
  case read => exact ⟨[], (List.append_nil _).symm⟩
  case stopped => exact ⟨[], (List.append_nil _).symm⟩
  case ticked => exact ⟨[], (List.append_nil _).symm⟩
  case skipped => exact ⟨[], (List.append_nil _).symm⟩
  case finished => exact ⟨[], (List.append_nil _).symm⟩
  all_goals exact ⟨_, rfl⟩

/-- **One step.**  As long as nothing is evicted, every step keeps the balance. -/
lemma Balanced.step (h : Balanced s) {a : Action n} (ha : Effect maps s a s')
    (hno : NoEviction s') : Balanced s' := by
  cases ha with
  | ignored => exact h
  | @found cpu ifindex p hop elem hcpu hsome hentry =>
    refine h.goto_record ?_ (fun key => rfl) fun key => ?_
    · intro hop' elem' p' heq
      obtain ⟨rfl, rfl, rfl⟩ := Phase.found.inj heq
      exact hentry
    · rw [hcpu]
      simp [pending, failedFor, attributedTo]
  | @missing cpu ifindex p hop hcpu hsome hentry =>
    refine h.goto_record (fun _ _ _ heq => absurd heq (by simp)) (fun key => rfl) fun key => ?_
    rw [hcpu]
    simp [pending, failedFor, attributedTo]
  | incremented hcpu => exact h.incremented hcpu
  | insertFailed hcpu hentry =>
    refine h.goto_record (fun _ _ _ heq => absurd heq (by simp)) (fun key => rfl) fun key => ?_
    rw [hcpu]
    simp [pending, failedFor, attributedTo]
  | inserted hcpu hentry howner => exact h.inserted hcpu hentry howner
  | @reported cpu hop hcpu hroom =>
    have hgoto : Balanced ((s.goto cpu .idle).record []) := by
      refine h.goto_record (fun _ _ _ heq => absurd heq (by simp)) (fun key => rfl) fun key => ?_
      rw [hcpu]
      simp [pending]
    have hhistory : s.history = (s.history ++ []) ++ [] := by simp
    exact hgoto.of_lines rfl rfl rfl rfl hhistory fun key => ⟨rfl, rfl, rfl⟩
  | @reserveFailed cpu hop hcpu hfull =>
    refine h.goto_record (fun _ _ _ heq => absurd heq (by simp)) (fun key => rfl) fun key => ?_
    rw [hcpu]
    simp [pending, failedFor, attributedTo]
  | evicted => exact absurd (List.mem_append_right _ List.mem_cons_self) (hno _)
  | read => exact h.of_lines rfl rfl rfl rfl (List.append_nil _).symm fun key => ⟨rfl, rfl, rfl⟩
  | stopped =>
    exact h.of_lines rfl rfl rfl rfl (List.append_nil _).symm fun key => ⟨rfl, rfl, rfl⟩
  | handedOver => exact h.of_lines rfl rfl rfl rfl rfl fun key => ⟨rfl, rfl, rfl⟩
  | ticked =>
    exact h.of_lines rfl rfl rfl rfl (List.append_nil _).symm fun key => ⟨rfl, rfl, rfl⟩
  | deleted => exact h.of_lines rfl rfl rfl rfl rfl fun key => ⟨rfl, rfl, rfl⟩
  | visited hpoll htodo hknown hentry hlines =>
    refine h.of_lines rfl rfl rfl rfl rfl fun key => ?_
    rcases hlines with rfl | rfl
    · exact ⟨rfl, rfl, rfl⟩
    · exact ⟨rfl, rfl, rfl⟩
  | skipped =>
    exact h.of_lines rfl rfl rfl rfl (List.append_nil _).symm fun key => ⟨rfl, rfl, rfl⟩
  | finished =>
    exact h.of_lines rfl rfl rfl rfl (List.append_nil _).symm fun key => ⟨rfl, rfl, rfl⟩

/-! ## Runs -/

/-- **Runs.**  After every run without evictions the counters are balanced. -/
lemma run_balanced {actions : List (Action n)} (h : Guarded.run (step maps) actions {} = some s)
    (hno : NoEviction s) : Balanced s := by
  refine Guarded.run_induction (fun s => NoEviction s → Balanced s) (fun _ => balanced_init)
    (fun a t t' ht hstep hno' => ?_) h hno
  have heffect := step_effect hstep
  obtain ⟨events, hhistory⟩ := heffect.history
  exact (ht fun key hmem => hno' key (hhistory ▸ List.mem_append_left _ hmem)).step heffect hno'

/-- The host reads for the hop exactly the traffic that was attributed to it. -/
def Exact (s : State n) (key : Key) : Prop :=
  match s.readPercpuCounters key with
  | none => sumOver (attributedTo key) s.history = 0
  | some total =>
    (total.bytes.toNat, total.packets.toNat) = sumOver (attributedTo key) s.history

/-- The traffic fits into the counters. -/
def Fits (t : Traffic) : Prop := t.1 < 2 ^ 64 ∧ t.2 < 2 ^ 64

/-- No insertion of the hop has failed. -/
def NoFailedInsert (s : State n) (key : Key) : Prop := ∀ p, .insertFailed key p ∉ s.history

/-- A CPU inserts the hop only while the map has no entry for it. -/
def InsertsFresh (key : Key) (a : Action n) (s : State n) : Prop :=
  ∀ cpu elem p, a = .update cpu elem → s.cpu cpu = .missing key p → s.counters key = none

/-- An insertion fails at the steps that meet an entry. -/
lemma noFailedInsert_step {a : Action n} (h : Effect maps s a s') (key : Key) :
    NoFailedInsert s' key ↔ NoFailedInsert s key ∧ InsertsFresh key a s := by
  have hrecord : ∀ events : List Event, s'.history = s.history ++ events →
      ((∀ p, .insertFailed key p ∉ events) ↔ InsertsFresh key a s) →
      (NoFailedInsert s' key ↔ NoFailedInsert s key ∧ InsertsFresh key a s) := by
    intro events hhistory hfresh
    unfold NoFailedInsert
    rw [hhistory, ← hfresh, ← forall_and]
    exact forall_congr' fun p => by rw [List.mem_append, not_or]
  cases h with
  | @insertFailed cpu elem elem' hop p hcpu hentry =>
    refine hrecord [.insertFailed hop p] rfl ?_
    by_cases hkey : hop = key
    · subst hkey
      refine iff_of_false (fun hall => hall p (by simp)) fun hfresh => ?_
      exact absurd (hentry.symm.trans (hfresh cpu elem p rfl hcpu)) (by simp)
    · refine iff_of_true (fun p' hmem => hkey ?_) fun c e p' heq hc => ?_
      · exact (Event.insertFailed.inj (List.mem_singleton.mp hmem)).1.symm
      · obtain ⟨rfl, rfl⟩ := Action.update.inj heq
        exact absurd (Phase.missing.inj (hcpu.symm.trans hc)).1 hkey
  | @inserted cpu elem hop p hcpu hentry howner =>
    refine hrecord [.inserted hop, .added hop (some hop) p] rfl ?_
    refine iff_of_true (fun p' hmem => by simp at hmem) fun c e p' heq hc => ?_
    obtain ⟨rfl, rfl⟩ := Action.update.inj heq
    exact (Phase.missing.inj (hcpu.symm.trans hc)).1 ▸ hentry
  | visited hpoll htodo hknown hentry hlines =>
    refine hrecord _ rfl (iff_of_true (fun p' hmem => ?_) fun c e p' heq => by simp at heq)
    rcases hlines with rfl | rfl
    · simp at hmem
    · simp at hmem
  | _ =>
    first
    | exact hrecord _ rfl
        (iff_of_true (fun p' hmem => by simp at hmem) fun c e p' heq => by simp at heq)
    | exact hrecord [] (List.append_nil _).symm
        (iff_of_true (fun p' hmem => by simp at hmem) fun c e p' heq => by simp at heq)

/-- Nothing is lost for the hop exactly when no insertion has failed. -/
lemma sumOver_failedFor_eq_zero {key : Key} {events : List Event} :
    sumOver (failedFor key) events = 0 ↔ ∀ p, .insertFailed key p ∉ events := by
  induction events with
  | nil => simp
  | cons e events ih =>
    have hcons : sumOver (failedFor key) (e :: events) =
        failedFor key e + sumOver (failedFor key) events := rfl
    have hzero : failedFor key e = 0 ↔ ∀ p, .insertFailed key p ≠ e := by
      cases e with
      | insertFailed key' p =>
        by_cases hkey : key' = key
        · subst hkey
          exact iff_of_false (by simp [failedFor, traffic]) fun h => h p rfl
        · refine iff_of_true (if_neg hkey) fun p' heq => hkey ?_
          exact (Event.insertFailed.inj heq).1.symm
      | _ => exact iff_of_true rfl (by simp)
    rw [hcons, add_eq_zero, hzero, ih, ← forall_and]
    exact forall_congr' fun p => by rw [List.mem_cons, not_or]

/-- A hop's counters are exact when nothing is lost and nothing overflows, and only then. -/
lemma Balanced.exact_iff (h : Balanced s) (hidle : ∀ cpu, s.cpu cpu = .idle) {key : Key} :
    Exact s key ↔ NoFailedInsert s key ∧ Fits (sumOver (attributedTo key) s.history) := by
  have hflight : inFlight s key = 0 := Finset.sum_eq_zero fun cpu _ => by rw [hidle cpu]; rfl
  have hbalance := h.balance key
  rw [hflight, add_zero] at hbalance
  unfold NoFailedInsert Exact Fits
  rw [← sumOver_failedFor_eq_zero]
  rcases hread : s.readPercpuCounters key with _ | total
  · have hadded := h.absent key (readPercpuCounters_eq_none.mp hread)
    dsimp only
    simp only [Prod.ext_iff, Prod.fst_add, Prod.snd_add, Prod.fst_zero, Prod.snd_zero] at *
    omega
  · obtain ⟨elem, hentry, htotal⟩ := readPercpuCounters_eq_some.mp hread
    rw [h.total key elem hentry] at htotal
    have hbytes : total.bytes.toNat = (sumOver (addedTo key) s.history).1 % 2 ^ 64 := by
      rw [← htotal]
      exact UInt64.toNat_ofNat'
    have hpackets : total.packets.toNat = (sumOver (addedTo key) s.history).2 % 2 ^ 64 := by
      rw [← htotal]
      exact UInt64.toNat_ofNat'
    dsimp only
    rw [hbytes, hpackets]
    simp only [Prod.ext_iff, Prod.fst_add, Prod.snd_add, Prod.fst_zero, Prod.snd_zero] at *
    omega

/-- **No packet is lost or counted twice.**  After every run without evictions, when no CPU is in
the middle of `count`, the host reads for a hop exactly the packets that were attributed to it if
and only if every insertion of the hop met no entry and its traffic fits into the counters. -/
theorem run_exact_iff {actions : List (Action n)}
    (h : Guarded.run (step maps) actions {} = some s) (hno : NoEviction s)
    (hidle : ∀ cpu, s.cpu cpu = .idle) (key : Key) :
    Exact s key ↔ Guarded.EachStep (step maps) (InsertsFresh key) actions {} ∧
      Fits (sumOver (attributedTo key) s.history) := by
  rw [(run_balanced h hno).exact_iff hidle]
  refine and_congr_left fun _ => ?_
  exact Guarded.run_iff_eachStep (fun s => NoFailedInsert s key) (fun p => by simp)
    (fun a t t' hstep => noFailedInsert_step (step_effect hstep) key) h

/-! ## Two CPUs and one new hop -/

/-- Two CPUs look the same new hop up before one of them inserts it. -/
def newHopRace : List (Action 2) :=
  [.receive 0 2 (hopFrame 0 ⟨1, 41⟩), .receive 1 2 (hopFrame 0 ⟨1, 41⟩), .update 0 0, .update 1 1,
    .report 0, .report 1]

/-- The race runs to an end at which no CPU is in the middle of `count`. -/
lemma run_newHopRace :
    ∃ s, Guarded.run (step (initMaps smallConf)) newHopRace {} = some s ∧ NoEviction s ∧
      (∀ cpu, s.cpu cpu = .idle) ∧ s.readPercpuCounters 0x29000100 = some ⟨134, 1⟩ ∧
      sumOver (attributedTo 0x29000100) s.history = (268, 2) := by
  have hrun : (Guarded.run (step (initMaps smallConf)) newHopRace {}).map (fun s =>
      ((s.history.filterMap evictedKey?, s.cpu 0, s.cpu 1),
        s.readPercpuCounters 0x29000100, sumOver (attributedTo 0x29000100) s.history)) =
      some (([], .idle, .idle), some ⟨134, 1⟩, (268, 2)) := by
    decide +kernel
  obtain ⟨s, hs, hvalue⟩ := Option.map_eq_some_iff.mp hrun
  simp only [Prod.mk.injEq] at hvalue
  obtain ⟨⟨hevicted, h0, h1⟩, hread, hsum⟩ := hvalue
  refine ⟨s, hs, noEviction_iff.mpr hevicted, ?_, hread, hsum⟩
  intro cpu
  fin_cases cpu
  · exact h0
  · exact h1

/-- **A packet is lost.**  Two packets of the hop were attributed to it, and the host reads one. -/
theorem not_run_exact :
    ∃ s, Guarded.run (step (initMaps smallConf)) newHopRace {} = some s ∧ NoEviction s ∧
      (∀ cpu, s.cpu cpu = .idle) ∧ ¬Exact s 0x29000100 := by
  obtain ⟨s, hs, hno, hidle, hread, hsum⟩ := run_newHopRace
  refine ⟨s, hs, hno, hidle, fun hexact => ?_⟩
  rw [Exact, hread, hsum] at hexact
  exact absurd hexact (by decide)

/-- The condition for exact counters, at the race. -/
theorem run_exact_iff_newHopRace :
    ∃ s, Guarded.run (step (initMaps smallConf)) newHopRace {} = some s ∧
      (Exact s 0x29000100 ↔
        Guarded.EachStep (step (initMaps smallConf)) (InsertsFresh 0x29000100) newHopRace {} ∧
          Fits (sumOver (attributedTo 0x29000100) s.history)) := by
  obtain ⟨s, hs, hno, hidle, -⟩ := run_newHopRace
  exact ⟨s, hs, run_exact_iff hs hno hidle 0x29000100⟩

end Esdx.Monitor
