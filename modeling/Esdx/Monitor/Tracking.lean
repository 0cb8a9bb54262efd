import Esdx.Monitor.System

/-!
# The host keeps track of live hops

The host learns of an entry of the counters map by its new-hop event only, which the data path
submits once, after the insertion.  It forgets a hop at the end of a tick that did not find the
entry; an event that is on its way at that time is received later and brings the hop back.  What
the host never learns of is an entry whose event did not fit into the ring buffer.
-/

namespace Esdx.Monitor

variable {n : ℕ} {maps : Maps} {s s' : State n}

/-! ## Knowledge of a key -/

/-- The new-hop event of a key is in the ring buffer or on its way on the channel. -/
def EventPending (s : State n) (key : Key) : Prop :=
  key ∈ s.ringbuf ∨ s.reader = .sending (hopOfKey key)

/-- Every key of the counters map is known to the host, or its event is pending. -/
def HopsKnown (s : State n) : Prop :=
  ∀ key, s.counters key ≠ none → hopOfKey key ∈ s.hops ∨ EventPending s key

/-- No insertion is between its map update and its report. -/
def NoInsertion (s : State n) : Prop := ∀ cpu key, s.cpu cpu ≠ .inserted key

/-- The running `log_counters` is going to delete the hop. -/
def Condemned (s : State n) (hop : Hop) : Prop :=
  ∃ todo deleted, s.poll = .logging todo deleted ∧ hop ∈ deleted

/-- The key has a pending event, or a CPU is about to report it, or the host has the hop and is not
about to delete it. -/
def Tracked (s : State n) (key : Key) : Prop :=
  EventPending s key ∨ (∃ cpu, s.cpu cpu = .inserted key) ∨
    (hopOfKey key ∈ s.hops ∧ ¬Condemned s (hopOfKey key))

/-- Every key of the counters map is tracked. -/
def AllTracked (s : State n) : Prop := ∀ key, s.counters key ≠ none → Tracked s key

/-- A reservation that fails does no harm: the entry has gone, or the key has another event pending
or another CPU about to report it, or the host has the hop and is not about to delete it. -/
def LossHarmless (a : Action n) (s : State n) : Prop :=
  ∀ cpu key, a = .report cpu → s.cpu cpu = .inserted key →
    ringbufRecords ≤ s.ringbuf.length →
    s.counters key = none ∨ EventPending s key ∨ (∃ cpu', cpu' ≠ cpu ∧ s.cpu cpu' = .inserted key) ∨
      (hopOfKey key ∈ s.hops ∧ ¬Condemned s (hopOfKey key))

/-! ## Small facts -/

/-- What is left after some deletions. -/
lemma mem_foldl_erase {deleted : List Hop} {hops : AList fun _ : Hop => Counter} {hop : Hop} :
    hop ∈ deleted.foldl (fun hops hop => hops.erase hop) hops ↔ hop ∈ hops ∧ hop ∉ deleted := by
  induction deleted generalizing hops with
  | nil => simp
  | cons d deleted ih =>
    rw [List.foldl_cons, ih, AList.mem_erase, List.mem_cons, not_or]
    tauto

/-- Nothing is condemned while the host waits. -/
lemma not_condemned_of_waiting (h : s.poll = .waiting) (hop : Hop) : ¬Condemned s hop := by
  rintro ⟨todo, deleted, hpoll, -⟩
  exact absurd (h.symm.trans hpoll) (by simp)

/-- What is condemned depends on the polling goroutine only. -/
lemma condemned_congr (hpoll : s'.poll = s.poll) (hop : Hop) :
    Condemned s' hop ↔ Condemned s hop := by
  unfold Condemned
  rw [hpoll]

/-- A key stays tracked when a CPU that is not about to report it goes on, and the goroutines and
their buffers stay. -/
lemma Tracked.of_goto {key : Key} (h : Tracked s key) {cpu : Fin n} {phase : Phase}
    (hold : s.cpu cpu ≠ .inserted key) (hcpu : s'.cpu = Function.update s.cpu cpu phase)
    (hringbuf : s'.ringbuf = s.ringbuf) (hreader : s'.reader = s.reader)
    (hhops : s'.hops = s.hops) (hpoll : s'.poll = s.poll) : Tracked s' key := by
  rcases h with h | ⟨c, hc⟩ | ⟨hhop, hnot⟩
  · rw [EventPending, ← hringbuf, ← hreader] at h
    exact .inl h
  · have hne : c ≠ cpu := by
      rintro rfl
      exact hold hc
    refine .inr (.inl ⟨c, ?_⟩)
    rw [hcpu, Function.update_of_ne hne, hc]
  · refine .inr (.inr ⟨hhops ▸ hhop, ?_⟩)
    rwa [condemned_congr hpoll]

/-- A key stays tracked when the CPUs stay and the host keeps the hop. -/
lemma Tracked.of_host {key : Key} (h : Tracked s key) (hcpu : s'.cpu = s.cpu)
    (hpending : EventPending s key → Tracked s' key)
    (hhops : hopOfKey key ∈ s.hops → ¬Condemned s (hopOfKey key) →
      hopOfKey key ∈ s'.hops ∧ ¬Condemned s' (hopOfKey key)) : Tracked s' key := by
  rcases h with h | ⟨c, hc⟩ | ⟨hhop, hnot⟩
  · exact hpending h
  · exact .inr (.inl ⟨c, by rw [hcpu, hc]⟩)
  · exact .inr (.inr (hhops hhop hnot))

/-! ## One step -/

/-- The start. -/
lemma allTracked_init : AllTracked ({} : State n) := fun _ h => absurd rfl h

/-- **One step.**  A step whose lost event does no harm keeps every key of the map tracked. -/
lemma AllTracked.step (h : AllTracked s) {a : Action n} (hloss : LossHarmless a s)
    (ha : Effect maps s a s') : AllTracked s' := by
  intro key hkey
  cases ha with
  | ignored => exact h key hkey
  | found hcpu hsome hentry =>
    exact (h key hkey).of_goto (by rw [hcpu]; simp) rfl rfl rfl rfl rfl
  | missing hcpu hsome hentry =>
    exact (h key hkey).of_goto (by rw [hcpu]; simp) rfl rfl rfl rfl rfl
  | incremented hcpu =>
    exact (h key hkey).of_goto (by rw [hcpu]; simp) rfl rfl rfl rfl rfl
  | insertFailed hcpu hentry =>
    exact (h key hkey).of_goto (by rw [hcpu]; simp) rfl rfl rfl rfl rfl
  | @inserted cpu elem hop p hcpu hentry howner =>
    by_cases hhop : key = hop
    · -- the CPU is about to report the new entry
      exact .inr (.inl ⟨cpu, by rw [hhop]; exact Function.update_self ..⟩)
    · have hold : s.counters key ≠ none := by
        rwa [← show Function.update s.counters hop (some elem) key = s.counters key from
          Function.update_of_ne hhop ..]
      exact (h key hold).of_goto (by rw [hcpu]; simp) rfl rfl rfl rfl rfl
  | @reported cpu hop hcpu hroom =>
    by_cases hhop : key = hop
    · exact .inl (.inl (by simp [hhop]))
    · have hold : s.cpu cpu ≠ .inserted key := by
        rw [hcpu]
        simpa using Ne.symm hhop
      have hgoto : Tracked (s.goto cpu .idle) key :=
        (h key hkey).of_goto hold rfl rfl rfl rfl rfl
      exact hgoto.of_host rfl
        (fun hpending => .inl (hpending.imp_left (List.mem_append_left _)))
        fun hhops hnot => ⟨hhops, hnot⟩
  | @reserveFailed cpu hop hcpu hfull =>
    by_cases hhop : key = hop
    · subst hhop
      rcases hloss cpu key rfl hcpu hfull with hgone | hpending | ⟨c, hne, hc⟩ | hhost
      · exact absurd hgone hkey
      · exact .inl hpending
      · exact .inr (.inl ⟨c, (Function.update_of_ne hne ..).trans hc⟩)
      · exact .inr (.inr hhost)
    · have hold : s.cpu cpu ≠ .inserted key := by
        rw [hcpu]
        simpa using Ne.symm hhop
      exact (h key hkey).of_goto hold rfl rfl rfl rfl rfl
  | @evicted key' elem hentry =>
    have hold : s.counters key ≠ none := by
      intro hnone
      refine hkey ?_
      change Function.update s.counters key' none key = none
      by_cases hkk : key = key'
      · rw [hkk, Function.update_self]
      · rw [Function.update_of_ne hkk, hnone]
    exact (h key hold).of_host rfl .inl fun hhops hnot => ⟨hhops, hnot⟩
  | @read hop rest hreader hringbuf =>
    refine (h key hkey).of_host rfl ?_ fun hhops hnot => ⟨hhops, hnot⟩
    rintro (hmem | hsending)
    · rw [hringbuf, List.mem_cons] at hmem
      rcases hmem with rfl | hmem
      · exact .inl (.inr rfl)
      · exact .inl (.inl hmem)
    · exact absurd (hreader.symm.trans hsending) (by simp)
  | stopped hreader =>
    refine (h key hkey).of_host rfl ?_ fun hhops hnot => ⟨hhops, hnot⟩
    rintro (hmem | hsending)
    · exact .inl (.inl hmem)
    · exact absurd (hreader.symm.trans hsending) (by simp)
  | @handedOver hop hreader hpoll =>
    refine (h key hkey).of_host rfl ?_ fun hhops _ =>
      ⟨(AList.mem_insert _).mpr (.inr hhops), not_condemned_of_waiting hpoll _⟩
    rintro (hmem | hsending)
    · exact .inl (.inl hmem)
    · have hhop : hopOfKey key = hop := (Reader.sending.inj (hreader.symm.trans hsending)).symm
      exact .inr (.inr ⟨(AList.mem_insert _).mpr (.inl hhop), not_condemned_of_waiting hpoll _⟩)
  | ticked hpoll =>
    refine (h key hkey).of_host rfl .inl fun hhops _ => ⟨hhops, ?_⟩
    rintro ⟨todo, deleted, heq, hmem⟩
    rw [← (Poll.logging.inj heq).2] at hmem
    exact absurd hmem List.not_mem_nil
  | @deleted hop todo deleted hpoll htodo hentry =>
    refine (h key hkey).of_host rfl .inl fun hhops hnot => ⟨hhops, ?_⟩
    rintro ⟨todo', deleted', heq, hmem⟩
    rw [← (Poll.logging.inj heq).2, List.mem_append, List.mem_singleton] at hmem
    rcases hmem with hmem | hmem
    · exact hnot ⟨todo, deleted, hpoll, hmem⟩
    · -- the entry of the hop is missing, that of the key is not
      rw [← hmem, toMapKey_hopOfKey] at hentry
      exact hkey hentry
  | @visited hop todo deleted elem lines hpoll htodo hknown hentry hlines =>
    refine (h key hkey).of_host rfl .inl fun hhops hnot =>
      ⟨(AList.mem_insert _).mpr (.inr hhops), ?_⟩
    rintro ⟨todo', deleted', heq, hmem⟩
    rw [← (Poll.logging.inj heq).2] at hmem
    exact hnot ⟨todo, deleted, hpoll, hmem⟩
  | @skipped hop todo deleted hpoll htodo =>
    refine (h key hkey).of_host rfl .inl fun hhops hnot => ⟨hhops, ?_⟩
    rintro ⟨todo', deleted', heq, hmem⟩
    rw [← (Poll.logging.inj heq).2] at hmem
    exact hnot ⟨todo, deleted, hpoll, hmem⟩
  | @finished deleted hpoll =>
    refine (h key hkey).of_host rfl .inl fun hhops hnot =>
      ⟨mem_foldl_erase.mpr ⟨hhops, fun hmem => hnot ⟨[], deleted, hpoll, hmem⟩⟩,
        not_condemned_of_waiting rfl _⟩

/-- A lost event does harm exactly when it leaves a key of the map untracked. -/
lemma AllTracked.step_iff (h : AllTracked s) {a : Action n} (ha : Effect maps s a s') :
    AllTracked s' ↔ LossHarmless a s := by
  refine ⟨fun h' cpu key heq hcpu hfull => ?_, fun hloss => h.step hloss ha⟩
  subst heq
  cases ha with
  | reported hcpu' hroom => exact absurd hfull (not_le.mpr hroom)
  | @reserveFailed _ hop hcpu' hfull' =>
    by_cases hentry : s.counters key = none
    · exact .inl hentry
    · rcases h' key hentry with hpending | ⟨c, hc⟩ | hhost
      · exact .inr (.inl hpending)
      · have hc : Function.update s.cpu cpu .idle c = .inserted key := hc
        have hne : c ≠ cpu := by
          rintro rfl
          rw [Function.update_self] at hc
          simp at hc
        rw [Function.update_of_ne hne] at hc
        exact .inr (.inr (.inl ⟨c, hne, hc⟩))
      · exact .inr (.inr (.inr hhost))

/-! ## Runs -/

/-- The action reports a new hop. -/
def Action.isReport : Action n → Bool
  | .report _ => true
  | _ => false

/-- The ring buffer holds no more events than hops were reported. -/
lemma length_ringbuf_le {actions : List (Action n)}
    (h : Guarded.run (step maps) actions {} = some s) :
    s.ringbuf.length ≤ actions.countP Action.isReport := by
  induction actions using List.reverseRecOn generalizing s with
  | nil =>
    obtain rfl := Option.some.inj h
    exact le_rfl
  | append_singleton actions a ih =>
    obtain ⟨t, ht, hstep⟩ := Guarded.run_concat.mp h
    have hlength := ih ht
    have hnext : s.ringbuf.length ≤ t.ringbuf.length + [a].countP Action.isReport := by
      cases step_effect hstep with
      | reported => exact (List.length_append ..).le
      | read hreader hringbuf =>
        rw [hringbuf, List.length_cons]
        exact Nat.le_succ _
      | _ => exact Nat.le_add_right _ _
    rw [List.countP_append]
    omega

/-- No event is lost where nothing is reported. -/
lemma eachStep_of_isReport_eq_false {actions : List (Action n)}
    (h : ∀ a ∈ actions, a.isReport = false) (s : State n) :
    Guarded.EachStep (step maps) LossHarmless actions s := by
  rintro pre a post t hsplit - cpu key rfl
  exact absurd (h (.report cpu) (by rw [hsplit]; simp)) Bool.true_eq_false.mp

/-- No event is lost in a run that reports too few hops to fill the ring buffer. -/
lemma lossHarmless_of_countP_le {actions : List (Action n)}
    (hcount : actions.countP Action.isReport ≤ ringbufRecords) :
    Guarded.EachStep (step maps) LossHarmless actions {} := by
  intro pre a post t hsplit hpre cpu key ha hcpu hfull
  have hringbuf := length_ringbuf_le hpre
  have hreport : a.isReport = true := by rw [ha]; rfl
  rw [hsplit, List.countP_append, List.countP_cons_of_pos hreport] at hcount
  omega

/-- **The host keeps track of live hops.**  In every state of a run in which each lost event does no
harm, and in which no insertion is between its map update and its report, every key of the counters
map is in the host's set of hops or has its event in the ring buffer or on the channel. -/
theorem run_hopsKnown {actions : List (Action n)}
    (h : Guarded.run (step maps) actions {} = some s)
    (hloss : Guarded.EachStep (step maps) LossHarmless actions {}) (hdone : NoInsertion s) :
    HopsKnown s := by
  have htracked : AllTracked s :=
    Guarded.run_induction_of_eachStep AllTracked allTracked_init
      (fun a t t' ht hharmless hstep => ht.step hharmless (step_effect hstep)) hloss h
  intro key hkey
  rcases htracked key hkey with hpending | ⟨cpu, hcpu⟩ | ⟨hhops, -⟩
  · exact .inr hpending
  · exact absurd hcpu (hdone cpu key)
  · exact .inl hhops

/-! ## A burst of new hops -/

/-- One CPU counts one packet of each hop, all of them new. -/
def newHops (cpu : Fin n) : ℕ → List Hop → List (Action n)
  | _, [] => []
  | elem, hop :: hops =>
    [.receive cpu 2 (hopFrame 0 hop), .update cpu elem, .report cpu] ++
      newHops cpu (elem + 1) hops

/-- Every new hop is reported. -/
lemma countP_newHops (cpu : Fin n) (elem : ℕ) (hops : List Hop) :
    (newHops cpu elem hops).countP Action.isReport = hops.length := by
  induction hops generalizing elem with
  | nil => rfl
  | cons hop hops ih =>
    rw [newHops, List.countP_append, ih, List.length_cons, add_comm]
    rfl

/-- The hops are in the map, and as many of their events as fit are in the ring buffer.  No
goroutine has run. -/
structure Burst (hops : List Hop) (s : State n) : Prop where
  cpu : ∀ cpu, s.cpu cpu = .idle
  reader : s.reader = .reading
  poll : s.poll = .waiting
  unknown : s.hops = ∅
  counters : ∀ hop, s.counters hop.toMapKey ≠ none ↔ hop ∈ hops
  owner : ∀ elem, hops.length ≤ elem → s.owner elem = none
  ringbuf : s.ringbuf = (hops.map Hop.toMapKey).take ringbufRecords

/-- At the start there is no hop. -/
lemma burst_init : Burst [] ({} : State n) :=
  ⟨fun _ => rfl, rfl, rfl, rfl, by simp, fun _ _ => rfl, rfl⟩

/-- A CPU that goes back to idle leaves all of them idle. -/
lemma idle_of_goto {cpu : Fin n} (h : ∀ c, c ≠ cpu → s.cpu c = .idle) (c : Fin n) :
    (s.goto cpu .idle).cpu c = .idle := by
  by_cases hc : c = cpu
  · rw [hc]
    exact Function.update_self ..
  · exact (Function.update_of_ne hc ..).trans (h c hc)

/-- A key is that of a hop exactly when the hop is that of the key. -/
lemma toMapKey_inj {hop hop' : Hop} : hop.toMapKey = hop'.toMapKey ↔ hop = hop' := by
  refine ⟨fun h => ?_, fun h => by rw [h]⟩
  rw [← hopOfKey_toMapKey hop, h, hopOfKey_toMapKey]

/-- Appending one element to the first `m` elements of a list. -/
lemma take_append_singleton {α : Type} (l : List α) (a : α) (m : ℕ) :
    (l ++ [a]).take m = if (l.take m).length < m then l.take m ++ [a] else l.take m := by
  rw [List.length_take]
  split
  · rename_i hlt
    have hfits : (l ++ [a]).length ≤ m := by
      rw [List.length_append, List.length_singleton]
      omega
    rw [List.take_of_length_le hfits, List.take_of_length_le (l := l) (by omega)]
  · rename_i hle
    exact List.take_append_of_le_length (by omega)

/-- One more new hop. -/
lemma Burst.next {hops : List Hop} (h : Burst hops s) (cpu : Fin n) {hop : Hop}
    (hnew : hop ∉ hops) :
    ∃ s', Guarded.run (step (initMaps smallConf))
      [.receive cpu 2 (hopFrame 0 hop), .update cpu hops.length, .report cpu] s = some s' ∧
      Burst (hops ++ [hop]) s' := by
  have hentry : s.counters hop.toMapKey = none :=
    not_not.mp fun hne => hnew ((h.counters hop).mp hne)
  let p := hopFrame 0 hop
  let s₁ := (s.goto cpu (.missing hop.toMapKey p)).record [.attributed hop.toMapKey p]
  let s₂ := ((s₁.goto cpu (.inserted hop.toMapKey)).insertEntry cpu hops.length hop.toMapKey
    p).record [.inserted hop.toMapKey, .added hop.toMapKey (some hop.toMapKey) p]
  have hreceive : step (initMaps smallConf) (.receive cpu 2 p) s = some s₁ := by
    rw [step, h.cpu]
    dsimp only
    rw [esdxMonitor_hopFrame]
    dsimp only
    rw [hentry]
  have hupdate : step (initMaps smallConf) (.update cpu hops.length) s₁ = some s₂ := by
    have hcpu : s₁.cpu cpu = .missing hop.toMapKey p := Function.update_self ..
    have hentry : s₁.counters hop.toMapKey = none := hentry
    have howner : s₁.owner hops.length = none := h.owner _ le_rfl
    rw [step, hcpu]
    dsimp only
    rw [hentry, howner]
  have hcpu : s₂.cpu cpu = .inserted hop.toMapKey := Function.update_self ..
  have hidle : ∀ c, (s₂.goto cpu .idle).cpu c = .idle := idle_of_goto fun c hc =>
    (Function.update_of_ne hc ..).trans ((Function.update_of_ne hc ..).trans (h.cpu c))
  have hcounters : ∀ hop', s₂.counters hop'.toMapKey ≠ none ↔ hop' ∈ hops ++ [hop] := by
    intro hop'
    change Function.update s.counters hop.toMapKey (some hops.length) hop'.toMapKey ≠ none ↔ _
    by_cases heq : hop' = hop
    · simp [heq]
    · have hne : hop'.toMapKey ≠ hop.toMapKey := fun hkey => heq (toMapKey_inj.mp hkey)
      rw [Function.update_of_ne hne, h.counters, List.mem_append, List.mem_singleton]
      exact (or_iff_left heq).symm
  have howner : ∀ elem, (hops ++ [hop]).length ≤ elem → s₂.owner elem = none := by
    intro elem helem
    rw [List.length_append, List.length_singleton] at helem
    change Function.update s.owner hops.length (some hop.toMapKey) elem = none
    rw [Function.update_of_ne (by omega), h.owner elem (by omega)]
  have hringbuf : ((hops ++ [hop]).map Hop.toMapKey).take ringbufRecords =
      if s.ringbuf.length < ringbufRecords then s.ringbuf ++ [hop.toMapKey] else s.ringbuf := by
    rw [List.map_append, List.map_singleton, take_append_singleton, ← h.ringbuf]
  by_cases hroom : s.ringbuf.length < ringbufRecords
  · have hreport : step (initMaps smallConf) (.report cpu) s₂ =
        some { s₂.goto cpu .idle with ringbuf := s.ringbuf ++ [hop.toMapKey] } := by
      rw [step, hcpu]
      exact if_pos hroom
    refine ⟨_, by rw [Guarded.run_cons hreceive, Guarded.run_cons hupdate,
      Guarded.run_cons hreport]; rfl, ?_⟩
    exact ⟨hidle, h.reader, h.poll, h.unknown, hcounters, howner,
      (hringbuf.trans (if_pos hroom)).symm⟩
  · have hreport : step (initMaps smallConf) (.report cpu) s₂ =
        some ((s₂.goto cpu .idle).record [.reserveFailed hop.toMapKey]) := by
      rw [step, hcpu]
      exact if_neg hroom
    refine ⟨_, by rw [Guarded.run_cons hreceive, Guarded.run_cons hupdate,
      Guarded.run_cons hreport]; rfl, ?_⟩
    exact ⟨hidle, h.reader, h.poll, h.unknown, hcounters, howner,
      (hringbuf.trans (if_neg hroom)).symm⟩

/-- A burst of new hops. -/
lemma Burst.run {done hops : List Hop} (h : Burst done s) (cpu : Fin n)
    (hnodup : (done ++ hops).Nodup) :
    ∃ s', Guarded.run (step (initMaps smallConf)) (newHops cpu done.length hops) s = some s' ∧
      Burst (done ++ hops) s' := by
  induction hops generalizing done s with
  | nil => exact ⟨s, rfl, by rwa [List.append_nil]⟩
  | cons hop hops ih =>
    have hnew : hop ∉ done := fun hmem => (List.nodup_append.mp hnodup).2.2 hop hmem hop
      List.mem_cons_self rfl
    obtain ⟨s₁, hs₁, hburst⟩ := h.next cpu hnew
    have hsplit : done ++ hop :: hops = (done ++ [hop]) ++ hops := by simp
    rw [hsplit] at hnodup ⊢
    obtain ⟨s', hs', hdone⟩ := ih hburst hnodup
    rw [List.length_append, List.length_singleton] at hs'
    exact ⟨s', Guarded.run_trans hs₁ hs', hdone⟩

/-- One hop for each of `m` ingress interfaces. -/
def ingressHops (m : ℕ) : List Hop := (List.range m).map fun i => ⟨UInt16.ofNat i, 0⟩

/-- No hop comes twice. -/
lemma nodup_ingressHops {m : ℕ} (hm : m ≤ 2 ^ 16) : (ingressHops m).Nodup := by
  refine List.Nodup.map_on ?_ List.nodup_range
  intro i hi j hj heq
  have hvalue := congrArg UInt16.toNat (Hop.mk.inj heq).1
  rw [List.mem_range] at hi hj
  rw [UInt16.toNat_ofNat', UInt16.toNat_ofNat'] at hvalue
  omega

/-- The last of the hops. -/
lemma ingressHops_succ (m : ℕ) : ingressHops (m + 1) = ingressHops m ++ [⟨UInt16.ofNat m, 0⟩] := by
  unfold ingressHops
  rw [List.range_succ, List.map_append, List.map_singleton]

/-- As many hops as records fit into the ring buffer, and one more.  The map has room for them. -/
def burstHops : List Hop := ingressHops (ringbufRecords + 1)

/-- **A hop that the host never learns of.**  When a burst of new hops fills the ring buffer before
it is read, the last hop is in the map, the host does not have it, and no event is pending. -/
theorem not_run_hopsKnown :
    ∃ s, Guarded.run (step (initMaps smallConf)) (newHops (0 : Fin 1) 0 burstHops) {} = some s ∧
      NoInsertion s ∧ ¬HopsKnown s := by
  have hnodup : ([] ++ burstHops).Nodup := by
    rw [List.nil_append]
    exact nodup_ingressHops (by decide)
  obtain ⟨s, hs, hburst⟩ := burst_init.run (0 : Fin 1) hnodup
  have hlast : burstHops = ingressHops ringbufRecords ++ [⟨UInt16.ofNat ringbufRecords, 0⟩] :=
    ingressHops_succ ringbufRecords
  refine ⟨s, hs, fun cpu key => by simp [hburst.cpu], fun hknown => ?_⟩
  let hop : Hop := ⟨UInt16.ofNat ringbufRecords, 0⟩
  have hmem : hop ∈ [] ++ burstHops := by simp [hlast, hop]
  rcases hknown hop.toMapKey ((hburst.counters hop).mpr hmem) with hhops | hringbuf | hsending
  · rw [hburst.unknown] at hhops
    exact absurd hhops (AList.notMem_empty _)
  · -- the ring buffer holds the other hops
    rw [hburst.ringbuf, List.nil_append, hlast, List.map_append,
      List.take_left' (by simp [ingressHops])] at hringbuf
    obtain ⟨hop', hhop', heq⟩ := List.mem_map.mp hringbuf
    rw [List.nil_append, hlast] at hnodup
    exact (List.nodup_append.mp hnodup).2.2 hop' hhop' hop (by simp [hop]) (toMapKey_inj.mp heq)
  · exact absurd (hburst.reader.symm.trans hsending) (by simp)

/-! ## A full ring buffer -/

/-- The host receives the first hop of the ring buffer, and a tick logs it. -/
def hostRound (hop : Hop) : List (Action n) := [.read, .handOver, .tick, .visit hop, .finish]

/-- The host can always receive and log its first hop while the entry is in the map. -/
lemma run_hostRound {hop : Hop} {rest : List Key} {elem : ℕ} (hreader : s.reader = .reading)
    (hpoll : s.poll = .waiting) (hhops : s.hops = ∅) (hringbuf : s.ringbuf = hop.toMapKey :: rest)
    (hentry : s.counters hop.toMapKey = some elem) :
    ∃ s', Guarded.run (step maps) (hostRound hop) s = some s' ∧ s'.cpu = s.cpu ∧
      s.history <+: s'.history := by
  let s₁ : State n := { s with ringbuf := rest, reader := .sending hop }
  let s₂ : State n :=
    { s₁ with reader := .reading, hops := s₁.hops.insert hop 0 }.record [.newHop hop]
  let s₃ : State n := { s₂ with poll := .logging s₂.hops.keys [] }
  have hread : step maps .read s = some s₁ := by
    rw [step, hreader, hringbuf]
    dsimp only
    rw [hopOfKey_toMapKey]
  have hhandOver : step maps .handOver s₁ = some s₂ := by
    have hsending : s₁.reader = .sending hop := rfl
    have hpoll : s₁.poll = .waiting := hpoll
    simp only [step, hsending, hpoll, s₂]
  have htick : step maps .tick s₂ = some s₃ := by
    have hpoll : s₂.poll = .waiting := hpoll
    rw [step, hpoll]
  have hknown : s₂.hops = AList.insert hop 0 ∅ := congrArg (AList.insert hop 0) hhops
  have hlookup : s₃.hops.lookup hop = some 0 := by
    change s₂.hops.lookup hop = some 0
    rw [hknown]
    exact AList.lookup_insert ∅
  have hlogging : s₃.poll = .logging [hop] [] := by
    change Poll.logging s₂.hops.keys [] = _
    rw [hknown]
    rfl
  have hentry : s₃.counters hop.toMapKey = some elem := hentry
  obtain ⟨s₄, hvisit, hdone, hcpu, hhistory⟩ : ∃ s₄, step maps (.visit hop) s₃ = some s₄ ∧
      s₄.poll = .logging [] [] ∧ s₄.cpu = s.cpu ∧ s₂.history <+: s₄.history := by
    rw [step, hlogging, hlookup]
    dsimp only
    rw [if_pos (List.mem_singleton_self hop), State.readPercpuCounters, hentry]
    refine ⟨_, rfl, ?_, rfl, List.prefix_append _ _⟩
    simp [State.record]
  let s₅ : State n := { s₄ with poll := .waiting }
  have hfinish : step maps .finish s₄ = some s₅ := by
    rw [step, hdone]
    rfl
  refine ⟨s₅, ?_, hcpu, (List.prefix_append _ _).trans hhistory⟩
  rw [hostRound, Guarded.run_cons hread, Guarded.run_cons hhandOver, Guarded.run_cons htick,
    Guarded.run_cons hvisit, Guarded.run_cons hfinish]
  rfl

/-- The first hop is evicted and inserted again by the other CPU, which has no room to report it. -/
def insertAgain (c : Fin n) : List (Action n) :=
  [.evict (Hop.toMapKey ⟨0, 0⟩), .receive c 2 (hopFrame 0 ⟨0, 0⟩), .update c ringbufRecords,
    .report c]

/-- The event of the second insertion is lost in a full ring buffer, which does no harm, as the
first one of the hop is still there. -/
lemma run_insertAgain {c : Fin n} {elem : ℕ} (hidle : ∀ c', s.cpu c' = .idle)
    (hentry : s.counters (Hop.toMapKey ⟨0, 0⟩) = some elem) (hfree : s.owner ringbufRecords = none)
    (hfull : s.ringbuf.length = ringbufRecords) (hpending : Hop.toMapKey ⟨0, 0⟩ ∈ s.ringbuf) :
    ∃ s', Guarded.run (step (initMaps smallConf)) (insertAgain c) s = some s' ∧
      Guarded.EachStep (step (initMaps smallConf)) LossHarmless (insertAgain c) s ∧
      (∀ c', s'.cpu c' = .idle) ∧ s'.counters (Hop.toMapKey ⟨0, 0⟩) = some ringbufRecords ∧
      s'.reader = s.reader ∧ s'.poll = s.poll ∧ s'.hops = s.hops ∧ s'.ringbuf = s.ringbuf ∧
      .reserveFailed (Hop.toMapKey ⟨0, 0⟩) ∈ s'.history := by
  let hop : Hop := ⟨0, 0⟩
  let p := hopFrame 0 hop
  let s₁ := (s.removeEntry hop.toMapKey elem).record [.evicted hop.toMapKey]
  let s₂ := (s₁.goto c (.missing hop.toMapKey p)).record [.attributed hop.toMapKey p]
  let s₃ := ((s₂.goto c (.inserted hop.toMapKey)).insertEntry c ringbufRecords hop.toMapKey
    p).record [.inserted hop.toMapKey, .added hop.toMapKey (some hop.toMapKey) p]
  let s₄ := (s₃.goto c .idle).record [.reserveFailed hop.toMapKey]
  have hevict : step (initMaps smallConf) (.evict hop.toMapKey) s = some s₁ := by
    rw [step, hentry]
  have hreceive : step (initMaps smallConf) (.receive c 2 p) s₁ = some s₂ := by
    have hcpu : s₁.cpu c = .idle := hidle c
    have hgone : s₁.counters hop.toMapKey = none := Function.update_self ..
    rw [step, hcpu]
    dsimp only
    rw [esdxMonitor_hopFrame]
    dsimp only
    rw [hgone]
  have hupdate : step (initMaps smallConf) (.update c ringbufRecords) s₂ = some s₃ := by
    have hcpu : s₂.cpu c = .missing hop.toMapKey p := Function.update_self ..
    have hgone : s₂.counters hop.toMapKey = none := Function.update_self ..
    have hfree : s₂.owner ringbufRecords = none := by
      change Function.update s.owner elem none ringbufRecords = none
      rw [Function.update_apply, hfree, ite_self]
    rw [step, hcpu]
    dsimp only
    rw [hgone, hfree]
  have hcpu : s₃.cpu c = .inserted hop.toMapKey := Function.update_self ..
  have hreport : step (initMaps smallConf) (.report c) s₃ = some s₄ := by
    rw [step, hcpu]
    exact if_neg hfull.not_lt
  have hnew : s₄.counters hop.toMapKey = some ringbufRecords := Function.update_self ..
  refine ⟨s₄, ?_, ?_, ?_, hnew, rfl, rfl, rfl, rfl,
    List.mem_append_right _ List.mem_cons_self⟩
  · rw [insertAgain, Guarded.run_cons hevict, Guarded.run_cons hreceive, Guarded.run_cons hupdate,
      Guarded.run_cons hreport]
    rfl
  · rw [insertAgain, Guarded.eachStep_cons hevict, Guarded.eachStep_cons hreceive,
      Guarded.eachStep_cons hupdate, Guarded.eachStep_cons hreport]
    refine ⟨fun _ _ h => by simp at h, fun _ _ h => by simp at h, fun _ _ h => by simp at h, ?_,
      Guarded.eachStep_nil⟩
    intro c' key hc hkey hfull
    obtain rfl := Action.report.inj hc
    obtain rfl := Phase.inserted.inj (hcpu.symm.trans hkey)
    exact .inr (.inl (.inl hpending))
  · exact idle_of_goto fun c' hc =>
      (Function.update_of_ne hc ..).trans ((Function.update_of_ne hc ..).trans (hidle c'))

/-- After a burst that has filled the ring buffer the host can still receive and log the first
hop, though an event of it is lost. -/
lemma Burst.insertAgain (c : Fin n) (h : Burst (ingressHops ringbufRecords) s) :
    ∃ s', Guarded.run (step (initMaps smallConf)) (insertAgain c ++ hostRound ⟨0, 0⟩) s =
        some s' ∧
      Guarded.EachStep (step (initMaps smallConf)) LossHarmless
        (Monitor.insertAgain c ++ hostRound ⟨0, 0⟩) s ∧
      NoInsertion s' ∧ .reserveFailed (Hop.toMapKey ⟨0, 0⟩) ∈ s'.history := by
  obtain ⟨elem, hentry⟩ : ∃ elem, s.counters (Hop.toMapKey ⟨0, 0⟩) = some elem :=
    Option.ne_none_iff_exists'.mp ((h.counters ⟨0, 0⟩).mpr (by decide +kernel))
  obtain ⟨rest, hringbuf⟩ : ∃ rest, s.ringbuf = Hop.toMapKey ⟨0, 0⟩ :: rest := by
    have hrecords : ringbufRecords = 1022 + 1 := by decide
    rw [h.ringbuf, ingressHops, hrecords, List.range_succ_eq_map, List.map_cons, List.map_cons,
      List.take_succ_cons]
    exact ⟨_, rfl⟩
  have hlength : (ingressHops ringbufRecords).length = ringbufRecords := by simp [ingressHops]
  have hfull : s.ringbuf.length = ringbufRecords := by
    rw [h.ringbuf, List.length_take, List.length_map, hlength, min_self]
  obtain ⟨t, hagain, hloss, hidle, hnew, hreader, hpoll, hhops, hsameRingbuf, hlost⟩ :=
    run_insertAgain (c := c) h.cpu hentry (h.owner ringbufRecords hlength.le) hfull
      (hringbuf ▸ List.mem_cons_self)
  obtain ⟨s', hround, hsame, hhistory⟩ : ∃ s', Guarded.run (step (initMaps smallConf))
      (hostRound ⟨0, 0⟩) t = some s' ∧ s'.cpu = t.cpu ∧ t.history <+: s'.history :=
    run_hostRound (hreader.trans h.reader) (hpoll.trans h.poll) (hhops.trans h.unknown)
      (hsameRingbuf.trans hringbuf) hnew
  refine ⟨s', Guarded.run_trans hagain hround, ?_, fun c' key => ?_, hhistory.subset hlost⟩
  · exact (Guarded.eachStep_append hagain).mpr
      ⟨hloss, eachStep_of_isReport_eq_false (by simp [hostRound, Action.isReport]) _⟩
  · rw [hsame, hidle]
    simp

/-- The full ring buffer loses an event, and the host still knows all hops at the end. -/
theorem run_hopsKnown_fullRing :
    ∃ s, Guarded.run (step (initMaps smallConf))
        (newHops (0 : Fin 2) 0 (ingressHops ringbufRecords) ++
          (insertAgain 1 ++ hostRound ⟨0, 0⟩)) {} = some s ∧
      .reserveFailed (Hop.toMapKey ⟨0, 0⟩) ∈ s.history ∧ HopsKnown s := by
  have hnodup : ([] ++ ingressHops ringbufRecords).Nodup := by
    rw [List.nil_append]
    exact nodup_ingressHops (by decide)
  obtain ⟨t, ht, hburst⟩ := burst_init.run (0 : Fin 2) hnodup
  rw [List.nil_append] at hburst
  obtain ⟨s, hs, htail, hdone, hlost⟩ := hburst.insertAgain 1
  have hrun := Guarded.run_trans ht hs
  have hfits : (newHops (0 : Fin 2) 0 (ingressHops ringbufRecords)).countP Action.isReport ≤
      ringbufRecords := by
    rw [countP_newHops, ingressHops, List.length_map, List.length_range]
  have hloss := (Guarded.eachStep_append ht).mpr ⟨lossHarmless_of_countP_le hfits, htail⟩
  exact ⟨s, hrun, hlost, run_hopsKnown hrun hloss hdone⟩

end Esdx.Monitor
