import Esdx.Foundations.Guarded
import Esdx.Market.Models

/-!
# The cached key and certificate of the broker

Within one server process, `BrokerManager` keeps the key and the certificate of the broker.  A
signal clears both before the database takes a change of a broker, and a get stores what it has
loaded from the database.  Between the signal and the change, and between the load and the store,
other threads can run.

What is held, in the cache or by a get that is about to store it, is right until a change of the
database makes it wrong.  So the cache is coherent in the runs in which every change leaves what is
held right.
-/

namespace Esdx.BrokerCache

variable {C : Crypto} {T : Type} [DecidableEq T]

/-! ## The table of the brokers -/

/-- The rows of the brokers, with their primary keys. -/
abbrev Rows := List (ℕ × Broker)

/-- A change of the rows: `save` of an instance with this key, and `delete` of some instances. -/
inductive Write
  | save (pk : ℕ) (broker : Broker)
  | delete (pks : List ℕ)

/-- The signals that are sent before the change: `pre_save` for the instance, `pre_delete` for each
of the instances. -/
def Write.signals : Write → ℕ
  | .save _ _ => 1
  | .delete pks => pks.length

/-- What the database does: an update if the key is there, an insertion if it is not, or a
deletion. -/
def Write.apply (rows : Rows) : Write → Rows
  | .save pk broker =>
    if rows.any (·.1 = pk) then rows.map fun row => if row.1 = pk then (pk, broker) else row
    else rows ++ [(pk, broker)]
  | .delete pks => rows.filter (·.1 ∉ pks)

/-- The brokers as the market has them. -/
def registry (rows : Rows) : Registry := { ases := [], brokers := rows.map (·.2) }

/-- The check in `BrokerManager.get`. -/
def checkCount (rows : Rows) : Except Exc Unit :=
  if rows.length > 1 then
    .error (.runtimeError "only one broker allowed (creating one but one already exists)")
  else .ok ()

/-- `super().get()`. -/
def superGet (rows : Rows) : Except Exc Broker :=
  match rows with
  | [] => .error (.doesNotExist "Broker matching query does not exist.")
  | [row] => .ok row.2
  | _ =>
    let num := if rows.length ≤ 20 then toString rows.length else "more than 20"
    .error (.multipleObjectsReturned
      ("get() returned more than one Broker -- it returned " ++ num ++ "!"))

/-! ## The cached fields -/

/-- The fields of `BrokerManager`: `broker_key` and `broker_cert`. -/
inductive Field
  | brokerKey
  | brokerCert
deriving DecidableEq

instance : Fintype Field where
  elems := {.brokerKey, .brokerCert}
  complete field := by cases field <;> simp

/-- What a field holds. -/
def Field.Value (C : Crypto) : Field → Type
  | .brokerKey => C.Key
  | .brokerCert => C.Cert

/-- What a get loads from the row: `load_key` of `key_pem` or `load_certificate` of
`certificate_pem`. -/
def Field.load (C : Crypto) : (field : Field) → Broker → Except Exc (field.Value C)
  | .brokerKey, broker => C.loadKey broker.keyPem
  | .brokerCert, broker => C.loadCertificate broker.certificatePem

/-- What the database has for a field. -/
def Field.current (C : Crypto) (rows : Rows) : (field : Field) → Except Exc (field.Value C)
  | .brokerKey => (registry rows).getBrokerKey C
  | .brokerCert => (registry rows).getBrokerCertificate C

/-- The check and the query of `BrokerManager.get`, when the rows stay the same between them, and
the load. -/
lemma current_eq (field : Field) (rows : Rows) :
    field.current C rows =
      (checkCount rows).bind fun _ => (superGet rows).bind (field.load C) := by
  rcases rows with _ | ⟨row, _ | ⟨row', rows⟩⟩
  · cases field with
    | brokerKey => rfl
    | brokerCert => rfl
  · cases field with
    | brokerKey => rfl
    | brokerCert => rfl
  · have hcount : checkCount (row :: row' :: rows) = .error
        (.runtimeError "only one broker allowed (creating one but one already exists)") :=
      if_pos (by simp)
    rw [hcount]
    cases field with
    | brokerKey => rfl
    | brokerCert => rfl

/-! ## The threads -/

variable (C) in
/-- Where a thread is.  In `save` and `delete` it sends the signals, each of which clears the key
and then the certificate, and then changes the rows.  In `get_broker_key` and
`get_broker_certificate` it has found nothing in the field, checked the number of rows, loaded the
value, or is about to return what the field has.  The last answer is kept. -/
inductive Phase
  | idle
  | writing (signals : ℕ) (w : Write)
  | clearing (signals : ℕ) (w : Write)
  | empty (field : Field)
  | counted (field : Field)
  | loaded (field : Field) (value : field.Value C)
  | returning (field : Field)
  | returned (field : Field) (answer : Except Exc (Option (field.Value C)))

/-- No write of the thread is in progress, and no get call is under way. -/
def Phase.Quiet : Phase C → Prop
  | .idle => True
  | .returned _ _ => True
  | _ => False

instance : DecidablePred (Phase.Quiet (C := C)) := fun phase =>
  match phase with
  | .idle => isTrue trivial
  | .returned _ _ => isTrue trivial
  | .writing _ _ => isFalse id
  | .clearing _ _ => isFalse id
  | .empty _ => isFalse id
  | .counted _ => isFalse id
  | .loaded _ _ => isFalse id
  | .returning _ => isFalse id

variable (C T) in
/-- The rows, the fields of `BrokerManager`, and the threads. -/
structure State where
  rows : Rows
  cached : (field : Field) → Option (field.Value C) := fun _ => none
  thread : T → Phase C := fun _ => .idle

variable (T) in
/-- One operation of a thread: it begins a write, it calls a getter, which tests the field, or it
goes on. -/
inductive Action
  | begin (t : T) (w : Write)
  | get (t : T) (field : Field)
  | next (t : T)

namespace State

variable (s : State C T)

/-- The thread goes to another phase. -/
def goto (t : T) (phase : Phase C) : State C T :=
  { s with thread := Function.update s.thread t phase }

/-- `self.broker_key = value` or `self.broker_cert = value`. -/
def assign (field : Field) (value : Option (field.Value C)) : State C T :=
  { s with cached := Function.update s.cached field value }

end State

/-- A thread that is quiet begins a write, or tests a field. -/
def start (t : T) (phase : Phase C) (s : State C T) : Option (State C T) :=
  match s.thread t with
  | .idle => some (s.goto t phase)
  | .returned _ _ => some (s.goto t phase)
  | _ => none

/-- One action, if it is possible. -/
def step : Action T → State C T → Option (State C T)
  | .begin t w, s => start t (.writing w.signals w) s
  | .get t field, s =>
    start t (if (s.cached field).isNone then .empty field else .returning field) s
  | .next t, s =>
    match s.thread t with
    | .writing (signals + 1) w => some ((s.goto t (.clearing signals w)).assign .brokerKey none)
    | .clearing signals w => some ((s.goto t (.writing signals w)).assign .brokerCert none)
    | .writing 0 w => some { s.goto t .idle with rows := w.apply s.rows }
    | .empty field =>
      match checkCount s.rows with
      | .error e => some (s.goto t (.returned field (.error e)))
      | .ok _ => some (s.goto t (.counted field))
    | .counted field =>
      match (superGet s.rows).bind (field.load C) with
      | .error e => some (s.goto t (.returned field (.error e)))
      | .ok value => some (s.goto t (.loaded field value))
    | .loaded field value => some ((s.goto t (.returning field)).assign field (some value))
    | .returning field => some (s.goto t (.returned field (.ok (s.cached field))))
    | _ => none

variable (T) in
/-- The start of the process. -/
def init (rows : Rows) : State C T := { rows }

/-! ## What a step does -/

/-- The possible steps, with what is known before and how the state changes. -/
inductive Effect (s : State C T) : Action T → State C T → Prop
  | began {t : T} {w : Write} (hquiet : (s.thread t).Quiet) :
      Effect s (.begin t w) (s.goto t (.writing w.signals w))
  | found {t : T} {field : Field} (hquiet : (s.thread t).Quiet) (hcached : s.cached field ≠ none) :
      Effect s (.get t field) (s.goto t (.returning field))
  | notFound {t : T} {field : Field} (hquiet : (s.thread t).Quiet)
      (hcached : s.cached field = none) : Effect s (.get t field) (s.goto t (.empty field))
  | clearedKey {t : T} {signals : ℕ} {w : Write} (hthread : s.thread t = .writing (signals + 1) w) :
      Effect s (.next t) ((s.goto t (.clearing signals w)).assign .brokerKey none)
  | clearedCert {t : T} {signals : ℕ} {w : Write} (hthread : s.thread t = .clearing signals w) :
      Effect s (.next t) ((s.goto t (.writing signals w)).assign .brokerCert none)
  | wrote {t : T} {w : Write} (hthread : s.thread t = .writing 0 w) :
      Effect s (.next t) { s.goto t .idle with rows := w.apply s.rows }
  | tooMany {t : T} {field : Field} {e : Exc} (hthread : s.thread t = .empty field)
      (hcount : checkCount s.rows = .error e) :
      Effect s (.next t) (s.goto t (.returned field (.error e)))
  | counted {t : T} {field : Field} (hthread : s.thread t = .empty field)
      (hcount : checkCount s.rows = .ok ()) : Effect s (.next t) (s.goto t (.counted field))
  | loadFailed {t : T} {field : Field} {e : Exc} (hthread : s.thread t = .counted field)
      (hload : (superGet s.rows).bind (field.load C) = .error e) :
      Effect s (.next t) (s.goto t (.returned field (.error e)))
  | loaded {t : T} {field : Field} {value : field.Value C} (hthread : s.thread t = .counted field)
      (hload : (superGet s.rows).bind (field.load C) = .ok value) :
      Effect s (.next t) (s.goto t (.loaded field value))
  | stored {t : T} {field : Field} {value : field.Value C}
      (hthread : s.thread t = .loaded field value) :
      Effect s (.next t) ((s.goto t (.returning field)).assign field (some value))
  | returned {t : T} {field : Field} (hthread : s.thread t = .returning field) :
      Effect s (.next t) (s.goto t (.returned field (.ok (s.cached field))))

variable {s s' : State C T}

/-- Only a quiet thread starts an operation. -/
lemma start_eq_some {t : T} {phase : Phase C} :
    start t phase s = some s' ↔ (s.thread t).Quiet ∧ s' = s.goto t phase := by
  unfold start
  split
  · rename_i hthread
    rw [hthread, Option.some.injEq, eq_comm]
    exact (and_iff_right trivial).symm
  · rename_i hthread
    rw [hthread, Option.some.injEq, eq_comm]
    exact (and_iff_right trivial).symm
  · rename_i hidle hreturned
    refine iff_of_false (by simp) fun h => ?_
    rcases hthread : s.thread t with _ | _ | _ | _ | _ | _ | _ | ⟨field, answer⟩
    · exact hidle hthread
    · exact (hthread ▸ h.1 : Phase.Quiet (.writing _ _))
    · exact (hthread ▸ h.1 : Phase.Quiet (.clearing _ _))
    · exact (hthread ▸ h.1 : Phase.Quiet (.empty _))
    · exact (hthread ▸ h.1 : Phase.Quiet (.counted _))
    · exact (hthread ▸ h.1 : Phase.Quiet (.loaded _ _))
    · exact (hthread ▸ h.1 : Phase.Quiet (.returning _))
    · exact hreturned field answer hthread

/-- Every step has one of the effects. -/
lemma step_effect {a : Action T} (h : step a s = some s') : Effect s a s' := by
  cases a with
  | begin t w =>
    obtain ⟨hquiet, rfl⟩ := start_eq_some.mp h
    exact .began hquiet
  | get t field =>
    obtain ⟨hquiet, rfl⟩ := start_eq_some.mp h
    by_cases hcached : s.cached field = none
    · rw [if_pos (by rw [hcached]; rfl)]
      exact .notFound hquiet hcached
    · rw [if_neg (by simpa using hcached)]
      exact .found hquiet hcached
  | next t =>
    rw [step] at h
    split at h
    · rename_i hthread
      obtain rfl := Option.some.inj h
      exact .clearedKey hthread
    · rename_i hthread
      obtain rfl := Option.some.inj h
      exact .clearedCert hthread
    · rename_i hthread
      obtain rfl := Option.some.inj h
      exact .wrote hthread
    · rename_i hthread
      split at h
      · rename_i hcount
        obtain rfl := Option.some.inj h
        exact .tooMany hthread hcount
      · rename_i hcount
        obtain rfl := Option.some.inj h
        exact .counted hthread hcount
    · rename_i hthread
      split at h
      · rename_i hload
        obtain rfl := Option.some.inj h
        exact .loadFailed hthread hload
      · rename_i hload
        obtain rfl := Option.some.inj h
        exact .loaded hthread hload
    · rename_i hthread
      obtain rfl := Option.some.inj h
      exact .stored hthread
    · rename_i hthread
      obtain rfl := Option.some.inj h
      exact .returned hthread
    · simp at h

/-! ## What is held -/

/-- A value is held: a field has it, or a get has loaded it and is about to store it. -/
def Held (s : State C T) (field : Field) (value : field.Value C) : Prop :=
  s.cached field = some value ∨ ∃ t, s.thread t = .loaded field value

/-- What is held is what the database has. -/
def Coherent (s : State C T) : Prop :=
  ∀ field value, Held s field value → field.current C s.rows = .ok value

/-- A change of the rows leaves everything that is held right. -/
def Harmless (a : Action T) (s : State C T) : Prop :=
  ∀ t w, a = .next t → s.thread t = .writing 0 w →
    ∀ field value, Held s field value → field.current C (w.apply s.rows) = .ok value

/-- What a thread has loaded is what the database has. -/
def Phase.Right (rows : Rows) : Phase C → Prop
  | .loaded field value => field.current C rows = .ok value
  | _ => True

/-- The change of the rows that an action makes. -/
def Action.write? (s : State C T) : Action T → Option Write
  | .next t =>
    match s.thread t with
    | .writing 0 w => some w
    | _ => none
  | _ => none

omit [DecidableEq T] in
/-- Only a thread at the end of its write changes the rows. -/
lemma Action.write?_eq_some {a : Action T} {w : Write} :
    a.write? s = some w ↔ ∃ t, a = .next t ∧ s.thread t = .writing 0 w := by
  cases a with
  | begin => simp [write?]
  | get => simp [write?]
  | next t =>
    rw [write?]
    split
    · rename_i hthread
      simp [hthread]
    · rename_i hnot
      refine iff_of_false (by simp) ?_
      rintro ⟨_, ha, ht⟩
      obtain rfl := Action.next.inj ha
      exact hnot w ht

omit [DecidableEq T] in
/-- Whether an action is harmless can be read off the fields and the threads. -/
lemma harmless_iff {a : Action T} :
    Harmless a s ↔ ∀ w ∈ a.write? s,
      (∀ field, ∀ value ∈ s.cached field, field.current C (w.apply s.rows) = .ok value) ∧
      ∀ t, (s.thread t).Right (w.apply s.rows) := by
  constructor
  · intro h w hw
    obtain ⟨t, ha, ht⟩ := Action.write?_eq_some.mp hw
    have hheld := h t w ha ht
    refine ⟨fun field value hcached => hheld field value (.inl hcached), fun t' => ?_⟩
    rcases ht' : s.thread t' with _ | _ | _ | _ | _ | ⟨field, value⟩ | _ | _
    case loaded => exact hheld field value (.inr ⟨t', ht'⟩)
    all_goals trivial
  · rintro h t w ha ht field value (hcached | ⟨t', ht'⟩)
    · exact (h w (Action.write?_eq_some.mpr ⟨t, ha, ht⟩)).1 field value hcached
    · have hright := (h w (Action.write?_eq_some.mpr ⟨t, ha, ht⟩)).2 t'
      rw [ht'] at hright
      exact hright

section Decidable

variable [DecidableEq C.Key] [DecidableEq C.Cert]

instance : (field : Field) → DecidableEq (field.Value C)
  | .brokerKey => inferInstanceAs (DecidableEq C.Key)
  | .brokerCert => inferInstanceAs (DecidableEq C.Cert)

instance (rows : Rows) : (phase : Phase C) → Decidable (phase.Right rows)
  | .loaded field value => inferInstanceAs (Decidable (field.current C rows = .ok value))
  | .idle => isTrue trivial
  | .writing _ _ => isTrue trivial
  | .clearing _ _ => isTrue trivial
  | .empty _ => isTrue trivial
  | .counted _ => isTrue trivial
  | .returning _ => isTrue trivial
  | .returned _ _ => isTrue trivial

instance [Fintype T] (a : Action T) (s : State C T) : Decidable (Harmless a s) :=
  decidable_of_iff _ harmless_iff.symm

end Decidable

/-- What is held when a thread goes on. -/
lemma held_goto {t : T} {phase : Phase C} {field : Field} {value : field.Value C}
    (h : Held (s.goto t phase) field value) : Held s field value ∨ phase = .loaded field value := by
  rcases h with hcached | ⟨t', ht'⟩
  · exact .inl (.inl hcached)
  · have ht' : Function.update s.thread t phase t' = .loaded field value := ht'
    by_cases heq : t' = t
    · rw [heq, Function.update_self] at ht'
      exact .inr ht'
    · rw [Function.update_of_ne heq] at ht'
      exact .inl (.inr ⟨t', ht'⟩)

omit [DecidableEq T] in
/-- What is held when a field is assigned. -/
lemma held_assign {field' : Field} {value' : Option (field'.Value C)} {field : Field}
    {value : field.Value C} (h : Held (s.assign field' value') field value) :
    Held s field value ∨ ∃ heq : field' = field, heq ▸ value' = some value := by
  rcases h with hcached | hloaded
  · have hcached : Function.update s.cached field' value' field = some value := hcached
    by_cases heq : field = field'
    · subst heq
      rw [Function.update_self] at hcached
      exact .inr ⟨rfl, hcached⟩
    · rw [Function.update_of_ne heq] at hcached
      exact .inl (.inl hcached)
  · exact .inl (.inr hloaded)

omit [DecidableEq T] in
/-- Clearing a field. -/
lemma held_clear {field' field : Field} {value : field.Value C}
    (h : Held (s.assign field' none) field value) : Held s field value := by
  rcases held_assign h with h | ⟨rfl, hnone⟩
  · exact h
  · simp at hnone

/-- What is loaded is what the database has. -/
lemma current_of_load {rows : Rows} {field : Field} {value : field.Value C}
    (h : (superGet rows).bind (field.load C) = .ok value) : field.current C rows = .ok value := by
  rw [current_eq]
  rcases rows with _ | ⟨row, _ | ⟨row', rows⟩⟩
  · simp [superGet, Except.bind] at h
  · exact h
  · simp [superGet, Except.bind] at h

/-- A thread that goes on without a value in hand leaves what is held right. -/
lemma Coherent.goto (h : Coherent s) {t : T} {phase : Phase C}
    (hphase : ∀ field value, phase = .loaded field value → field.current C s.rows = .ok value) :
    Coherent (s.goto t phase) := by
  intro field value hheld
  rcases held_goto hheld with hheld | heq
  · exact h field value hheld
  · exact hphase field value heq

omit [DecidableEq T] in
/-- Clearing a field leaves what is held right. -/
lemma Coherent.clear (h : Coherent s) (field : Field) : Coherent (s.assign field none) :=
  fun field' value hheld => h field' value (held_clear hheld)

/-- **One step.**  A harmless step leaves what is held right. -/
lemma Coherent.step (h : Coherent s) {a : Action T} (hharmless : Harmless a s)
    (ha : Effect s a s') : Coherent s' := by
  cases ha with
  | began => exact h.goto (by simp)
  | found => exact h.goto (by simp)
  | notFound => exact h.goto (by simp)
  | clearedKey => exact (h.goto (by simp)).clear .brokerKey
  | clearedCert => exact (h.goto (by simp)).clear .brokerCert
  | @wrote t w hthread =>
    intro field value hheld
    have hgoto : Held (s.goto t .idle) field value := hheld
    rcases held_goto hgoto with hheld | heq
    · exact hharmless t w rfl hthread field value hheld
    · simp at heq
  | tooMany => exact h.goto (by simp)
  | counted => exact h.goto (by simp)
  | loadFailed => exact h.goto (by simp)
  | @loaded t field value hthread hload =>
    refine h.goto fun field' value' heq => ?_
    obtain ⟨rfl, hvalue⟩ := Phase.loaded.inj heq
    rw [← eq_of_heq hvalue]
    exact current_of_load hload
  | @stored t field value hthread =>
    intro field' value' hheld
    rcases held_assign hheld with hheld | ⟨rfl, hvalue⟩
    · exact (h.goto (by simp)) field' value' hheld
    · -- the value stored is the one that the thread has loaded
      exact Option.some.inj hvalue ▸ h field value (.inr ⟨t, hthread⟩)
  | returned => exact h.goto (by simp)

/-- A change of the rows does harm exactly when it makes wrong what is held. -/
lemma Coherent.step_iff (h : Coherent s) {a : Action T} (ha : Effect s a s') :
    Coherent s' ↔ Harmless a s := by
  refine ⟨fun h' t w heq hthread field value hheld => ?_, fun hharmless => h.step hharmless ha⟩
  subst heq
  cases ha with
  | @wrote _ w' hthread' =>
    obtain ⟨-, rfl⟩ := Phase.writing.inj (hthread.symm.trans hthread')
    refine h' field value ?_
    rcases hheld with hcached | ⟨t', ht'⟩
    · exact .inl hcached
    · have hne : t' ≠ t := by
        rintro rfl
        exact absurd (hthread.symm.trans ht') (by simp)
      exact .inr ⟨t', (Function.update_of_ne hne ..).trans ht'⟩
  | clearedKey hthread' => exact absurd (hthread.symm.trans hthread') (by simp)
  | clearedCert hthread' => exact absurd (hthread.symm.trans hthread') (by simp)
  | tooMany hthread' => exact absurd (hthread.symm.trans hthread') (by simp)
  | counted hthread' => exact absurd (hthread.symm.trans hthread') (by simp)
  | loadFailed hthread' => exact absurd (hthread.symm.trans hthread') (by simp)
  | loaded hthread' => exact absurd (hthread.symm.trans hthread') (by simp)
  | stored hthread' => exact absurd (hthread.symm.trans hthread') (by simp)
  | returned hthread' => exact absurd (hthread.symm.trans hthread') (by simp)

omit [DecidableEq T] in
/-- At the start nothing is held. -/
lemma coherent_init (rows : Rows) : Coherent (init T rows : State C T) := by
  rintro field value (hcached | ⟨t, ht⟩)
  · simp [init] at hcached
  · simp [init] at ht

/-- **Runs.**  What is held is right after every run of harmless steps. -/
lemma run_coherent {rows : Rows} {actions : List (Action T)}
    (h : Guarded.run step actions (init T rows) = some s)
    (hharmless : Guarded.EachStep step Harmless actions (init T rows : State C T)) : Coherent s :=
  Guarded.run_induction_of_eachStep Coherent (coherent_init rows)
    (fun _ _ _ ht hstep ha => ht.step hstep (step_effect ha)) hharmless h

/-! ## A get without other threads -/

@[simp] lemma thread_goto (t : T) (phase : Phase C) : (s.goto t phase).thread t = phase :=
  Function.update_self ..

omit [DecidableEq T] in
@[simp] lemma cached_assign (field : Field) (value : Option (field.Value C)) :
    (s.assign field value).cached field = value :=
  Function.update_self ..

/-- The thread goes on alone until its get returns the answer. -/
def Completes (s : State C T) (t : T) (field : Field)
    (answer : Except Exc (Option (field.Value C))) : Prop :=
  ∃ n s', Guarded.run step (List.replicate n (.next t)) s = some s' ∧
    s'.thread t = .returned field answer

/-- The thread calls the getter, and goes on alone until the getter returns the answer. -/
def Answers (s : State C T) (t : T) (field : Field)
    (answer : Except Exc (Option (field.Value C))) : Prop :=
  ∃ s', step (.get t field) s = some s' ∧ Completes s' t field answer

/-- A get that has returned. -/
lemma completes_returned {t : T} {field : Field} {answer : Except Exc (Option (field.Value C))}
    (h : s.thread t = .returned field answer) : Completes s t field answer :=
  ⟨0, s, rfl, h⟩

/-- A get that goes on. -/
lemma Completes.of_next {t : T} {field : Field} {answer : Except Exc (Option (field.Value C))}
    (hnext : step (.next t) s = some s') (h : Completes s' t field answer) :
    Completes s t field answer := by
  obtain ⟨n, s'', hrun, hreturned⟩ := h
  exact ⟨n + 1, s'', by rw [List.replicate_succ, Guarded.run_cons hnext, hrun], hreturned⟩

/-- A get that is about to return what the field has. -/
lemma completes_returning {t : T} {field : Field} (h : s.thread t = .returning field) :
    Completes s t field (.ok (s.cached field)) := by
  have hnext : step (.next t) s = some (s.goto t (.returned field (.ok (s.cached field)))) := by
    rw [step, h]
  exact (completes_returned (thread_goto ..)).of_next hnext

/-- A get that has loaded a value. -/
lemma completes_loaded {t : T} {field : Field} {value : field.Value C}
    (h : s.thread t = .loaded field value) : Completes s t field (.ok (some value)) := by
  let s' := (s.goto t (.returning field)).assign field (some value)
  have hnext : step (.next t) s = some s' := by
    rw [step, h]
  have hreturning := completes_returning (s := s') (t := t) (thread_goto ..)
  rw [cached_assign] at hreturning
  exact hreturning.of_next hnext

/-- A get that has checked the number of rows. -/
lemma completes_counted {t : T} {field : Field} (h : s.thread t = .counted field) :
    Completes s t field (((superGet s.rows).bind (field.load C)).map some) := by
  rcases hload : (superGet s.rows).bind (field.load C) with e | value
  · have hnext : step (.next t) s = some (s.goto t (.returned field (.error e))) := by
      rw [step, h]
      dsimp only
      rw [hload]
    exact (completes_returned (thread_goto ..)).of_next hnext
  · have hnext : step (.next t) s = some (s.goto t (.loaded field value)) := by
      rw [step, h]
      dsimp only
      rw [hload]
    exact (completes_loaded (thread_goto ..)).of_next hnext

/-- A get that has found the field empty. -/
lemma completes_empty {t : T} {field : Field} (h : s.thread t = .empty field) :
    Completes s t field ((field.current C s.rows).map some) := by
  rw [current_eq]
  rcases hcount : checkCount s.rows with e | _
  · have hnext : step (.next t) s = some (s.goto t (.returned field (.error e))) := by
      rw [step, h]
      dsimp only
      rw [hcount]
    exact (completes_returned (thread_goto ..)).of_next hnext
  · have hnext : step (.next t) s = some (s.goto t (.counted field)) := by
      rw [step, h]
      dsimp only
      rw [hcount]
    exact (completes_counted (s := s.goto t (.counted field)) (thread_goto ..)).of_next hnext

/-- A thread has only one way to go on, so its get returns only one answer. -/
lemma Completes.unique {t : T} {field : Field}
    {answer answer' : Except Exc (Option (field.Value C))} (h : Completes s t field answer)
    (h' : Completes s t field answer') : answer = answer' := by
  obtain ⟨n, u, hrun, hu⟩ := h
  obtain ⟨n', u', hrun', hu'⟩ := h'
  have hstuck : ∀ {s : State C T} {answer}, s.thread t = .returned field answer →
      ∀ n u, Guarded.run step (List.replicate (n + 1) (.next t)) s ≠ some u := by
    intro s answer hs n u
    have hnext : step (.next t) s = none := by rw [step, hs]
    rw [List.replicate_succ, Guarded.run, hnext]
    simp
  induction n generalizing s n' with
  | zero =>
    obtain rfl := Option.some.inj hrun
    cases n' with
    | zero =>
      obtain rfl := Option.some.inj hrun'
      exact eq_of_heq (Phase.returned.inj (hu.symm.trans hu')).2
    | succ n' => exact absurd hrun' (hstuck hu n' u')
  | succ n ih =>
    cases n' with
    | zero =>
      obtain rfl := Option.some.inj hrun'
      exact absurd hrun (hstuck hu' n u)
    | succ n' =>
      rw [List.replicate_succ, Guarded.run, Option.bind_eq_some_iff] at hrun hrun'
      obtain ⟨m, hm, hrun⟩ := hrun
      obtain ⟨m', hm', hrun'⟩ := hrun'
      obtain rfl := Option.some.inj (hm.symm.trans hm')
      exact ih hrun n' hrun'

/-- A get has only one answer. -/
lemma Answers.unique {t : T} {field : Field} {answer answer' : Except Exc (Option (field.Value C))}
    (h : Answers s t field answer) (h' : Answers s t field answer') : answer = answer' := by
  obtain ⟨u, hget, hcompletes⟩ := h
  obtain ⟨u', hget', hcompletes'⟩ := h'
  obtain rfl := Option.some.inj (hget.symm.trans hget')
  exact hcompletes.unique hcompletes'

/-- The get of a thread that runs alone answers with what it finds in the field. -/
lemma answers_of_cached {t : T} (hquiet : (s.thread t).Quiet) {field : Field}
    {value : field.Value C} (hcached : s.cached field = some value) :
    Answers s t field (.ok (some value)) := by
  refine ⟨s.goto t (.returning field), ?_, ?_⟩
  · rw [step, hcached]
    exact start_eq_some.mpr ⟨hquiet, rfl⟩
  · have hfield : (s.goto t (.returning field)).cached field = some value := hcached
    rw [← hfield]
    exact completes_returning (thread_goto ..)

/-- The get of a thread that runs alone answers with what the database has. -/
lemma answers_of_coherent (h : Coherent s) {t : T} (hquiet : (s.thread t).Quiet) (field : Field) :
    Answers s t field ((field.current C s.rows).map some) := by
  rcases hcached : s.cached field with _ | value
  · refine ⟨s.goto t (.empty field), ?_, completes_empty (s := s.goto t (.empty field))
      (thread_goto ..)⟩
    rw [step, hcached]
    exact start_eq_some.mpr ⟨hquiet, rfl⟩
  · rw [h field value (.inl hcached)]
    exact answers_of_cached hquiet hcached

/-! ## One operation at a time -/

/-- The thread of an action. -/
def Action.thread : Action T → T
  | .begin t _ => t
  | .get t _ => t
  | .next t => t

/-- No other thread is in the middle of an operation. -/
def Alone (a : Action T) (s : State C T) : Prop := ∀ t, t ≠ a.thread → (s.thread t).Quiet

/-- While a write has sent a signal and nothing else runs, the fields are empty. -/
structure Cleared (s : State C T) : Prop where
  coherent : Coherent s
  clearing : ∀ t signals w, s.thread t = .clearing signals w → s.cached .brokerKey = none
  writing : ∀ t signals w, s.thread t = .writing signals w →
    signals = w.signals ∨ ∀ field, s.cached field = none

/-- A write of a thread that is alone is harmless. -/
lemma Cleared.harmless (h : Cleared s) {a : Action T} (halone : Alone a s) : Harmless a s := by
  intro t w ha hthread field value hheld
  subst ha
  rcases h.writing t 0 w hthread with hsignals | hcached
  · -- without an instance nothing is deleted
    cases w with
    | save => simp [Write.signals] at hsignals
    | delete pks =>
      obtain rfl : pks = [] := List.length_eq_zero_iff.mp hsignals.symm
      have hrows : (Write.delete []).apply s.rows = s.rows := by simp [Write.apply]
      rw [hrows]
      exact h.coherent field value hheld
  · rcases hheld with hfield | ⟨t', ht'⟩
    · exact absurd ((hcached field).symm.trans hfield) (by simp)
    · by_cases heq : t' = t
      · rw [heq] at ht'
        exact absurd (hthread.symm.trans ht') (by simp)
      · exact absurd (halone t' heq) (by rw [ht']; exact id)

/-- A step of a thread that is alone: only its own phase matters. -/
lemma Cleared.of_alone (h : Coherent s') {a : Action T} (halone : Alone a s) {phase : Phase C}
    (hthread : s'.thread = Function.update s.thread a.thread phase)
    (hclearing : ∀ signals w, phase = .clearing signals w → s'.cached .brokerKey = none)
    (hwriting : ∀ signals w, phase = .writing signals w →
      signals = w.signals ∨ ∀ field, s'.cached field = none) : Cleared s' := by
  have hphase : ∀ t, s'.thread t = phase ∨ (s'.thread t).Quiet := by
    intro t
    rw [hthread]
    by_cases heq : t = a.thread
    · rw [heq, Function.update_self]
      exact .inl rfl
    · rw [Function.update_of_ne heq]
      exact .inr (halone t heq)
  refine ⟨h, fun t signals w ht => ?_, fun t signals w ht => ?_⟩
  · rcases hphase t with heq | hquiet
    · exact hclearing signals w (heq.symm.trans ht)
    · exact absurd hquiet (by rw [ht]; exact id)
  · rcases hphase t with heq | hquiet
    · exact hwriting signals w (heq.symm.trans ht)
    · exact absurd hquiet (by rw [ht]; exact id)

/-- One step of a thread that is alone. -/
lemma Cleared.step (h : Cleared s) {a : Action T} (halone : Alone a s) (ha : Effect s a s') :
    Cleared s' := by
  have hcoherent := h.coherent.step (h.harmless halone) ha
  cases ha with
  | began =>
    refine .of_alone hcoherent halone rfl (by simp) fun signals w heq => ?_
    obtain ⟨rfl, rfl⟩ := Phase.writing.inj heq
    exact .inl rfl
  | clearedKey =>
    exact .of_alone hcoherent halone rfl (fun _ _ _ => cached_assign ..) (by simp)
  | @clearedCert t signals w hthread =>
    refine .of_alone hcoherent halone rfl (by simp) fun _ _ _ => .inr fun field => ?_
    cases field with
    | brokerKey => exact h.clearing t signals w hthread
    | brokerCert => exact cached_assign ..
  | _ => exact .of_alone hcoherent halone rfl (by simp) (by simp)

/-- When no two operations overlap, every step is harmless. -/
lemma harmless_of_alone {rows : Rows} {actions : List (Action T)}
    (halone : Guarded.EachStep step Alone actions (init T rows : State C T)) :
    Guarded.EachStep step Harmless actions (init T rows : State C T) := by
  intro pre a post t hsplit hrun
  have hpre : Guarded.EachStep step Alone pre (init T rows : State C T) :=
    fun pre' b post' t' hsplit' => halone pre' b (post' ++ a :: post) t' (by simp [hsplit, hsplit'])
  have hinit : Cleared (init T rows : State C T) :=
    ⟨coherent_init rows, by simp [init], by simp [init]⟩
  have hcleared : Cleared t :=
    Guarded.run_induction_of_eachStep Cleared hinit
      (fun _ _ _ ht hstep hnext => ht.step hstep (step_effect hnext)) hpre hrun
  exact hcleared.harmless (halone pre a post t hsplit hrun)

/-- **One operation at a time.**  When no two operations overlap, what is held stays right. -/
theorem run_coherent_of_alone {rows : Rows} {actions : List (Action T)}
    (h : Guarded.run step actions (init T rows) = some s)
    (halone : Guarded.EachStep step Alone actions (init T rows : State C T)) : Coherent s :=
  run_coherent h (harmless_of_alone halone)

/-! ## Runs -/

/-- What the database has when it has one broker. -/
lemma current_singleton (field : Field) (pk : ℕ) (broker : Broker) :
    field.current C [(pk, broker)] = field.load C broker := by
  rw [current_eq]
  rfl

/-- The database has nothing for a field when it has no broker or more than one. -/
lemma current_of_length_ne_one {rows : Rows} (h : rows.length ≠ 1) (field : Field) :
    ∃ e, field.current C rows = .error e := by
  rw [current_eq]
  rcases rows with _ | ⟨row, _ | ⟨row', rows⟩⟩
  · exact ⟨_, rfl⟩
  · exact absurd rfl h
  · have hcount : checkCount (row :: row' :: rows) = .error
        (.runtimeError "only one broker allowed (creating one but one already exists)") :=
      if_pos (by simp)
    rw [hcount]
    exact ⟨_, rfl⟩

/-- **The cache is coherent.**  After every run in which each change of the rows leaves right what
is held, whenever no write is in progress and no get is under way, a get answers with the key or the
certificate of the single broker in the database, and fails if there is none or more than one. -/
theorem run_answers {rows : Rows} {actions : List (Action T)}
    (h : Guarded.run step actions (init T rows) = some s)
    (hharmless : Guarded.EachStep step Harmless actions (init T rows : State C T))
    (hquiet : ∀ t, (s.thread t).Quiet) (t : T) (field : Field) :
    (∀ pk broker, s.rows = [(pk, broker)] → Answers s t field ((field.load C broker).map some)) ∧
      (s.rows.length ≠ 1 → ∃ e, Answers s t field (.error e)) := by
  have hanswers := answers_of_coherent (run_coherent h hharmless) (hquiet t) field
  refine ⟨fun pk broker hrows => ?_, fun hlength => ?_⟩
  · rwa [hrows, current_singleton] at hanswers
  · obtain ⟨e, he⟩ := current_of_length_ne_one (C := C) hlength field
    rw [he] at hanswers
    exact ⟨e, hanswers⟩

/-- The row of a broker, and the one that replaces it. -/
def oldBroker : Broker := { certificatePem := "a", keyPem := "a" }

@[inherit_doc oldBroker]
def newBroker : Broker := { certificatePem := "b", keyPem := "b" }

deriving instance DecidableEq for Broker

instance : DecidableEq Crypto.transparent.Key := inferInstanceAs (DecidableEq Char)

instance : DecidableEq Crypto.transparent.Cert := inferInstanceAs (DecidableEq Char)

/-- The row with a new certificate for the same key. -/
def renewedBroker : Broker := { certificatePem := "b", keyPem := "a" }

/-- Thread 0, which saves the row. -/
def saver : Fin 2 := ⟨0, Nat.zero_lt_two⟩

/-- Thread 1, which gets the key. -/
def getter : Fin 2 := ⟨1, Nat.one_lt_two⟩

/-- Thread 1 has loaded the key when thread 0 begins to save the row with the new certificate, and
stores it between the signal and the change of the rows. -/
def getWhileRenewing : List (Action (Fin 2)) :=
  [.get getter .brokerKey, .next getter, .next getter] ++
    [.begin saver (.save 1 renewedBroker), .next saver, .next saver] ++
    [.next getter, .next saver, .next getter]

/-- A get and a save that overlap.  The key stored in between is still right after the change. -/
theorem run_answers_getWhileRenewing :
    ∃ s : State Crypto.transparent (Fin 2),
      Guarded.run step getWhileRenewing (init (Fin 2) [(1, oldBroker)]) = some s ∧
      Answers s saver .brokerKey
        ((Field.load Crypto.transparent .brokerKey renewedBroker).map some) ∧
      Answers s getter .brokerCert
        ((Field.load Crypto.transparent .brokerCert renewedBroker).map some) := by
  have hrun : (Guarded.run step getWhileRenewing
      (init (Fin 2) [(1, oldBroker)] : State Crypto.transparent (Fin 2))).map (fun s =>
        (s.rows, decide (∀ t, (s.thread t).Quiet))) = some ([(1, renewedBroker)], true) := by
    decide +kernel
  have hharmless : Guarded.EachStep step Harmless getWhileRenewing
      (init (Fin 2) [(1, oldBroker)] : State Crypto.transparent (Fin 2)) := by
    decide +kernel
  obtain ⟨s, hs, hvalue⟩ := Option.map_eq_some_iff.mp hrun
  obtain ⟨hrows, hquiet⟩ := Prod.mk.inj hvalue
  have hanswers := run_answers hs hharmless (of_decide_eq_true hquiet)
  exact ⟨s, hs, (hanswers saver .brokerKey).1 1 renewedBroker hrows,
    (hanswers getter .brokerCert).1 1 renewedBroker hrows⟩

/-! ## A get between the signal and the change -/

/-- Thread 0 saves the new row.  Between its signal and its change of the rows, thread 1 gets the
key. -/
def getWhileSaving : List (Action (Fin 2)) :=
  [.begin saver (.save 1 newBroker), .next saver, .next saver] ++
    [.get getter .brokerKey, .next getter, .next getter, .next getter, .next getter] ++
    [.next saver]

/-- **A stale key.**  When the row is saved and the get has returned, the database has the new row,
and a get answers with the old key. -/
theorem not_run_answers :
    ∃ s : State Crypto.transparent (Fin 2),
      Guarded.run step getWhileSaving (init (Fin 2) [(1, oldBroker)]) = some s ∧
      (∀ t, (s.thread t).Quiet) ∧ s.rows = [(1, newBroker)] ∧
      ¬Answers s 1 .brokerKey ((Field.load Crypto.transparent .brokerKey newBroker).map some) := by
  have hrun : (Guarded.run step getWhileSaving
      (init (Fin 2) [(1, oldBroker)] : State Crypto.transparent (Fin 2))).map (fun s =>
        (s.rows, (s.cached .brokerKey : Option Char), decide (s.thread 0).Quiet,
          decide (s.thread 1).Quiet)) =
      some ([(1, newBroker)], some 'a', true, true) := by
    decide +kernel
  obtain ⟨s, hs, hvalue⟩ := Option.map_eq_some_iff.mp hrun
  obtain ⟨hrows, hvalue⟩ := Prod.mk.inj hvalue
  obtain ⟨hcached, hvalue⟩ := Prod.mk.inj hvalue
  obtain ⟨h0, h1⟩ := Prod.mk.inj hvalue
  refine ⟨s, hs, ?_, hrows, fun hanswers => ?_⟩
  · intro t
    fin_cases t
    · exact of_decide_eq_true h0
    · exact of_decide_eq_true h1
  · have h1 := of_decide_eq_true h1
    have hstale : Answers s 1 .brokerKey (.ok (some 'a')) := answers_of_cached h1 hcached
    have hstale := hstale.unique hanswers
    have hload : Field.load Crypto.transparent .brokerKey newBroker = .ok 'b' := rfl
    rw [hload] at hstale
    exact absurd (Option.some.inj (Except.ok.inj hstale)) (show ('a' : Char) ≠ 'b' by decide)

end Esdx.BrokerCache
