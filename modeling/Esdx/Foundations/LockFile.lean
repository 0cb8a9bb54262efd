import Esdx.Foundations.Run

/-!
# Calls that change a file under a lock file

Any number of processes change one file.  A call creates the lock file, reads the file, writes it,
and removes the lock file; if the lock file is there already, it sleeps and tries again, and gives
up after some attempts.  The steps of different processes come in any order.

At most one call holds the lock, so the calls that have written the file have done so one after
another, in the order in which they took the lock.
-/

namespace LockFile

variable {π ι φ ε : Type}

/-! ## Processes -/

/-- What the calls do: the new content of the file, the number of attempts to take the lock, and
the errors around the lock. -/
structure Work (ι φ ε : Type) where
  apply : ι → φ → Except ε φ
  attempts : ι → ℤ
  unbound : ε
  exhausted : ε
  lockMissing : ε

/-- Where a process is.  In the loop that takes the lock, `next` is the next value of the loop
variable and `counter` the variable itself, which has no value before the first iteration. -/
inductive Stage (ι φ ε : Type)
  | idle
  | trying (i : ι) (next : ℕ) (counter : Option ℤ)
  | sleeping (i : ι) (next : ℕ) (counter : Option ℤ)
  | locked (i : ι)
  | loaded (i : ι) (content : φ)
  | leaving (i : ι) (result : Except ε Unit)

/-- The call of a process between acquiring and releasing the lock. -/
def Stage.inside? : Stage ι φ ε → Option ι
  | .locked i => some i
  | .loaded i _ => some i
  | .leaving i _ => some i
  | _ => none

/-- The outcome of a call that has only the lock to release. -/
def Stage.result? : Stage ι φ ε → Option (ι × Except ε Unit)
  | .leaving i r => some (i, r)
  | _ => none

/-- The lock file, the file, and the processes with the calls that have returned or raised.  A call
is known by its process and its number there; `acquired` has the calls that took the lock, in
order. -/
structure State (π ι φ ε : Type) where
  lockFile : Bool := false
  file : φ
  stage : π → Stage ι φ ε := fun _ => .idle
  results : π → List (ι × Except ε Unit) := fun _ => []
  acquired : List (π × ℕ) := []

/-- A process starts a call, or does the next step of its call. -/
inductive Action (π ι : Type)
  | call (p : π) (i : ι)
  | step (p : π)

/-- The process that acts. -/
def Action.process : Action π ι → π
  | .call p _ => p
  | .step p => p

namespace State

variable [DecidableEq π] (s : State π ι φ ε)

/-- The process goes to another stage. -/
def goto (p : π) (stage : Stage ι φ ε) : State π ι φ ε :=
  { s with stage := Function.update s.stage p stage }

/-- The call of the process returns or raises. -/
def finish (p : π) (i : ι) (r : Except ε Unit) : State π ι φ ε :=
  { s.goto p .idle with results := Function.update s.results p (s.results p ++ [(i, r)]) }

/-- The process goes into the section under the lock. -/
def enter (p : π) (i : ι) : State π ι φ ε :=
  { s.goto p (.locked i) with acquired := s.acquired ++ [(p, (s.results p).length)] }

end State

variable [DecidableEq π] (W : Work ι φ ε)

/-- One step of one process. -/
def step : Action π ι → State π ι φ ε → State π ι φ ε
  | .call p i, s =>
    match s.stage p with
    | .idle => s.goto p (.trying i 0 none)
    | _ => s
  | .step p, s =>
    match s.stage p with
    | .idle => s
    | .trying i next counter =>
      if next < W.attempts i then
        if s.lockFile then s.goto p (.sleeping i (next + 1) (some (next + 1)))
        else { s.enter p i with lockFile := true }
      else
        match counter with
        | none => s.finish p i (.error W.unbound)
        -- without this error the call would go on without having created the lock file
        | some n => if W.attempts i ≤ n then s.finish p i (.error W.exhausted) else s.enter p i
    | .sleeping i next counter => s.goto p (.trying i next counter)
    | .locked i => s.goto p (.loaded i s.file)
    | .loaded i content =>
      match W.apply i content with
      | .ok file => { s.goto p (.leaving i (.ok ())) with file }
      | .error e => s.goto p (.leaving i (.error e))
    | .leaving i r =>
      if s.lockFile then { s.finish p i r with lockFile := false }
      else s.finish p i (.error W.lockMissing)

/-- The state after some steps, in any order, from a state without calls. -/
def run (actions : List (Action π ι)) (file : φ) : State π ι φ ε :=
  actions.foldl (fun s a => step W a s) { file }

namespace State

variable (s : State π ι φ ε)

/-- The process is between acquiring and releasing the lock. -/
def Inside (p : π) : Prop := (s.stage p).inside?.isSome = true

/-- The outcomes of the calls of a process, in order. -/
def outcomes (p : π) : List (ι × Except ε Unit) := s.results p ++ (s.stage p).result?.toList

/-- The call, if its outcome is success. -/
def success? : Option (ι × Except ε Unit) → Option ι
  | some (i, .ok _) => some i
  | _ => none

/-- The successful calls, in the order in which they took the lock. -/
def successes : List ι := s.acquired.filterMap fun c => success? (s.outcomes c.1)[c.2]?

end State

/-! ## What a step does -/

/-- The variable of the loop has the value of the last iteration. -/
def Stage.Counts : Stage ι φ ε → Prop
  | .trying _ next counter => counter = if next = 0 then none else some (next : ℤ)
  | .sleeping _ next counter => counter = if next = 0 then none else some (next : ℤ)
  | _ => True

/-- What a step does when the lock file is there exactly while a call holds the lock. -/
inductive Effect (s : State π ι φ ε) : State π ι φ ε → Prop
  | waited {p : π} {stage : Stage ι φ ε} (hs : (s.stage p).inside? = none)
      (hinside : stage.inside? = none) (hcounts : stage.Counts) : Effect s (s.goto p stage)
  | refused {p : π} {i : ι} {e : ε} (hs : (s.stage p).inside? = none) :
      Effect s (s.finish p i (.error e))
  | entered {p : π} {i : ι} (hs : (s.stage p).inside? = none) (hlock : s.lockFile = false)
      (htried : 0 < W.attempts i) : Effect s { s.enter p i with lockFile := true }
  | read {p : π} {i : ι} (hs : s.stage p = .locked i) : Effect s (s.goto p (.loaded i s.file))
  | wrote {p : π} {i : ι} {file : φ} (hs : s.stage p = .loaded i s.file)
      (happly : W.apply i s.file = .ok file) :
      Effect s { s.goto p (.leaving i (.ok ())) with file }
  | raised {p : π} {i : ι} {e : ε} (hs : s.stage p = .loaded i s.file) :
      Effect s (s.goto p (.leaving i (.error e)))
  | released {p : π} {i : ι} {r : Except ε Unit} (hs : s.stage p = .leaving i r) :
      Effect s { s.finish p i r with lockFile := false }
  | unchanged : Effect s s

/-- At most one call holds the lock, and the lock file is there exactly while one does.  What it
has read is still the content of the file. -/
structure Exclusive (s : State π ι φ ε) : Prop where
  unique : ∀ p q, s.Inside p → s.Inside q → p = q
  lock : s.lockFile = true ↔ ∃ p, s.Inside p
  counts : ∀ p, (s.stage p).Counts
  tried : ∀ p i, (s.stage p).inside? = some i → 0 < W.attempts i
  fresh : ∀ p i content, s.stage p = .loaded i content → content = s.file

namespace Exclusive

variable {W} {s s' : State π ι φ ε}

/-- Every step has one of the effects. -/
lemma step_effect (h : Exclusive W s) (a : Action π ι) : Effect W s (step W a s) := by
  cases a with
  | call p i =>
    rw [step]
    rcases hs : s.stage p with _ | _ | _ | _ | _ | _
    · exact .waited (by rw [hs]; rfl) rfl rfl
    all_goals exact .unchanged
  | step p =>
    have hcounts := h.counts p
    rw [step]
    rcases hs : s.stage p with
      _ | ⟨i, next, counter⟩ | ⟨i, next, counter⟩ | i | ⟨i, content⟩ | ⟨i, r⟩
    · exact .unchanged
    · have hout : (s.stage p).inside? = none := by rw [hs]; rfl
      rw [hs] at hcounts
      dsimp only
      split
      · rename_i hnext
        split
        · exact .waited hout rfl rfl
        · rename_i hlock
          exact .entered hout (Bool.eq_false_of_not_eq_true hlock) (by omega)
      · rename_i hnext
        split
        · exact .refused hout
        · rename_i n
          -- the variable has the value of `next`, which is past the last iteration
          have hn : n = next := by
            change some n = _ at hcounts
            split at hcounts
            · exact absurd hcounts (by simp)
            · exact Option.some.inj hcounts
          rw [if_pos (by omega)]
          exact .refused hout
    · rw [hs] at hcounts
      exact .waited (by rw [hs]; rfl) rfl hcounts
    · exact .read hs
    · obtain rfl := h.fresh p i content hs
      dsimp only
      rcases happly : W.apply i s.file with e | file
      · exact .raised hs
      · exact .wrote hs happly
    · have hlock : s.lockFile = true := h.lock.mpr ⟨p, by rw [State.Inside, hs]; rfl⟩
      dsimp only
      rw [if_pos hlock]
      exact .released hs

/-- Another process stays where it is. -/
lemma inside_of_update {stage : Stage ι φ ε} {p q : π}
    (hstage : s'.stage = Function.update s.stage p stage) (hq : q ≠ p) :
    s'.Inside q ↔ s.Inside q := by
  rw [State.Inside, hstage, Function.update_of_ne hq]
  rfl

/-- The process that moves is inside if its new stage is. -/
lemma inside_self {stage : Stage ι φ ε} {p : π}
    (hstage : s'.stage = Function.update s.stage p stage) :
    s'.Inside p ↔ stage.inside?.isSome = true := by
  rw [State.Inside, hstage, Function.update_self]

/-- A move that neither takes nor releases the lock. -/
lemma of_move (h : Exclusive W s) {p : π} {stage : Stage ι φ ε}
    (hstage : s'.stage = Function.update s.stage p stage) (hlock : s'.lockFile = s.lockFile)
    (hinside : stage.inside? = (s.stage p).inside?) (hcounts : stage.Counts)
    (hfresh : ∀ i content, stage = .loaded i content → content = s'.file)
    (hfile : s'.file = s.file ∨ s.Inside p) : Exclusive W s' := by
  have hiff : ∀ q, s'.Inside q ↔ s.Inside q := by
    intro q
    by_cases hq : q = p
    · subst hq
      rw [inside_self hstage, hinside]
      rfl
    · exact inside_of_update hstage hq
  refine ⟨fun q q' hq hq' => h.unique q q' ((hiff q).mp hq) ((hiff q').mp hq'), ?_, fun q => ?_,
    fun q i hi => ?_, fun q i content hq => ?_⟩
  · rw [hlock, h.lock]
    exact exists_congr fun q => (hiff q).symm
  · by_cases hq : q = p
    · rwa [hq, hstage, Function.update_self]
    · rw [hstage, Function.update_of_ne hq]
      exact h.counts q
  · by_cases hq : q = p
    · rw [hq, hstage, Function.update_self, hinside] at hi
      exact h.tried p i hi
    · rw [hstage, Function.update_of_ne hq] at hi
      exact h.tried q i hi
  · by_cases hqp : q = p
    · rw [hqp, hstage, Function.update_self] at hq
      exact hfresh i content hq
    · rw [hstage, Function.update_of_ne hqp] at hq
      rcases hfile with hfile | hp
      · rw [hfile]
        exact h.fresh q i content hq
      · -- nobody else has read the file while `p` holds the lock
        exact absurd (h.unique q p (by rw [State.Inside, hq]; rfl) hp) hqp

/-- Every effect keeps the lock exclusive. -/
lemma of_effect (h : Exclusive W s) (he : Effect W s s') : Exclusive W s' := by
  cases he with
  | @waited p stage hs hinside hcounts =>
    refine h.of_move rfl rfl (hinside.trans hs.symm) hcounts (fun i content hstage => ?_) (.inl rfl)
    rw [hstage] at hinside
    exact absurd hinside (by simp [Stage.inside?])
  | @refused p i e hs =>
    exact h.of_move rfl rfl hs.symm trivial (fun _ _ hstage => nomatch hstage) (.inl rfl)
  | @entered p i hs hlock htried =>
    have hnone : ∀ q, ¬s.Inside q := fun q hq => by
      rw [h.lock.mpr ⟨q, hq⟩] at hlock
      exact Bool.noConfusion hlock
    have honly : ∀ q, ({ s.enter p i with lockFile := true } : State π ι φ ε).Inside q → q = p := by
      intro q hq
      by_contra hne
      exact hnone q ((inside_of_update rfl hne).mp hq)
    refine ⟨fun q q' hq hq' => (honly q hq).trans (honly q' hq').symm,
      ⟨fun _ => ⟨p, (inside_self rfl).mpr rfl⟩, fun _ => rfl⟩, fun q => ?_, fun q j hj => ?_,
      fun q j content hq => ?_⟩
    · change (Function.update s.stage p _ q).Counts
      by_cases hq : q = p
      · rw [hq, Function.update_self]
        trivial
      · rw [Function.update_of_ne hq]
        exact h.counts q
    · obtain rfl := honly q (by rw [State.Inside, hj]; rfl)
      change (Function.update s.stage q _ q).inside? = some j at hj
      rw [Function.update_self] at hj
      exact Option.some.inj hj ▸ htried
    · obtain rfl := honly q (by rw [State.Inside, hq]; rfl)
      change Function.update s.stage q _ q = _ at hq
      rw [Function.update_self] at hq
      exact nomatch hq
  | @read p i hs =>
    refine h.of_move rfl rfl (by rw [hs]; rfl) trivial (fun j content hstage => ?_) (.inl rfl)
    cases hstage
    rfl
  | @wrote p i file hs happly =>
    exact h.of_move rfl rfl (by rw [hs]; rfl) trivial (fun _ _ hstage => nomatch hstage)
      (.inr (by rw [State.Inside, hs]; rfl))
  | @raised p i e hs =>
    exact h.of_move rfl rfl (by rw [hs]; rfl) trivial (fun _ _ hstage => nomatch hstage) (.inl rfl)
  | @released p i r hs =>
    have hnone : ∀ q, ¬({ s.finish p i r with lockFile := false } : State π ι φ ε).Inside q := by
      intro q hq
      by_cases hqp : q = p
      · subst hqp
        exact absurd ((inside_self rfl).mp hq) (by simp [Stage.inside?])
      · exact hqp (h.unique q p ((inside_of_update rfl hqp).mp hq)
          (by rw [State.Inside, hs]; rfl))
    have hempty : ∀ q, ¬(Function.update s.stage p .idle q).inside?.isSome = true := hnone
    refine ⟨fun q _ hq _ => absurd hq (hnone q), iff_of_false (by simp) (by simpa using hnone),
      fun q => ?_, fun q j hj => ?_, fun q j content hq => ?_⟩
    · change (Function.update s.stage p _ q).Counts
      by_cases hqp : q = p
      · rw [hqp, Function.update_self]
        trivial
      · rw [Function.update_of_ne hqp]
        exact h.counts q
    · change (Function.update s.stage p _ q).inside? = some j at hj
      exact absurd (by rw [hj]; rfl) (hempty q)
    · change Function.update s.stage p _ q = .loaded j content at hq
      exact absurd (by rw [hq]; rfl) (hempty q)
  | unchanged => exact h

end Exclusive

/-! ## The order of the calls -/

/-- Do calls one after another. -/
def Work.serial (calls : List ι) (start : φ) : Except ε φ :=
  calls.foldlM (fun content i => W.apply i content) start

/-- One more call starts from the content that the others leave behind. -/
lemma Work.serial_concat {calls : List ι} {start content : φ} (i : ι)
    (h : W.serial calls start = .ok content) :
    W.serial (calls ++ [i]) start = W.apply i content := by
  rw [Work.serial] at h
  rw [Work.serial, List.foldlM_append, h]
  simp only [bind, Except.bind, List.foldlM_cons, List.foldlM_nil, pure, Except.pure]
  rcases W.apply i content with e | file <;> rfl

/-- A new outcome is the outcome of one more call. -/
lemma success?_concat (os : List (ι × Except ε Unit)) (o : ι × Except ε Unit) (n : ℕ) :
    State.success? (os ++ [o])[n]? =
      if n = os.length then State.success? (some o) else State.success? os[n]? := by
  split
  · rename_i hn
    rw [hn, List.getElem?_concat_length]
  · rename_i hn
    rcases Nat.lt_or_gt_of_ne hn with hlt | hgt
    · rw [List.getElem?_append_left hlt]
    · rw [List.getElem?_eq_none (by rw [List.length_append, List.length_singleton]; omega),
        List.getElem?_eq_none (by omega)]

/-- The calls that took the lock have done their work one after another, in the order in which they
took it, and every successful call is one of them. -/
structure Serial (start : φ) (s : State π ι φ ε) : Prop extends Exclusive W s where
  nodup : s.acquired.Nodup
  number : ∀ p n, (p, n) ∈ s.acquired →
    n < (s.results p).length ∨ s.Inside p ∧ n = (s.results p).length
  last : ∀ p, s.Inside p → ∃ l, s.acquired = l ++ [(p, (s.results p).length)]
  complete : ∀ p n i, (s.outcomes p)[n]? = some (i, .ok ()) →
    (p, n) ∈ s.acquired ∧ 0 < W.attempts i
  serial : W.serial s.successes start = .ok s.file

namespace Serial

variable {W} {start : φ} {s s' : State π ι φ ε} {p : π}

/-- Another process has no new outcome. -/
lemma outcomes_of_ne {stage : Stage ι φ ε} (hstage : s'.stage = Function.update s.stage p stage)
    {q : π} (hresults : s'.results q = s.results q) (hq : q ≠ p) :
    s'.outcomes q = s.outcomes q := by
  rw [State.outcomes, hstage, hresults, Function.update_of_ne hq]
  rfl

/-- The outcomes of the process that moves. -/
lemma outcomes_self {stage : Stage ι φ ε} (hstage : s'.stage = Function.update s.stage p stage) :
    s'.outcomes p = s'.results p ++ stage.result?.toList := by
  rw [State.outcomes, hstage, Function.update_self]

omit [DecidableEq π] in
/-- A process that has not done the work of its call has no outcome of it. -/
lemma outcomes_eq (h : (s.stage p).result? = none) : s.outcomes p = s.results p := by
  rw [State.outcomes, h]
  exact List.append_nil _

omit [DecidableEq π] in
/-- Where the outcomes do not change, the successful calls do not. -/
lemma successes_congr (houtcomes : ∀ q, s'.outcomes q = s.outcomes q)
    (hacquired : s'.acquired = s.acquired) : s'.successes = s.successes := by
  rw [State.successes, hacquired]
  exact List.filterMap_congr fun c _ => by rw [houtcomes]

/-- A call that raises is no successful call. -/
lemma successes_error {i : ι} {e : ε}
    (hself : s'.outcomes p = s.outcomes p ++ [(i, .error e)])
    (hother : ∀ q, q ≠ p → s'.outcomes q = s.outcomes q) (hacquired : s'.acquired = s.acquired) :
    s'.successes = s.successes := by
  rw [State.successes, hacquired]
  refine List.filterMap_congr fun c _ => ?_
  by_cases hc : c.1 = p
  · rw [hc, hself, success?_concat]
    split
    · rename_i hn
      rw [hn, List.getElem?_eq_none le_rfl]
      rfl
    · rfl
  · rw [hother _ hc]

/-- The call that took the lock last and succeeds is the last successful call. -/
lemma successes_ok (hnodup : s.acquired.Nodup) {l : List (π × ℕ)}
    (hlast : s.acquired = l ++ [(p, (s.outcomes p).length)]) {i : ι}
    (hself : s'.outcomes p = s.outcomes p ++ [(i, .ok ())])
    (hother : ∀ q, q ≠ p → s'.outcomes q = s.outcomes q) (hacquired : s'.acquired = s.acquired) :
    s'.successes = s.successes ++ [i] := by
  have hnotMem : (p, (s.outcomes p).length) ∉ l := by
    rw [hlast, List.nodup_append] at hnodup
    exact fun hmem => hnodup.2.2 _ hmem _ List.mem_cons_self rfl
  have hbefore : l.filterMap (fun c => State.success? (s'.outcomes c.1)[c.2]?) =
      l.filterMap fun c => State.success? (s.outcomes c.1)[c.2]? := by
    refine List.filterMap_congr fun c hc => ?_
    by_cases hp : c.1 = p
    · have hn : c.2 ≠ (s.outcomes p).length := fun hn => by
        obtain ⟨q, n⟩ := c
        dsimp only at hp hn
        subst hp hn
        exact hnotMem hc
      rw [hp, hself, success?_concat, if_neg hn]
    · rw [hother _ hp]
  rw [State.successes, State.successes, hacquired, hlast, List.filterMap_append,
    List.filterMap_append, hbefore]
  have hnew : State.success? (s'.outcomes p)[(s.outcomes p).length]? = some i := by
    rw [hself, success?_concat, if_pos rfl]
    rfl
  have hold : State.success? (s.outcomes p)[(s.outcomes p).length]? = none := by
    rw [List.getElem?_eq_none le_rfl]
    rfl
  simp only [List.filterMap_cons, List.filterMap_nil, hnew, hold, List.append_nil]

omit [DecidableEq π] in
/-- A call that is not under the lock has no outcome yet. -/
lemma result?_eq_none {stage : Stage ι φ ε} (h : stage.inside? = none) :
    stage.result? = none := by
  cases stage with
  | leaving i r => exact absurd h (by simp [Stage.inside?])
  | _ => rfl

/-- One more outcome that is an error makes no call successful. -/
lemma getElem?_concat_error {os : List (ι × Except ε Unit)} {i j : ι} {e : ε} {n : ℕ}
    (h : (os ++ [(j, .error e)])[n]? = some (i, .ok ())) : os[n]? = some (i, .ok ()) := by
  have hsuccess : State.success? (os ++ [(j, .error e)])[n]? = some i := by
    rw [h]
    rfl
  rw [success?_concat] at hsuccess
  split at hsuccess
  · exact absurd hsuccess (by simp [State.success?])
  · rcases hos : os[n]? with _ | ⟨i', r⟩
    · rw [hos] at hsuccess
      exact absurd hsuccess (by simp [State.success?])
    · have hn : n < os.length := (List.getElem?_eq_some_iff.mp hos).1
      rwa [List.getElem?_append_left hn, hos] at h

/-- A move of a process that keeps or does not have the lock. -/
lemma of_move (h : Serial W start s) {stage : Stage ι φ ε}
    (hexclusive : Exclusive W s') (hstage : s'.stage = Function.update s.stage p stage)
    (hinside : stage.inside? = (s.stage p).inside?) (hacquired : s'.acquired = s.acquired)
    (hresults : s'.results = s.results)
    (hcomplete : ∀ n i, (s'.outcomes p)[n]? = some (i, .ok ()) →
      (p, n) ∈ s.acquired ∧ 0 < W.attempts i)
    (hserial : W.serial s'.successes start = .ok s'.file) : Serial W start s' := by
  have hiff : ∀ q, s'.Inside q ↔ s.Inside q := by
    intro q
    by_cases hq : q = p
    · subst hq
      rw [Exclusive.inside_self hstage, hinside]
      rfl
    · exact Exclusive.inside_of_update hstage hq
  refine ⟨hexclusive, hacquired ▸ h.nodup, fun q n hq => ?_, fun q hq => ?_, fun q n i hq => ?_,
    hserial⟩
  · rw [hresults, hiff]
    exact h.number q n (hacquired ▸ hq)
  · rw [hacquired, hresults]
    exact h.last q ((hiff q).mp hq)
  · rw [hacquired]
    by_cases hqp : q = p
    · subst hqp
      exact hcomplete n i hq
    · rw [outcomes_of_ne hstage (congrFun hresults q) hqp] at hq
      exact h.complete q n i hq

/-- Every effect keeps the order of the calls serial. -/
lemma of_effect (h : Serial W start s) (he : Effect W s s') : Serial W start s' := by
  have hexclusive := h.toExclusive.of_effect he
  cases he with
  | @waited p stage hs hinside hcounts =>
    have hself : (s.goto p stage).outcomes p = s.outcomes p := by
      rw [outcomes_self rfl, outcomes_eq (result?_eq_none hs), result?_eq_none hinside]
      exact List.append_nil _
    have houtcomes : ∀ q, (s.goto p stage).outcomes q = s.outcomes q := fun q =>
      (eq_or_ne q p).elim (fun hq => hq ▸ hself) (fun hq => outcomes_of_ne rfl rfl hq)
    refine h.of_move hexclusive rfl (hinside.trans hs.symm) rfl rfl (fun n i hn => ?_) ?_
    · exact h.complete p n i (hself ▸ hn)
    · rw [successes_congr houtcomes rfl]
      exact h.serial
  | @refused p i e hs =>
    have hresults : (s.finish p i (.error e)).results p = s.results p ++ [(i, .error e)] :=
      Function.update_self ..
    have hother : ∀ q, q ≠ p → (s.finish p i (.error e)).results q = s.results q := fun q hq =>
      Function.update_of_ne hq ..
    have hself : (s.finish p i (.error e)).outcomes p = s.outcomes p ++ [(i, .error e)] := by
      rw [outcomes_self rfl, hresults, outcomes_eq (result?_eq_none hs)]
      exact List.append_nil _
    have hout : ∀ q, (s.finish p i (.error e)).Inside q → q ≠ p := by
      rintro q hq rfl
      exact absurd ((Exclusive.inside_self rfl).mp hq) (by simp [Stage.inside?])
    refine ⟨hexclusive, h.nodup, fun q n hq => ?_, fun q hq => ?_, fun q n j hq => ?_, ?_⟩
    · by_cases hqp : q = p
      · subst hqp
        rw [hresults, List.length_append]
        rcases h.number q n hq with hlt | ⟨-, rfl⟩
        · exact .inl (by omega)
        · exact .inl (by simp)
      · rw [hother q hqp, Exclusive.inside_of_update rfl hqp]
        exact h.number q n hq
    · have hqp := hout q hq
      rw [hother q hqp]
      exact h.last q ((Exclusive.inside_of_update rfl hqp).mp hq)
    · by_cases hqp : q = p
      · subst hqp
        rw [hself] at hq
        exact h.complete q n j (getElem?_concat_error hq)
      · rw [outcomes_of_ne rfl (hother q hqp) hqp] at hq
        exact h.complete q n j hq
    · rw [successes_error hself (fun q hq => outcomes_of_ne rfl (hother q hq) hq) rfl]
      exact h.serial
  | @entered p i hs hlock htried =>
    have hout : ∀ q, ¬s.Inside q := fun q hq => by
      rw [h.lock.mpr ⟨q, hq⟩] at hlock
      exact Bool.noConfusion hlock
    set s' : State π ι φ ε := { s.enter p i with lockFile := true } with hs'
    have hself : s'.outcomes p = s.outcomes p := by
      rw [outcomes_self rfl, outcomes_eq (result?_eq_none hs)]
      exact List.append_nil _
    have houtcomes : ∀ q, s'.outcomes q = s.outcomes q := fun q =>
      (eq_or_ne q p).elim (fun hq => hq ▸ hself) (fun hq => outcomes_of_ne rfl rfl hq)
    have hnew : (p, (s.results p).length) ∉ s.acquired := fun hmem => by
      rcases h.number _ _ hmem with hlt | ⟨hp, -⟩
      · exact lt_irrefl _ hlt
      · exact hout p hp
    have hinside : s'.Inside p := (Exclusive.inside_self rfl).mpr rfl
    refine ⟨hexclusive, ?_, fun q n hq => ?_, fun q hq => ?_, fun q n j hq => ?_, ?_⟩
    · exact List.Nodup.append h.nodup (List.nodup_singleton _) (by simpa using hnew)
    · rcases List.mem_append.mp hq with hq | hq
      · rcases h.number q n hq with hlt | ⟨hp, -⟩
        · exact .inl hlt
        · exact absurd hp (hout q)
      · obtain ⟨rfl, rfl⟩ := Prod.mk.inj (List.mem_singleton.mp hq)
        exact .inr ⟨hinside, rfl⟩
    · obtain rfl := hexclusive.unique q p hq hinside
      exact ⟨s.acquired, rfl⟩
    · rw [houtcomes] at hq
      exact ⟨List.mem_append_left _ (h.complete q n j hq).1, (h.complete q n j hq).2⟩
    · have hsuccesses : s'.successes = s.successes := by
        have hnone : State.success? (s.outcomes p)[(s.results p).length]? = none := by
          rw [outcomes_eq (result?_eq_none hs), List.getElem?_eq_none le_rfl]
          rfl
        rw [State.successes, (funext houtcomes : s'.outcomes = s.outcomes)]
        change (s.acquired ++ [(p, (s.results p).length)]).filterMap _ = _
        rw [List.filterMap_append, List.filterMap_cons, hnone]
        exact List.append_nil _
      rw [hsuccesses]
      exact h.serial
  | @read p i hs =>
    have hself : (s.goto p (.loaded i s.file)).outcomes p = s.outcomes p := by
      rw [outcomes_self rfl, outcomes_eq (by rw [hs]; rfl)]
      exact List.append_nil _
    have houtcomes : ∀ q, (s.goto p (.loaded i s.file)).outcomes q = s.outcomes q := fun q =>
      (eq_or_ne q p).elim (fun hq => hq ▸ hself) (fun hq => outcomes_of_ne rfl rfl hq)
    refine h.of_move hexclusive rfl (by rw [hs]; rfl) rfl rfl (fun n j hn => ?_) ?_
    · exact h.complete p n j (hself ▸ hn)
    · rw [successes_congr houtcomes rfl]
      exact h.serial
  | @wrote p i file hs happly =>
    set s' : State π ι φ ε := { s.goto p (.leaving i (.ok ())) with file } with hs'
    have hresults : s.outcomes p = s.results p := outcomes_eq (by rw [hs]; rfl)
    have hself : s'.outcomes p = s.outcomes p ++ [(i, .ok ())] := by
      rw [outcomes_self rfl, hresults]
      rfl
    have hp : s.Inside p := by
      rw [State.Inside, hs]
      rfl
    obtain ⟨l, hlast⟩ := h.last p hp
    refine h.of_move hexclusive rfl (by rw [hs]; rfl) rfl rfl (fun n j hn => ?_) ?_
    · rw [hself] at hn
      rcases Nat.lt_or_ge n (s.outcomes p).length with hlt | hge
      · rw [List.getElem?_append_left hlt] at hn
        exact h.complete p n j hn
      · rw [List.getElem?_append_right hge] at hn
        obtain ⟨hzero, heq⟩ := List.getElem?_eq_some_iff.mp hn
        rw [List.length_singleton] at hzero
        obtain rfl : n = (s.results p).length := by
          rw [← hresults]
          omega
        rw [hlast]
        obtain rfl : i = j := by simpa using heq
        exact ⟨by simp, h.tried p i (by rw [hs]; rfl)⟩
    · rw [successes_ok h.nodup (hresults ▸ hlast) hself (fun q hq => outcomes_of_ne rfl rfl hq) rfl,
        Work.serial_concat W i h.serial]
      exact happly
  | @raised p i e hs =>
    have hself : (s.goto p (.leaving i (.error e))).outcomes p =
        s.outcomes p ++ [(i, .error e)] := by
      rw [outcomes_self rfl, outcomes_eq (by rw [hs]; rfl)]
      rfl
    refine h.of_move hexclusive rfl (by rw [hs]; rfl) rfl rfl (fun n j hn => ?_) ?_
    · rw [hself] at hn
      exact h.complete p n j (getElem?_concat_error hn)
    · rw [successes_error hself (fun q hq => outcomes_of_ne rfl rfl hq) rfl]
      exact h.serial
  | @released p i r hs =>
    set s' : State π ι φ ε := { s.finish p i r with lockFile := false } with hs'
    have hresults : s'.results p = s.results p ++ [(i, r)] := Function.update_self ..
    have hother : ∀ q, q ≠ p → s'.results q = s.results q := fun q hq =>
      Function.update_of_ne hq ..
    have hself : s'.outcomes p = s.outcomes p := by
      rw [outcomes_self rfl, hresults, State.outcomes, hs]
      exact List.append_nil _
    have houtcomes : ∀ q, s'.outcomes q = s.outcomes q := fun q =>
      (eq_or_ne q p).elim (fun hq => hq ▸ hself) (fun hq => outcomes_of_ne rfl (hother q hq) hq)
    have hp : s.Inside p := by
      rw [State.Inside, hs]
      rfl
    refine ⟨hexclusive, h.nodup, fun q n hq => ?_, fun q hq => ?_, fun q n j hq => ?_, ?_⟩
    · by_cases hqp : q = p
      · subst hqp
        rw [hresults, List.length_append]
        rcases h.number q n hq with hlt | ⟨-, rfl⟩
        · exact .inl (by omega)
        · exact .inl (by simp)
      · rw [hother q hqp]
        rcases h.number q n hq with hlt | ⟨hq, -⟩
        · exact .inl hlt
        · exact absurd (h.unique q p hq hp) hqp
    · exact absurd (hexclusive.lock.mpr ⟨q, hq⟩) (by simp [hs'])
    · exact h.complete q n j (houtcomes q ▸ hq)
    · rw [successes_congr houtcomes rfl]
      exact h.serial
  | unchanged => exact h

end Serial

/-! ## Runs -/

variable {W} {start : φ}

omit [DecidableEq π] in
/-- At the start nothing has been done. -/
lemma serial_start : Serial W start ({ file := start } : State π ι φ ε) where
  unique p q hp := absurd hp (by simp [State.Inside, Stage.inside?])
  lock := iff_of_false (by simp) (by simp [State.Inside, Stage.inside?])
  counts _ := trivial
  tried p i hi := absurd hi (by simp [Stage.inside?])
  fresh p i content hp := nomatch hp
  nodup := List.nodup_nil
  number p n hp := absurd hp List.not_mem_nil
  last p hp := absurd hp (by simp [State.Inside, Stage.inside?])
  complete p n i hp := absurd hp (by simp [State.outcomes, Stage.result?])
  serial := rfl

/-- One more step. -/
lemma run_concat (actions : List (Action π ι)) (a : Action π ι) :
    run W (actions ++ [a]) start = step W a (run W actions start) := by
  rw [run, List.foldl_append]
  rfl

/-- **Calls under a lock file are serial.**  Whatever the order of the steps, the calls that took
the lock have done their work one after another. -/
theorem serial_run (actions : List (Action π ι)) : Serial W start (run W actions start) := by
  induction actions using List.reverseRecOn with
  | nil => exact serial_start
  | append_singleton actions a ih =>
    rw [run_concat]
    exact ih.of_effect (ih.toExclusive.step_effect a)

/-- The other processes stay where they are. -/
lemma step_stage (a : Action π ι) (s : State π ι φ ε) {q : π} (hq : q ≠ a.process) :
    (step W a s).stage q = s.stage q := by
  have hgoto : ∀ stage, (s.goto a.process stage).stage q = s.stage q := fun stage =>
    Function.update_of_ne hq ..
  cases a with
  | call p i =>
    rw [step]
    split
    · exact hgoto _
    · rfl
  | step p =>
    rw [step]
    split
    · rfl
    · split
      · split <;> exact hgoto _
      · split
        · exact hgoto _
        · split <;> exact hgoto _
    · exact hgoto _
    · exact hgoto _
    · split <;> exact hgoto _
    · split <;> exact hgoto _

/-- The lock file is only removed by the call that holds the lock. -/
lemma Effect.removes {s s' : State π ι φ ε} (h : Effect W s s') (hlock : s.lockFile = true)
    (hremoved : s'.lockFile = false) : ∃ p i r, s.stage p = .leaving i r ∧
      s' = { s.finish p i r with lockFile := false } := by
  cases h with
  | @released p i r hs => exact ⟨p, i, r, hs, rfl⟩
  | entered => exact absurd hremoved (by simp)
  | _ => exact absurd (hlock.symm.trans hremoved) (by simp)

/-- The file is only written by a call that holds the lock and succeeds. -/
lemma Effect.writes {s s' : State π ι φ ε} (h : Effect W s s') (hfile : s'.file ≠ s.file) :
    ∃ p i, s.Inside p ∧ s'.outcomes p = s.outcomes p ++ [(i, .ok ())] := by
  cases h with
  | @wrote p i file hs happly =>
    refine ⟨p, i, by rw [State.Inside, hs]; rfl, ?_⟩
    rw [Serial.outcomes_self rfl, Serial.outcomes_eq (by rw [hs]; rfl)]
    rfl
  | _ => exact absurd rfl hfile

/-- An outcome never changes. -/
lemma Effect.outcomes_prefix {s s' : State π ι φ ε} (h : Effect W s s') (q : π) :
    s.outcomes q <+: s'.outcomes q := by
  have hmove : ∀ {p : π} {stage : Stage ι φ ε} {s' : State π ι φ ε},
      s'.stage = Function.update s.stage p stage → (∀ q, q ≠ p → s'.results q = s.results q) →
      s.outcomes p <+: s'.results p ++ stage.result?.toList → s.outcomes q <+: s'.outcomes q := by
    intro p stage s' hstage hother hself
    by_cases hq : q = p
    · subst hq
      rwa [Serial.outcomes_self hstage]
    · rw [Serial.outcomes_of_ne hstage (hother q hq) hq]
  cases h with
  | @waited p stage hs hinside hcounts =>
    refine hmove rfl (fun _ _ => rfl) ?_
    rw [Serial.outcomes_eq (Serial.result?_eq_none hs)]
    exact List.prefix_append _ _
  | @refused p i e hs =>
    refine hmove rfl (fun q hq => Function.update_of_ne hq ..) ?_
    rw [Serial.outcomes_eq (Serial.result?_eq_none hs)]
    change _ <+: Function.update s.results p _ p ++ _
    rw [Function.update_self, List.append_assoc]
    exact List.prefix_append _ _
  | @entered p i hs hlock htried =>
    refine hmove rfl (fun _ _ => rfl) ?_
    rw [Serial.outcomes_eq (Serial.result?_eq_none hs)]
    exact List.prefix_append _ _
  | @read p i hs =>
    refine hmove rfl (fun _ _ => rfl) ?_
    rw [Serial.outcomes_eq (by rw [hs]; rfl)]
    exact List.prefix_append _ _
  | @wrote p i file hs happly =>
    refine hmove rfl (fun _ _ => rfl) ?_
    rw [Serial.outcomes_eq (by rw [hs]; rfl)]
    exact List.prefix_append _ _
  | @raised p i e hs =>
    refine hmove rfl (fun _ _ => rfl) ?_
    rw [Serial.outcomes_eq (by rw [hs]; rfl)]
    exact List.prefix_append _ _
  | @released p i r hs =>
    refine hmove rfl (fun q hq => Function.update_of_ne hq ..) ?_
    change _ <+: Function.update s.results p _ p ++ _
    rw [Function.update_self, State.outcomes, hs]
    exact List.prefix_append _ _
  | unchanged => exact List.prefix_rfl

end LockFile
