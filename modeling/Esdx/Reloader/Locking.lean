import Esdx.Foundations.LockFile
import Esdx.Reloader.Refinement

/-!
# Activations by many processes

Each process has its own `Topology` objects for the one topology file, and calls `activate` and
`deactivate` on them while others do the same.  The file is what the successful calls make of it
one after another.
-/

namespace Esdx

variable {J : Type}

/-- What the calls do to the topology file, with the errors of `_lock`. -/
def reloaderWork (lockfile : String) : LockFile.Work (Topology × TopologyCall) (Topo J) Exc where
  apply i := i.2.apply i.1
  attempts i := i.1.attempts
  unbound := .unboundLocalError
  exhausted := .runtimeError ("[Errno 17] File exists: '" ++ lockfile ++ "'")
  lockMissing := .runtimeError
    ("[Errno 2] No such file or directory: PosixPath('" ++ lockfile ++ "')")

/-- Calls that did their work one after another succeed one after another. -/
lemma runReloader_of_serial {lockfile : String} {calls : List (Topology × TopologyCall)}
    (htried : ∀ i ∈ calls, 0 < i.1.attempts) {start t : Topo J}
    (h : (reloaderWork lockfile).serial calls start = .ok t) :
    runReloader calls start = (calls.map fun i => (i, .ok ()), t) := by
  induction calls generalizing start with
  | nil =>
    obtain rfl := Except.ok.inj h
    rfl
  | cons i calls ih =>
    rw [LockFile.Work.serial, List.foldlM_cons] at h
    rcases happly : (reloaderWork lockfile).apply i start with e | t₁
    · simp [happly, bind, Except.bind] at h
    have hcall : TopologyCall.alone i.1 i.2 start = (.ok (), t₁) :=
      TopologyCall.alone_eq_ok.mpr ⟨htried i List.mem_cons_self, happly⟩
    rw [happly] at h
    have hrest := ih (fun j hj => htried j (List.mem_cons_of_mem _ hj)) h
    change ((i, (TopologyCall.alone i.1 i.2 start).1) ::
        (runReloader calls (TopologyCall.alone i.1 i.2 start).2).1,
      (runReloader calls (TopologyCall.alone i.1 i.2 start).2).2) = _
    rw [hcall, hrest]
    rfl

/-- **Activations and deactivations are serialisable.**  However the steps of the processes are
interleaved, at most one call holds the lock, and the file is that of the successful calls one
after another in the order in which they took the lock.  Only a call that holds the lock and
succeeds changes the file, and only the call that holds the lock removes it. -/
theorem reloader_serialisable {π : Type} [DecidableEq π] (lockfile : String) (start : Topo J)
    (actions : List (LockFile.Action π (Topology × TopologyCall))) :
    let s := LockFile.run (reloaderWork lockfile) actions start
    (∀ p q, s.Inside p → s.Inside q → p = q) ∧
    runReloader s.successes start = (s.successes.map fun i => (i, .ok ()), s.file) ∧
    s.acquired.Nodup ∧
    (∀ p n i, (s.outcomes p)[n]? = some (i, .ok ()) → (p, n) ∈ s.acquired) ∧
    (∀ p, s.stage p = .idle → s.outcomes p = s.results p) ∧
    ∀ a, let s' := LockFile.step (reloaderWork lockfile) a s
      (∀ p, s.outcomes p <+: s'.outcomes p) ∧
      (s'.file ≠ s.file →
        ∃ p i, s.Inside p ∧ s'.outcomes p = s.outcomes p ++ [(i, .ok ())]) ∧
      (s.lockFile = true → s'.lockFile = false →
        ∃ i r, s.stage a.process = .leaving i r ∧ ∀ q, s.Inside q → q = a.process) := by
  intro s
  have h : LockFile.Serial (reloaderWork lockfile) start s := LockFile.serial_run actions
  have htried : ∀ i ∈ s.successes, 0 < i.1.attempts := by
    intro i hi
    obtain ⟨⟨p, n⟩, -, hsuccess⟩ := List.mem_filterMap.mp hi
    rcases houtcome : (s.outcomes p)[n]? with _ | ⟨j, e | u⟩
    · simp [houtcome, LockFile.State.success?] at hsuccess
    · simp [houtcome, LockFile.State.success?] at hsuccess
    · obtain rfl : j = i := by simpa [houtcome, LockFile.State.success?] using hsuccess
      exact (h.complete p n j houtcome).2
  refine ⟨h.unique, runReloader_of_serial htried h.serial, h.nodup,
    fun p n i hn => (h.complete p n i hn).1, fun p hp => ?_, fun a => ?_⟩
  · exact LockFile.Serial.outcomes_eq (by rw [hp]; rfl)
  · have heffect := h.toExclusive.step_effect a
    refine ⟨heffect.outcomes_prefix, heffect.writes, fun hlock hremoved => ?_⟩
    obtain ⟨p, i, r, hp, hs'⟩ := heffect.removes hlock hremoved
    have hprocess : p = a.process := by
      by_contra hne
      have hstay : (LockFile.step (reloaderWork lockfile) a s).stage p = s.stage p :=
        LockFile.step_stage a s hne
      have hidle : (LockFile.step (reloaderWork lockfile) a s).stage p = .idle := by
        rw [hs']
        exact Function.update_self ..
      rw [hidle, hp] at hstay
      simp at hstay
    subst hprocess
    exact ⟨i, r, hp, fun q hq => h.unique q _ hq (by rw [LockFile.State.Inside, hp]; rfl)⟩

end Esdx
