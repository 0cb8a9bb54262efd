import Esdx.Market.Concurrent
import Esdx.Market.Validity

/-!
# When a purchase is overtaken

A purchase that passed all checks may still be refused when it is committed.  That happens exactly
when another process has sold the same offer in the meantime; nothing else that happens on the
database gets in its way, and a process that is alone with its mutex is never refused.
-/

namespace Esdx

open Table

variable {C : Crypto} {reg : Registry}

/-- The process that takes the step, if it is a step of a purchase. -/
def Action.process? : Action C → Option ℕ
  | .addOffer _ _ => none
  | .read process _ _ _ => some process
  | .commit process => some process
  | .abort process => some process

/-- The step commits a purchase of the offer, and the database takes it. -/
def Action.Sells (action : Action C) (sv : Service) (offer : ℕ) : Prop :=
  ∃ process p s, action = .commit process ∧ sv.pending process = some p ∧
    sv.db.commit p.writes = .ok s ∧ ∃ po ∈ p.writes.purchaseOrders, po.offer = offer

namespace Service

variable {sv : Service}

/-! ## What other processes do -/

/-- The offer has a purchase order. -/
def IsSold (sv : Service) (offer : ℕ) : Prop := ∃ x ∈ sv.db.purchaseOrders, x.offer = offer

/-- An offer is sold by the commits of its purchases, and stays so. -/
lemma isSold_step (action : Action C) (sv : Service) (offer : ℕ) :
    (step C reg action sv).2.IsSold offer ↔ sv.IsSold offer ∨ action.Sells sv offer := by
  cases action with
  | addOffer amb request =>
    have hsells : ¬(Action.addOffer amb request : Action C).Sells sv offer := by
      simp [Action.Sells]
    rw [or_iff_left hsells, step]
    rcases hadd : addOffer C reg amb request sv.db with ⟨e | m, s⟩
    · rw [addOffer_error hadd]
    · obtain ⟨head, copy, -, -, rfl⟩ := addOffer_ok hadd
      exact Iff.rfl
  | read process amb exact request =>
    have hsells : ¬(Action.read process amb exact request : Action C).Sells sv offer := by
      simp [Action.Sells]
    rw [or_iff_left hsells, step]
    rcases sv.pending process with _ | p
    · dsimp only
      rcases purchaseTransaction C reg amb request (offersGetter exact request) sv.db with
        ⟨e | k, s⟩
      · exact Iff.rfl
      · exact Iff.rfl
    · exact Iff.rfl
  | abort process =>
    have hsells : ¬(Action.abort process : Action C).Sells sv offer := by simp [Action.Sells]
    rw [or_iff_left hsells, step]
    exact Iff.rfl
  | commit process =>
    rw [step]
    rcases hp : sv.pending process with _ | p
    · refine (or_iff_left ?_).symm
      rintro ⟨process', p, s, ⟨⟩, hp', -⟩
      simp [hp] at hp'
    · dsimp only
      rcases hcommit : sv.db.commit p.writes with e | s
      · refine (or_iff_left ?_).symm
        rintro ⟨process', p', s, ⟨⟩, hp', hcommit', -⟩
        obtain rfl := Option.some.inj (hp.symm.trans hp')
        simp [hcommit] at hcommit'
      · have hsells : (Action.commit process : Action C).Sells sv offer ↔
            ∃ po ∈ p.writes.purchaseOrders, po.offer = offer := by
          constructor
          · rintro ⟨process', p', s', ⟨⟩, hp', -, hsale⟩
            obtain rfl := Option.some.inj (hp.symm.trans hp')
            exact hsale
          · exact fun hsale => ⟨process, p, s, rfl, hp, hcommit, hsale⟩
        have horders : s.purchaseOrders = sv.db.purchaseOrders ++ p.writes.purchaseOrders := by
          obtain ⟨-, -, -, rfl⟩ := Store.commit_eq_ok.mp hcommit
          rfl
        have hsold : ({ sv.close process with db := s } : Service).IsSold offer ↔
            sv.IsSold offer ∨ ∃ po ∈ p.writes.purchaseOrders, po.offer = offer := by
          unfold IsSold
          simp only [horders, List.mem_append, or_and_right, exists_or]
        rw [hsells, ← hsold]
        dsimp only
        rcases ContractProtoSerializer.message reg s p.contract with e | m <;> exact Iff.rfl

/-- What the others do leaves an open purchase of the process as it is. -/
lemma pending_step {process : ℕ} {action : Action C} (h : action.process? ≠ some process)
    (sv : Service) : (step C reg action sv).2.pending process = sv.pending process := by
  have hupdate : ∀ (process' : ℕ) (q : Option Pending), process' ≠ process →
      Function.update sv.pending process' q process = sv.pending process :=
    fun process' q hne => Function.update_of_ne hne.symm q sv.pending
  cases action with
  | addOffer amb request =>
    rw [step]
    rcases addOffer C reg amb request sv.db with ⟨e | m, s⟩ <;> rfl
  | read process' amb exact request =>
    have hne : process' ≠ process := fun heq => h (congrArg some heq)
    rw [step]
    rcases sv.pending process' with _ | p
    · dsimp only
      rcases purchaseTransaction C reg amb request (offersGetter exact request) sv.db with
        ⟨e | k, s⟩
      · rfl
      · exact hupdate process' _ hne
    · rfl
  | abort process' => exact hupdate process' none fun heq => h (congrArg some heq)
  | commit process' =>
    have hclose := hupdate process' none fun heq => h (congrArg some heq)
    rw [step]
    rcases sv.pending process' with _ | p
    · rfl
    · dsimp only
      rcases sv.db.commit p.writes with e | s
      · exact hclose
      · dsimp only
        rcases ContractProtoSerializer.message reg s p.contract with e | m <;> exact hclose

/-- While the others act, an open purchase stays open, and its offer unsold until one of them sells
it. -/
lemma exec_others {process : ℕ} (offer : ℕ) (mid : List (Action C))
    (h : ∀ a ∈ mid, a.process? ≠ some process) (sv : Service) :
    (Machine.exec (step C reg) mid sv).2.pending process = sv.pending process ∧
      (¬(Machine.exec (step C reg) mid sv).2.IsSold offer ↔ ¬sv.IsSold offer ∧
        Machine.EachStep (step C reg) (fun a sv => ¬a.Sells sv offer) mid sv) := by
  induction mid using List.reverseRecOn with
  | nil =>
    refine ⟨rfl, (and_iff_left ?_).symm⟩
    intro pre i post hsplit
    simp at hsplit
  | append_singleton mid a ih =>
    obtain ⟨hpending, hsold⟩ := ih fun b hb => h b (List.mem_append_left _ hb)
    rw [Machine.exec_append_singleton]
    refine ⟨(pending_step (h a (by simp)) _).trans hpending, ?_⟩
    dsimp only
    rw [isSold_step, not_or, hsold, Machine.eachStep_concat, and_assoc]

/-- After a commit the process has no purchase open. -/
lemma pending_commit (process : ℕ) (sv : Service) :
    (step C reg (.commit process) sv).2.pending process = none := by
  have hclosed : (sv.close process).pending process = none := Function.update_self ..
  rw [step]
  rcases hp : sv.pending process with _ | p
  · exact hp
  · dsimp only
    rcases sv.db.commit p.writes with e | s
    · exact hclosed
    · dsimp only
      rcases ContractProtoSerializer.message reg s p.contract with e | m <;> exact hclosed

/-! ## The commit -/

/-- The purchase that a process has open is committed exactly while its offer is unsold, and its
call is then answered with the contract. -/
lemma commit_of_pending {cs : List (Chain C reg)} (h : Inv sv cs) {process : ℕ}
    {p : Pending} (hp : sv.pending process = some p) {offer : ℕ}
    (hoffer : ∀ po ∈ p.writes.purchaseOrders, po.offer = offer) :
    (¬sv.IsSold offer → ∃ m, (step C reg (.commit process) sv).1 = .ok (some (.contract m))) ∧
      (sv.IsSold offer → (step C reg (.commit process) sv).1 =
        .error (.marketServiceError "data was modified during the transaction")) := by
  obtain ⟨po, k, new, rfl, ⟨c, hc, hopen⟩, hkeys⟩ := h.rows process p hp
  obtain rfl : po.offer = offer := hoffer po (by simp)
  rw [step, hp]
  dsimp only
  constructor
  · intro hunsold
    have hfree : ∀ x ∈ c.sales, x.order.offer ≠ po.offer := fun x hx heq =>
      hunsold ⟨x.order, h.represents.mem_orders.mpr ⟨c, hc, x, hx, rfl⟩, heq⟩
    obtain ⟨requested, hx⟩ := hopen.extends hfree
    have hcontract : k.purchaseOrder = po.id := hx.contract_order
    let db : Store := { sv.db with
      offers := sv.db.offers ++ [new]
      purchaseOrders := sv.db.purchaseOrders ++ [po]
      contracts := sv.db.contracts ++ [k] }
    have hcommit : sv.db.commit ⟨[new], [po], [k]⟩ = .ok db := by
      refine Store.commit_eq_ok.mpr ⟨fun po' hpo' x hx heq => ?_, fun k' hk' x hx => ?_,
        fun o ho d hd x hx' => ?_, rfl⟩
      · rw [List.mem_singleton.mp hpo'] at heq
        exact hunsold ⟨x, hx, heq⟩
      · rw [List.mem_singleton.mp hk', hcontract]
        obtain ⟨d, hd, y, hy, rfl⟩ := h.represents.mem_contracts.mp hx
        rw [(Chain.sale_links hy).2]
        exact hkeys.order.free _ (h.represents.mem_orders.mpr ⟨d, hd, y, hy, rfl⟩)
      · rw [List.mem_singleton.mp ho, hx.new_eq] at hd
        rw [← hd]
        exact h.represents.latest hc x hx'
    obtain ⟨pre, post, rfl⟩ := List.append_of_mem hc
    have hstored : Represents db (pre ++ c.extend _ hx :: post) :=
      h.represents.concat_sale hx rfl rfl rfl
      (h.represents.offer_keys.concat_reserved hkeys.offer)
      (h.represents.order_keys.concat_reserved hkeys.order)
      (h.represents.contract_keys.concat_reserved hkeys.contract)
    have hsale : (⟨c.last, po, k, requested⟩ : Sale) ∈ (c.extend _ hx).sales := by
      simp [Chain.extend]
    have hmessage := hstored.message_eq (List.mem_append_right _ List.mem_cons_self) hsale
    rw [hcommit]
    dsimp only
    rw [hmessage]
    exact ⟨_, rfl⟩
  · rintro ⟨x, hx, heq⟩
    have hcommit : sv.db.commit ⟨[new], [po], [k]⟩ =
        .error (.integrityError "market_purchaseorder.offer_id") := by
      rw [Store.commit, if_pos]
      simp only [List.any_cons, List.any_nil, Bool.or_false]
      exact List.any_eq_true.mpr ⟨x, hx, by simpa using heq⟩
    rw [hcommit]
    rfl

/-- A purchase that passes its checks is open afterwards, with a purchase order for the available
offer, which is unsold. -/
lemma step_read {process : ℕ} {amb : Ambient C} {exact : Bool} {request : PurchaseRequest}
    {k : Contract} {s : Store} (hclosed : sv.pending process = none)
    (hread : purchaseTransaction C reg amb request (offersGetter exact request) sv.db =
      (.ok k, s)) :
    ∃ requested available p, offersGetter exact request sv.db = .ok (requested, available) ∧
      (step C reg (.read process amb exact request) sv).2.pending process = some p ∧
      (∀ po ∈ p.writes.purchaseOrders, po.offer = available.id) ∧
      ¬(step C reg (.read process amb exact request) sv).2.IsSold available.id := by
  obtain ⟨requested, available, po, new, hget, hsale, rfl⟩ := purchaseTransaction_eq_ok.mp hread
  obtain ⟨startingOn, -, hp⟩ := hsale.purchase
  have hopened : (step C reg (.read process amb exact request) sv).2 = {
      db := sv.db.takeKeys (sv.db.addSale po k new)
      pending := Function.update sv.pending process (some ⟨k, ⟨[new], [po], [k]⟩⟩) } := by
    rw [step, hclosed]
    dsimp only
    rw [hread]
    dsimp only
    rw [writesTo_addSale hsale]
  rw [hopened]
  refine ⟨requested, available, _, hget, Function.update_self .., fun po' hpo' => ?_, ?_⟩
  · rw [List.mem_singleton.mp hpo', hp.order_eq]
  · rintro ⟨x, hx, heq⟩
    exact hp.unsold x hx heq

/-- A run that goes on after an action. -/
lemma run_append_cons (pre mid : List (Action C)) (action : Action C) :
    run C reg (pre ++ action :: mid) =
      (Machine.exec (step C reg) mid (step C reg action (run C reg pre)).2).2 := by
  rw [run, Machine.exec_append]
  rfl

end Service

/-- **Conflicts.**  A process opens a purchase that passes its checks, and then others act, on the
offer that it buys or on any other.  The commit is refused exactly when one of them has sold this
offer meanwhile, and is otherwise answered with the contract. -/
theorem run_commit_iff (pre mid : List (Action C)) {process : ℕ} {amb : Ambient C} {exact : Bool}
    {request : PurchaseRequest} {k : Contract} {s : Store}
    (hclosed : (Service.run C reg pre).pending process = none)
    (hread : purchaseTransaction C reg amb request (offersGetter exact request)
      (Service.run C reg pre).db = (.ok k, s))
    (hothers : ∀ a ∈ mid, a.process? ≠ some process) :
    ∃ requested available, offersGetter exact request (Service.run C reg pre).db =
        .ok (requested, available) ∧
      let opened := (Service.step C reg (.read process amb exact request) (Service.run C reg pre)).2
      let sv := Service.run C reg (pre ++ .read process amb exact request :: mid)
      let unsold := Machine.EachStep (Service.step C reg)
        (fun a sv => ¬a.Sells sv available.id) mid opened
      ((∃ m, (Service.step C reg (.commit process) sv).1 = .ok (some (.contract m))) ↔ unsold) ∧
      ((Service.step C reg (.commit process) sv).1 =
        .error (.marketServiceError "data was modified during the transaction") ↔ ¬unsold) := by
  obtain ⟨requested, available, p, hget, hopen, hoffer, hunsold⟩ :=
    Service.step_read hclosed hread
  refine ⟨requested, available, hget, ?_⟩
  obtain ⟨cs, hinv⟩ := Service.exists_inv C reg (pre ++ .read process amb exact request :: mid)
  obtain ⟨hpending, hsold⟩ := Service.exec_others available.id mid hothers
    (Service.step C reg (.read process amb exact request) (Service.run C reg pre)).2
  rw [← Service.run_append_cons] at hpending hsold
  rw [and_iff_right hunsold] at hsold
  obtain ⟨hcontract, herror⟩ := Service.commit_of_pending hinv (hpending.trans hopen) hoffer
  dsimp only
  rw [← hsold]
  constructor
  · refine ⟨fun ⟨m, hm⟩ hs => ?_, hcontract⟩
    simp [herror hs] at hm
  · refine ⟨fun he hs => ?_, fun hs => herror (not_not.mp hs)⟩
    obtain ⟨m, hm⟩ := hcontract hs
    simp [he] at hm

/-! ## A process that is alone -/

/-- **One process.**  Where all purchases go through one process, no commit is ever refused. -/
theorem run_oneProcess (process : ℕ) (actions : List (Action C))
    (h : ∀ a ∈ actions, a.process? = none ∨ a.process? = some process) :
    Machine.EachStep (Service.step C reg)
      (fun a sv => a = .commit process → ∀ e, (Service.step C reg a sv).1 ≠ .error e) actions
      {} := by
  suffices hrun : Machine.EachStep (Service.step C reg)
        (fun a sv => a = .commit process → ∀ e, (Service.step C reg a sv).1 ≠ .error e) actions {} ∧
      ∀ p, (Service.run C reg actions).pending process = some p → ∃ offer,
        (∀ po ∈ p.writes.purchaseOrders, po.offer = offer) ∧
        ¬(Service.run C reg actions).IsSold offer from hrun.1
  induction actions using List.reverseRecOn with
  | nil =>
    refine ⟨fun pre i post hsplit => ?_, fun p hp => ?_⟩
    · simp at hsplit
    · simp [Service.run] at hp
  | append_singleton actions a ih =>
    obtain ⟨heach, hunsold⟩ := ih fun b hb => h b (List.mem_append_left _ hb)
    obtain ⟨cs, hinv⟩ := Service.exists_inv C reg actions
    have hconcat : Service.run C reg (actions ++ [a]) =
        (Service.step C reg a (Service.run C reg actions)).2 := by
      rw [Service.run, Machine.exec_append_singleton]
      rfl
    rw [Machine.eachStep_concat, hconcat]
    refine ⟨⟨heach, fun ha e he => ?_⟩, fun p hp => ?_⟩
    · subst ha
      change (Service.step C reg (.commit process) (Service.run C reg actions)).1 = .error e at he
      rcases hpending : (Service.run C reg actions).pending process with _ | p
      · simp [Service.step, hpending] at he
      · obtain ⟨offer, hoffer, hnot⟩ := hunsold p hpending
        obtain ⟨m, hm⟩ := (Service.commit_of_pending hinv hpending hoffer).1 hnot
        simp [hm] at he
    · have ha := h a (by simp)
      cases a with
      | addOffer amb request =>
        rw [Service.pending_step (by simp [Action.process?])] at hp
        obtain ⟨offer, hoffer, hnot⟩ := hunsold p hp
        refine ⟨offer, hoffer, fun hs => ?_⟩
        rcases (Service.isSold_step _ _ _).mp hs with hs | hs
        · exact hnot hs
        · simp [Action.Sells] at hs
      | read process' amb exact request =>
        obtain rfl : process' = process := by simpa [Action.process?] using ha
        rcases hpending : (Service.run C reg actions).pending process' with _ | p'
        · rcases hread : purchaseTransaction C reg amb request (offersGetter exact request)
            (Service.run C reg actions).db with ⟨e | k, s⟩
          · simp [Service.step, hpending, hread] at hp
          · obtain ⟨_, available, p', -, hopen, hoffer, hnot⟩ := Service.step_read hpending hread
            obtain rfl := Option.some.inj (hopen.symm.trans hp)
            exact ⟨available.id, hoffer, hnot⟩
        · have hsame : (Service.step C reg (.read process' amb exact request)
              (Service.run C reg actions)).2 = Service.run C reg actions := by
            rw [Service.step, hpending]
          rw [hsame] at hp ⊢
          exact hunsold p hp
      | commit process' =>
        obtain rfl : process' = process := by simpa [Action.process?] using ha
        rw [Service.pending_commit] at hp
        simp at hp
      | abort process' =>
        obtain rfl : process' = process := by simpa [Action.process?] using ha
        have hclosed : ((Service.run C reg actions).close process').pending process' = none :=
          Function.update_self ..
        exact absurd (hclosed.symm.trans hp) (by simp)

/-! ## A purchase of the small market -/

namespace SmallMarket

/-- An offer is put up. -/
def supplied : List (Action Crypto.transparent) :=
  [.addOffer amb (signedBySeller (specification "10.1.1.1:50-51"))]

/-- What was computed and is no failure has a value. -/
lemma exists_of_isOk {ε α σ : Type*} {r : Except ε α × σ} (h : r.1.isOk = true) :
    ∃ a s, r = (.ok a, s) := by
  obtain ⟨e | a, s⟩ := r
  · simp [Except.isOk, Except.toBool] at h
  · exact ⟨a, s, rfl⟩

/-- A request for the offer. -/
def contested : PurchaseRequest :=
  (request (Service.run Crypto.transparent registry supplied).db 2).getD
    ⟨⟨0, specification ""⟩, "", "", ⟨0, 0⟩, []⟩

/-- Others put up an offer, and open a purchase and give it up. -/
def passing : List (Action Crypto.transparent) :=
  supplied ++ [.read 1 amb true contested, .abort 1]

/-- Another process buys the offer. -/
def overtaking : List (Action Crypto.transparent) := [.read 1 amb true contested, .commit 1]

/-- The checks of the purchase pass, it is one of the offer with id 2, and the other process is
served. -/
lemma contested_computed :
    (purchaseTransaction Crypto.transparent registry amb contested (offersGetter true contested)
      (Service.run Crypto.transparent registry supplied).db).1.isOk = true ∧
    (offersGetter true contested
      (Service.run Crypto.transparent registry supplied).db).toOption.map (·.2.id) = some 2 ∧
    ∃ x ∈ (Service.run Crypto.transparent registry
      (supplied ++ .read 0 amb true contested :: overtaking)).db.purchaseOrders, x.offer = 2 := by
  decide +kernel

end SmallMarket

/-- A purchase is committed though others act meanwhile, and it is refused when it is overtaken. -/
theorem run_commit_iff_overtaking :
    (∃ m, (Service.step Crypto.transparent SmallMarket.registry (.commit 0)
      (Service.run Crypto.transparent SmallMarket.registry (SmallMarket.supplied ++
        .read 0 SmallMarket.amb true SmallMarket.contested :: SmallMarket.passing))).1 =
          .ok (some (.contract m))) ∧
    (Service.step Crypto.transparent SmallMarket.registry (.commit 0)
      (Service.run Crypto.transparent SmallMarket.registry (SmallMarket.supplied ++
        .read 0 SmallMarket.amb true SmallMarket.contested :: SmallMarket.overtaking))).1 =
          .error (.marketServiceError "data was modified during the transaction") := by
  obtain ⟨hpasses, hoffer, hsold⟩ := SmallMarket.contested_computed
  obtain ⟨k, s, hread⟩ := SmallMarket.exists_of_isOk hpasses
  have hothers : ∀ a ∈ SmallMarket.supplied, a.process? ≠ some 0 := by
    simp [SmallMarket.supplied, Action.process?]
  have hclosed : (Service.run Crypto.transparent SmallMarket.registry
      SmallMarket.supplied).pending 0 = none := by
    rw [Service.run, (Service.exec_others 0 SmallMarket.supplied hothers {}).1]
  constructor
  · have hpassing : ∀ a ∈ SmallMarket.passing, a.process? ≠ some 0 := by
      simp [SmallMarket.passing, SmallMarket.supplied, Action.process?]
    obtain ⟨requested, available, -, hcommit, -⟩ :=
      run_commit_iff SmallMarket.supplied SmallMarket.passing hclosed hread hpassing
    refine hcommit.mpr fun pre a post hsplit hsells => ?_
    obtain ⟨process, p, s, rfl, -⟩ := hsells
    have hmem : .commit process ∈ SmallMarket.passing := by
      rw [hsplit]
      simp
    simp [SmallMarket.passing, SmallMarket.supplied] at hmem
  · have hovertaking : ∀ a ∈ SmallMarket.overtaking, a.process? ≠ some 0 := by
      simp [SmallMarket.overtaking, Action.process?]
    obtain ⟨requested, available, hget, -, hrefused⟩ :=
      run_commit_iff SmallMarket.supplied SmallMarket.overtaking hclosed hread hovertaking
    refine hrefused.mpr fun hunsold => ?_
    obtain ⟨_, available', _, hget', -, -, hstart⟩ := Service.step_read hclosed hread
    obtain ⟨-, rfl⟩ := Prod.mk.inj (Except.ok.inj (hget'.symm.trans hget))
    have hid : available'.id = 2 := by
      rw [hget] at hoffer
      exact Option.some.inj hoffer
    -- the offer was unsold at the start and is sold at the end
    have hend := ((Service.exec_others available'.id SmallMarket.overtaking hovertaking _).2.mpr
      ⟨hstart, hunsold⟩)
    rw [← Service.run_append_cons, hid] at hend
    exact hend hsold

/-- The first process alone buys the offer. -/
theorem run_oneProcess_contested : Machine.EachStep
    (Service.step Crypto.transparent SmallMarket.registry)
    (fun a sv => a = .commit 0 → ∀ e,
      (Service.step Crypto.transparent SmallMarket.registry a sv).1 ≠ .error e)
    (SmallMarket.supplied ++ [.read 0 SmallMarket.amb true SmallMarket.contested, .commit 0]) {} :=
  run_oneProcess 0 _ (by simp [SmallMarket.supplied, Action.process?])

end Esdx
