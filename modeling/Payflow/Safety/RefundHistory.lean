import Payflow.Lib.CallSites
import Payflow.Lib.Ties
import Payflow.Model.History
import Payflow.Safety.Landing
import Payflow.Safety.RefundLedger
import Payflow.Spec.Tasks

/-! # The history of a refund is shown in order

`record_refund_transition` is called only after the status before has been committed, so a change of
a refund's status has a later `created_at` than all changes before it, whatever deliveries overlap.
`retrieve_refund_events` therefore shows the changes in the order of their commits; a retry of
another delivery may stand anywhere between them. -/

namespace Payflow.Safety

open Payflow.Lib Payflow.Model Payflow.Spec

variable {P : Platform} {D D' : Db} {b : Block} {now : ℕ} {ws : List Write} {r : BRes b} {q : Uuid}

/-! ### The changes of a refund -/

/-- The event of a change of the status. -/
def isChange (e : RefundEvent) : Bool := !isRetry e

/-- The changes of a refund, in the order of their commits. -/
def changes (D : Db) (q : Uuid) : List RefundEvent := (refundLedger D q).filter isChange

/-- How many changes lead to a status, the first one among them. -/
def placed : RefundStatus → ℕ
  | .created => 1
  | .processing => 2
  | .succeeded | .failed => 3

/-- The changes of a refund that a commit adds. -/
def newChanges (ws : List Write) (q : Uuid) : List RefundEvent :=
  ((ws.filterMap newRefundEvent?).filter fun e => e.refundId = q).filter isChange

theorem changes_applyAll (ws : List Write) (D : Db) (q : Uuid) :
    changes (store.applyAll D ws) q = changes D q ++ newChanges ws q := by
  unfold changes newChanges
  rw [refundLedger_applyAll, List.filter_append]

/-- The row of a refund has as many changes as its status says. -/
def RefundsCounted (D : Db) : Prop :=
  ∀ q, (changes D q).length = ((D.refund? q).map fun row => placed row.status).getD 0

theorem refundsCounted_step (hreq : Requires b D) (h : Does P b now D ws r) (hD : RefundsCounted D) :
    RefundsCounted (store.applyAll D ws) := by
  intro q
  have hbooked := refundBooked_of_does hreq h q
  have hcount := hD q
  rw [changes_applyAll, List.length_append, hcount]
  unfold newChanges
  generalize D.refund? q = before at hbooked
  generalize (store.applyAll D ws).refund? q = after at hbooked
  generalize (ws.filterMap newRefundEvent?).filter (fun e => e.refundId = q) = es at hbooked
  cases hbooked with
  | untouched => simp
  | created htype _ _ hs => simp [isChange, isRetry, htype, hs, placed]
  | @moved row row' e hretry _ _ hvalid =>
    have hplaced : placed row'.status = placed row.status + 1 := by
      generalize row.status = st at hvalid
      generalize row'.status = st' at hvalid
      cases st <;> cases st' <;> simp_all [validRefundTransitions, placed]
    simp [isChange, hretry, hplaced]
  | retried hretry hs hs' => simp [isChange, hretry, hs, hs']

/-- What a commit adds to the changes of a refund. -/
inductive NewChange (D : Db) (now : ℕ) (b : Block) (q : Uuid) : List RefundEvent → Prop
  | none : NewChange D now b q []
  | created {e} : D.refund? q = none → e.createdAt = now → NewChange D now b q [e]
  | moved {type new provider failure row e} : b = .recordRefundTransition q type new provider failure →
      D.refund? q = some row → new ∈ validRefundTransitions row.status → e.createdAt = now →
      NewChange D now b q [e]

theorem newChange_of_nil (h : ws.filterMap newRefundEvent? = []) :
    NewChange D now b q (newChanges ws q) := by
  unfold newChanges
  rw [h]
  exact .none

theorem newChanges_single {e : RefundEvent} (h : ws.filterMap newRefundEvent? = [e]) (q : Uuid) :
    newChanges ws q = if e.refundId = q ∧ isChange e = true then [e] else [] := by
  unfold newChanges
  rw [h]
  by_cases hq : e.refundId = q <;> by_cases hc : isChange e = true <;> simp [hq, hc]

theorem newChange_of_does (h : Does P b now D ws r) (q : Uuid) :
    NewChange D now b q (newChanges ws q) := by
  cases b with
  | getExistingPayment | getPayment | reconcileSelect | getRefund | selectProviderPaymentId =>
    rw [h.1]
    exact newChange_of_nil rfl
  | createIdempotentPayment =>
    rcases h with ⟨id, event, c', -, -, -, -, rfl, rfl⟩ | ⟨row, -, -, -, rfl⟩ <;>
      exact newChange_of_nil rfl
  | recordTransition =>
    obtain ⟨row, -, ⟨-, rfl⟩ | ⟨-, prov, fail, event, outbox, -, -, rfl⟩⟩ := h <;>
      exact newChange_of_nil rfl
  | recordAwaitingWebhook =>
    obtain ⟨row, -, ⟨-, rfl⟩ | ⟨-, prov, event, -, rfl⟩⟩ := h <;> exact newChange_of_nil rfl
  | recordRetry =>
    obtain ⟨row, -, ⟨-, rfl⟩ | ⟨-, event, rfl⟩⟩ := h <;> exact newChange_of_nil rfl
  | receiveProviderWebhook =>
    obtain ⟨eventId, -, rfl⟩ | ⟨w, eventId, field, p, row, status, -, -, -, -, -, -, -, h⟩ := h
    · exact newChange_of_nil rfl
    rcases h with ⟨-, -, rfl⟩ | ⟨-, -, provider, event, outbox, -, rfl⟩ <;>
      exact newChange_of_nil rfl
  | reconcileOne =>
    obtain ⟨-, rfl⟩ | ⟨-, row, event, outbox, -, -, rfl⟩ := h <;> exact newChange_of_nil rfl
  | createRefund p m k a =>
    obtain ⟨row, id, c, e₁, e₂, e₃, -, hid, -, -, -, -, -, -, -, rfl, rfl⟩ | ⟨_, -, -, rfl⟩ := h
    · rw [newChanges_single rfl]
      split_ifs with hq
      · obtain ⟨rfl, -⟩ := hq
        exact .created hid rfl
      · exact .none
    · exact newChange_of_nil rfl
  | recordRefundTransition q' type new provider failure =>
    obtain ⟨row, hrow, ⟨-, rfl⟩ | ⟨hv, prov, event, outbox, rfl⟩⟩ := h
    · exact newChange_of_nil rfl
    · rw [newChanges_single rfl]
      split_ifs with hq
      · obtain ⟨rfl, -⟩ := hq
        obtain rfl := refund_id hrow
        exact .moved rfl hrow hv rfl
      · exact .none
  | recordRefundRetry q' reason =>
    obtain rfl | ⟨row, event, hrow, hs, rfl⟩ := h
    · exact newChange_of_nil rfl
    · rw [newChanges_single rfl, if_neg (by simp [isChange, isRetry])]
      exact .none
  | completeSuccessfulRefund =>
    obtain ⟨refund, row, total, event, outbox, -, -, -, -, rfl⟩ := h
    exact newChange_of_nil rfl
  | restorePaymentAfterFailedRefund =>
    obtain ⟨rfl, -⟩ | ⟨refund, row, -, -, -, rfl⟩ := h <;> exact newChange_of_nil rfl

/-! ### Where a transition is called -/

/-- The status before the new one has been committed. -/
def MayCall : Block → Db → Prop
  | .recordRefundTransition q _ new _ _, D =>
    ∃ row, D.refund? q = some row ∧ placed new ≤ placed row.status + 1
  | _, _ => True

/-- How the database moves on: changes are added. -/
structure Extends (D D' : Db) : Prop extends Le D D' where
  changes : ∀ q, changes D q <+: changes D' q

theorem moves_extends (P : Platform) :
    Machine.Moves (payflow P) rely (contract P) Terms.any Extends where
  refl D := ⟨.refl D, fun _ => List.prefix_refl _⟩
  trans h h' := ⟨h.toLe.trans h'.toLe, fun q => (h.changes q).trans (h'.changes q)⟩
  commit hi hreq hdoes _ := ⟨(keep_of_does hi hreq hdoes).2,
    fun q => ⟨_, (changes_applyAll _ _ q).symm⟩⟩

theorem placed_le {st st' : RefundStatus} (h : RefundStatus.Le st st') : placed st ≤ placed st' := by
  rcases h with rfl | rfl | ⟨rfl, hne⟩
  · exact Nat.le_refl _
  · cases st' <;> simp [placed]
  · cases st' <;> simp_all [placed]

theorem mayCall_mono (b : Block) (D D' : Db) (hD : Extends D D') (h : MayCall b D) :
    MayCall b D' := by
  cases b with
  | recordRefundTransition q type new provider failure =>
    obtain ⟨row, hrow, hplaced⟩ := h
    obtain ⟨row', hrow', cols, rfl, hst⟩ := hD.toLe.refund hrow
    have hle : placed row.status ≤ placed cols.status := placed_le hst
    exact ⟨_, hrow', by
      show placed new ≤ placed cols.status + 1
      omega⟩
  | _ => trivial

/-- From the database `D` on the program records a status of a refund only after the one before. -/
abbrev InTurn (P : Platform) {α : Type} (prog : Proc α) (D : Db) : Prop :=
  Machine.Calls (payflow P) rely (contract P) Extends MayCall prog D

section programs

variable {α : Type}

theorem inTurn_txn {b : Block} {k : BRes b → Proc α} (hb : ∀ D, MayCall b D)
    (h : ∀ D' now ws r, Extends D D' → Extends D' (store.applyAll D' ws) → Does P b now D' ws r →
      InTurn P (k r) (store.applyAll D' ws)) : InTurn P ((txn b).bind k) D :=
  ⟨hb D, fun D' now ws r hD hi hreq hdoes =>
    h D' now ws r hD ((moves_extends P).commit hi hreq hdoes trivial) hdoes, fun _ => trivial⟩

theorem inTurn_last {type : EventType} {new : RefundStatus} {provider : Json}
    {failure : Option String} {b : Block} {a : α} (hb : ∀ D, MayCall b D) (hq : RefundBegun D q) :
    InTurn P ((txn (.recordRefundTransition q type new provider failure)).bind fun _ =>
      (txn b).bind fun _ => .pure a) D := by
  obtain ⟨row, hrow, hs⟩ := hq
  refine ⟨⟨row, hrow, ?_⟩, fun D' now ws r _ _ _ _ => inTurn_txn hb fun _ _ _ _ _ _ _ => trivial,
    fun _ => trivial⟩
  cases hst : row.status <;> cases new <;> simp_all [placed]

theorem inTurn_processRefundTry (hq : RefundBegun D q) (refund : Refund)
    (scenario : RefundScenario) : InTurn P (processRefundTry q refund scenario) D := by
  refine inTurn_txn (fun _ => trivial) fun D' now ws payment hD _ hdoes => ?_
  obtain ⟨rfl, -⟩ := hdoes
  have hq' : RefundBegun D' q := hq.le hD.toLe
  cases Option.bind payment (·.providerPaymentId) with
  | none => trivial
  | some providerPaymentId =>
    intro out
    refine Machine.Calls.bind (moves_extends P) ?_ fun body D'' hD' => ?_
    · exact Machine.Calls.of_uses (S := fun _ => False) (fun _ h => h.elim)
        uses_providerResponse
    · have hq'' : RefundBegun D'' q := hq'.le hD'.toLe
      refine Machine.Calls.ofExcept fun status => Machine.Calls.ofExcept fun provider => ?_
      exact Machine.Calls.ite (fun _ => inTurn_last (fun _ => trivial) hq'')
        fun _ => inTurn_last (fun _ => trivial) hq''

theorem inTurn_processRefundExcept (hq : RefundBegun D q) (retries : ℕ) (scenario : RefundScenario)
    (e : Exn) : InTurn P (processRefundExcept retries q scenario e) D := by
  unfold processRefundExcept
  split
  · refine inTurn_txn (fun _ => trivial) fun D' now ws r hD hD' _ => ?_
    refine Machine.Calls.ite (fun _ => ?_) fun _ => ?_
    · exact inTurn_last (fun _ => trivial) ((hq.le hD.toLe).le hD'.toLe)
    · exact Machine.Calls.of_uses (S := fun o => ∃ e, o = .ext e)
        (fun _ ⟨_, h⟩ => nomatch h) (uses_retry ⟨_, rfl⟩)
  · exact inTurn_last (fun _ => trivial) hq
  · trivial

/-- **process_refund** records the statuses of its refund in turn. -/
theorem inTurn_processRefund (retries : ℕ) (q : Uuid) (scenario : RefundScenario) :
    InTurn P (processRefund retries q scenario) D := by
  refine inTurn_txn (fun _ => trivial) fun D' now ws found hD _ hdoes => ?_
  obtain ⟨rfl, D₀, -, hle, hfound⟩ := hdoes
  cases found with
  | none => trivial
  | some refund =>
    obtain ⟨refund', hq, -⟩ := hle.refund hfound
    have hrest : ∀ D', RefundBegun D' q → InTurn P ((processRefundTry q refund scenario).handle
        (processRefundExcept retries q scenario)) D' := fun D' hq =>
      Machine.Calls.handle (moves_extends P) (inTurn_processRefundTry hq refund scenario)
        fun e D'' hD' => inTurn_processRefundExcept (hq.le hD'.toLe) retries scenario e
    refine Machine.Calls.ite (fun _ => trivial) fun _ => Machine.Calls.ite (fun _ => trivial)
      fun _ => Machine.Calls.ite (fun _ => ?_) fun hs => ?_
    · -- the refund is there, so its second status may be recorded
      refine ⟨⟨refund', hq, ?_⟩, fun D₁ now ws r _ _ _ hdoes => hrest _ ?_, fun _ => trivial⟩
      · cases refund'.status <;> simp [placed]
      · obtain ⟨row, hrow, ⟨hs, rfl⟩ | ⟨-, provider, event, outbox, rfl⟩⟩ := hdoes
        · exact ⟨row, hrow, by simp [hs]⟩
        · obtain rfl := refund_id hrow
          exact ⟨_, refund?_update_self hrow _, by simp⟩
    · exact hrest D' (RefundBegun.le ⟨refund, hfound, hs⟩ hle)

end programs

theorem mayCall_of_operations {w : World} {x : Start P} (h : operations w x (.txn b))
    (hx : ∀ i, x = .task i → ∀ q scenario, taskOf w i ≠ some (.processRefund q scenario))
    (D : Db) : MayCall b D := by
  cases b with
  | recordRefundTransition q type new provider failure =>
    cases x with
    | task i =>
      obtain ⟨m, hm, hop⟩ := h
      have htask := hx i rfl
      simp only [taskOf, hm, Option.map_some, ne_eq, Option.some.injEq] at htask
      cases ht : m.task with
      | processRefund q' scenario => exact absurd ht (htask q' scenario)
      | processPayment p scenario =>
        rw [ht] at hop
        exact hop.elim
    | _ => exact h.elim
  | _ => trivial

theorem inTurn_start {w : World} {x : Start P} {prog : Proc Ans}
    (hstart : start P w x = some prog) : InTurn P prog D := by
  by_cases hx : ∃ i q scenario, x = .task i ∧ taskOf w i = some (.processRefund q scenario)
  · obtain ⟨i, q, scenario, rfl, htask⟩ := hx
    obtain ⟨m, hm, ht⟩ := Option.map_eq_some_iff.mp htask
    simp only [start, hm] at hstart
    split_ifs at hstart
    obtain rfl := Option.some.inj hstart
    simp only [runTask, ht]
    exact Machine.Calls.bind (moves_extends P) (inTurn_processRefund _ _ _) fun _ _ _ => trivial
  · refine Machine.Calls.of_uses (fun b hop => mayCall_of_operations hop ?_) (uses_start hstart)
    rintro i rfl q scenario htask
    exact hx ⟨i, q, scenario, rfl, htask⟩

/-! ### When it begins -/

/-- The changes before the new one are from the time `now` or earlier. -/
def Preceded : Block → ℕ → Db → Prop
  | .recordRefundTransition q _ new _ _, now, D => placed new ≤ (changes D q).length + 1 ∧
    ∀ e ∈ (changes D q).take (placed new - 1), e.createdAt ≤ now
  | _, _, _ => True

theorem preceded_mono (b : Block) (now : ℕ) (D D' : Db) (hD : Extends D D')
    (h : Preceded b now D) : Preceded b now D' := by
  cases b with
  | recordRefundTransition q type new provider failure =>
    obtain ⟨hlen, hbefore⟩ := h
    obtain ⟨es, he⟩ := hD.changes q
    have htake : (changes D' q).take (placed new - 1) = (changes D q).take (placed new - 1) := by
      rw [← he, List.take_append_of_le_length (by omega)]
    refine ⟨?_, by rwa [htake]⟩
    rw [← he, List.length_append]
    omega
  | _ => trivial

theorem refundsCounted_of_reachable {s : State P} (h : Reachable P s) : RefundsCounted s.db :=
  db_invariant (I := RefundsCounted) (fun _ => rfl) (fun _ hreq hdoes _ ih => refundsCounted_step hreq hdoes ih)
    (reachableWhen_true h)

theorem now_le_of_atCommit {s : State P} (h : Reachable P s) {pid : ℕ} {b : Block} {now : ℕ}
    {ws : List Write} {r : BRes b} (hat : Machine.AtCommit s pid b now ws r) : now ≤ s.clock := by
  obtain ⟨x, ls, k, hp⟩ := hat
  exact ((good_of_reachable h).status _ (List.mem_of_getElem? hp) : Machine.OpenOk (payflow P) rely
    (contract P) s.db s.clock b ⟨.pure r, ws, ls, now⟩ k).now_le

theorem changes_clock {s : State P} (h : Reachable P s) (q : Uuid) :
    ∀ e ∈ changes s.db q, e.createdAt ≤ s.clock := by
  induction h with
  | refl => exact fun e he => by cases he
  | @step s s' a hr _ hs ih =>
    intro e he
    have hclock := Machine.clock_le hs
    rcases step_commit hr hs with hdb | ⟨pid, pick, b, now, ws, r, -, hat, -, hdoes, hdb⟩
    · rw [hdb] at he
      exact (ih e he).trans hclock
    · rw [hdb, changes_applyAll, List.mem_append] at he
      rcases he with he | he
      · exact (ih e he).trans hclock
      · have hnow := now_le_of_atCommit hr hat
        have hnew := newChange_of_does hdoes q
        generalize newChanges ws q = es at hnew he
        cases hnew with
        | none => cases he
        | created _ hat | moved _ _ _ hat =>
          obtain rfl := List.mem_singleton.mp he
          omega

/-- **When a status is recorded**, the changes before are there, from before the start. -/
theorem preceded_of_open {s : State P} (h : Reachable P s) {pid : ℕ} {x : Start P} {b : Block}
    {t : Txn Write Lock Stmt SRes Exn (BRes b)} {k : Except Exn (BRes b) → Proc Ans}
    (hp : s.procs[pid]? = some ⟨x, .inTxn b t k⟩) : Preceded b t.now s.db := by
  refine Machine.ReachableBy.opened (fulfils P) (moves_extends P) preceded_mono (good_init P) rfl
    (fun {s pid x b k} hr hp => ?_) h hp
  have hcall : MayCall b s.db := by
    have hcalls := Machine.ReachableBy.calls (fulfils P) (moves_extends P) mayCall_mono (good_init P)
      rfl (fun _ hstart => inTurn_start hstart) hr hp
    exact hcalls.1
  cases b with
  | recordRefundTransition q type new provider failure =>
    obtain ⟨row, hrow, hplaced⟩ := hcall
    have hcount := refundsCounted_of_reachable hr q
    rw [hrow] at hcount
    have hcount : (changes s.db q).length = placed row.status := hcount
    exact ⟨by omega, fun e he => changes_clock hr q e (List.mem_of_mem_take he)⟩
  | _ => trivial

/-! ### In order -/

/-- **The changes are chronological**: the changes of a refund have been created in the order of
their commits. -/
theorem changes_ordered {s : State P} (h : Reachable P s) (q : Uuid) :
    (changes s.db q).Pairwise fun e e' => e.createdAt ≤ e'.createdAt := by
  induction h with
  | refl => exact .nil
  | @step s s' a hr _ hs ih =>
    rcases step_commit hr hs with hdb | ⟨pid, pick, b, now, ws, r, -, hat, hreq, hdoes, hdb⟩
    · rwa [hdb]
    · have hnew := newChange_of_does hdoes q
      rw [hdb, changes_applyAll]
      generalize newChanges ws q = es at hnew
      cases hnew with
      | none => rwa [List.append_nil]
      | created hnone hat =>
        have hcount := refundsCounted_of_reachable hr q
        rw [hnone] at hcount
        rw [List.eq_nil_of_length_eq_zero hcount]
        exact List.pairwise_singleton _ _
      | @moved type new provider failure row e hb hrow hv hcreated =>
        subst hb
        obtain ⟨x, ls, k, hp⟩ := hat
        obtain ⟨-, hbefore⟩ := preceded_of_open hr hp
        have hcount := refundsCounted_of_reachable hr q
        rw [hrow] at hcount
        have hcount : (changes s.db q).length = placed row.status := hcount
        have hplaced : placed new = placed row.status + 1 := by
          generalize row.status = st at hv
          cases st <;> cases new <;> simp_all [validRefundTransitions, placed]
        rw [hplaced, Nat.add_sub_cancel, ← hcount, List.take_length] at hbefore
        refine List.pairwise_append.mpr ⟨ih, List.pairwise_singleton _ _, fun e₁ he₁ e₂ he₂ => ?_⟩
        obtain rfl := List.mem_singleton.mp he₂
        rw [hcreated]
        exact hbefore e₁ he₁

/-- **The history of a refund is shown in order.** Of what `retrieve_refund_events` shows, the
changes of the status have the times that they have in the order of their commits; if these are
different, the changes are shown in that order. -/
theorem refund_changes_in_order {s : State P} (h : Reachable P s) {tie : Uuid → ℕ} {D₁ : Db}
    {m : String} {events : List RefundEvent}
    (hshown : retrieveRefundEvents tie D₁ s.db q m = .ok events) :
    events.Perm (refundLedger s.db q) ∧
    (events.filter isChange).map (·.createdAt) = (changes s.db q).map (·.createdAt) ∧
    (((changes s.db q).map (·.createdAt)).Nodup → events.filter isChange = changes s.db q) := by
  unfold retrieveRefundEvents at hshown
  split at hshown
  · cases hshown
  obtain rfl := Except.ok.inj hshown
  have htotal := timeOrder_total (fun e : RefundEvent => e.createdAt) (·.id) tie
  have htrans := timeOrder_trans (fun e : RefundEvent => e.createdAt) (·.id) tie
  set events := (refundLedger s.db q).insertionSort
    (timeOrder (fun e : RefundEvent => e.createdAt) (·.id) tie)
  have hperm : events.Perm (refundLedger s.db q) := List.perm_insertionSort _ _
  have hchanges : (events.filter isChange).Perm (changes s.db q) := hperm.filter _
  have hordered := changes_ordered h q
  have hsorted : (events.filter isChange).Pairwise
      (timeOrder (fun e : RefundEvent => e.createdAt) (·.id) tie) :=
    (List.pairwise_insertionSort _ _).sublist List.filter_sublist
  refine ⟨hperm, ?_, fun hnodup => ?_⟩
  · refine List.Perm.eq_of_pairwise (fun a b _ _ hab hba => Nat.le_antisymm hab hba) ?_ ?_
      (hchanges.map _)
    · refine List.pairwise_map.mpr (hsorted.imp fun {a b} hab => ?_)
      rcases hab with hlt | ⟨he, -⟩
      · exact Nat.le_of_lt hlt
      · exact Nat.le_of_eq he
    · exact List.pairwise_map.mpr hordered
  · have hincreasing : (changes s.db q).Pairwise fun e e' => e.createdAt < e'.createdAt := by
      have hne := List.pairwise_map.mp hnodup
      exact hordered.imp₂ (fun _ _ hle hne => Nat.lt_of_le_of_ne hle hne) hne
    refine List.Perm.eq_of_pairwise (fun a b ha hb hab hba => ?_) hsorted
      (hincreasing.imp fun hlt => Or.inl hlt) hchanges
    refine List.inj_on_of_nodup_map hnodup (hchanges.subset ha) hb ?_
    rcases hab with hlt | ⟨he, -⟩
    · rcases hba with hlt' | ⟨he', -⟩
      · exact absurd hlt (Nat.lt_asymm hlt')
      · exact he'.symm
    · exact he

/-- A refund that succeeds, while time passes. -/
def slowRefund : List Act :=
  createRefundScript 2 partialRefund 10 ++ [.tick 1] ++ startRefundScript 3 1 14 ++ [.tick 1] ++
    succeedRefundScript 3 16

/-- The status changes of a refund, as they are shown. -/
theorem refund_changes_in_order_slow : ∃ (s : State examplePlatform) (events : List RefundEvent),
    retrieveRefundEvents (fun _ => 0) s.db s.db (exampleUuid 10) "demo-merchant" = .ok events ∧
    (changes s.db (exampleUuid 10)).map (fun e => (e.createdAt, e.newStatus)) =
      [(0, .created), (1, .processing), (2, .succeeded)] ∧
    events.filter isChange = changes s.db (exampleUuid 10) := by
  have h : ((payflow examplePlatform).run (init _) (onePayment ++ slowRefund)).map (fun s =>
      ((retrieveRefundEvents (fun _ => 0) s.db s.db (exampleUuid 10) "demo-merchant").isOk,
      (changes s.db (exampleUuid 10)).map fun e => (e.createdAt, e.newStatus))) =
      some (true, [(0, .created), (1, .processing), (2, .succeeded)]) := by decide +kernel
  obtain ⟨s, hs, h⟩ := Option.map_eq_some_iff.mp h
  obtain ⟨hok, hchanges⟩ := Prod.mk.inj h
  cases hshown : retrieveRefundEvents (fun _ => 0) s.db s.db (exampleUuid 10) "demo-merchant" with
  | error e =>
    rw [hshown] at hok
    cases hok
  | ok events =>
    refine ⟨s, events, hshown, hchanges, (refund_changes_in_order (.run hs) hshown).2.2 ?_⟩
    have htimes := congrArg (List.map Prod.fst) hchanges
    rw [List.map_map] at htimes
    rw [show (changes s.db (exampleUuid 10)).map (·.createdAt) = [0, 1, 2] from htimes]
    decide

end Payflow.Safety
