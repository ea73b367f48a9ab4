import Payflow.Spec.Ledger
import Payflow.Lib.Trail

/-! # The ledger of a refund is exact

`refund_events` records every change of a refund's status and every retry. `RefundBooked` says of
one refund and one commit how its row and its new event go together; the deliveries that overlap are
kept apart by the guards of the four writers, each on the row it has locked. -/

namespace Payflow.Safety

open Payflow.Lib Payflow.Model Payflow.Spec

variable {P : Platform} {D D' : Db} {q : Uuid}

/-! ### What a commit books -/

/-- The new event of a write. -/
def newRefundEvent? : Write → Option RefundEvent
  | .insertRefundEvent row => some row
  | _ => none

theorem refundEvents_applyAll (ws : List Write) (D : Db) :
    (store.applyAll D ws).refundEvents = D.refundEvents ++ ws.filterMap newRefundEvent? :=
  Store.rows_applyAll (fun D w => by cases w <;> simp [store, Db.apply, newRefundEvent?]) ws D

/-- The rows of `refund_events` about a refund, in the order of their commits. -/
def refundLedger (D : Db) (q : Uuid) : List RefundEvent :=
  D.refundEvents.filter fun e => e.refundId = q

theorem refundLedger_applyAll (ws : List Write) (D : Db) (q : Uuid) :
    refundLedger (store.applyAll D ws) q = refundLedger D q ++
      (ws.filterMap newRefundEvent?).filter fun e => e.refundId = q := by
  unfold refundLedger
  rw [refundEvents_applyAll, List.filter_append]

/-- The event of a retry. -/
def isRetry (e : RefundEvent) : Bool := e.eventType = .refundRetryScheduled

/-- `failure_code` is set exactly on a refund that has failed, once the refund has ended. -/
def FailureOk (row : Refund) : Prop :=
  (row.status = .succeeded → row.failureCode = none) ∧
    (row.status = .failed → row.failureCode ≠ none)

/-- A refund before and after a commit, with its new events. -/
inductive RefundBooked : Option Refund → Option Refund → List RefundEvent → Prop
  | untouched {row?} : RefundBooked row? row? []
  | created {row e} : e.eventType = .refundCreated → e.previousStatus = none →
      e.newStatus = .created → row.status = .created → row.retryCount = 0 →
      RefundBooked none (some row) [e]
  | moved {row row' e} : isRetry e = false → e.previousStatus = some row.status →
      e.newStatus = row'.status → row'.status ∈ validRefundTransitions row.status →
      row'.retryCount = row.retryCount → FailureOk row' →
      RefundBooked (some row) (some row') [e]
  | retried {row row' e} : isRetry e = true → row.status = .processing →
      row'.status = .processing → e.previousStatus = some .processing → e.newStatus = .processing →
      row'.retryCount = row.retryCount + 1 →
      e.metadata.getItem "retry_number" = .ok (.int (row.retryCount + 1 : ℕ)) →
      RefundBooked (some row) (some row') [e]

theorem refundBooked_stay (h : D'.refunds = D.refunds) :
    RefundBooked (D.refund? q) (D'.refund? q) [] := by
  have hsame : D'.refund? q = D.refund? q := by
    unfold Db.refund?
    rw [h]
  rw [hsame]
  exact .untouched

/-- A commit that updates one refund and writes an event about it. -/
theorem refundBooked_update {id : Uuid} {row : Refund} (hrow : D.refund? id = some row)
    {cols : RefundCols} (hD' : D'.refunds = (D.apply (.updateRefund id cols)).refunds)
    {e : RefundEvent} (he : e.refundId = id)
    (h : RefundBooked (some row) (some { row with toRefundCols := cols }) [e]) :
    RefundBooked (D.refund? q) (D'.refund? q) ([e].filter fun e => e.refundId = q) := by
  have hq : D'.refund? q = (D.apply (.updateRefund id cols)).refund? q := by
    unfold Db.refund?
    rw [hD']
  rw [hq]
  by_cases hid : id = q
  · subst hid
    have hall : [e].filter (fun e => e.refundId = id) = [e] := by simp [he]
    rw [refund?_update_self hrow, hrow, hall]
    exact h
  · have hnone : [e].filter (fun e => e.refundId = q) = [] := by simp [he, hid]
    rw [hnone, refund?_update]
    cases hq₀ : D.refund? q with
    | none => exact .untouched
    | some row₀ =>
      have hne : ¬ row₀.id = id := fun he => hid (he.symm.trans (refund_id hq₀))
      rw [Option.map_some, if_neg hne]
      exact .untouched

/-- **What a commit books** for a refund. -/
theorem refundBooked_of_does {b : Block} {now : ℕ} {ws : List Write} {r : BRes b}
    (hreq : Requires b D) (h : Does P b now D ws r) (q : Uuid) :
    RefundBooked (D.refund? q) ((store.applyAll D ws).refund? q)
      ((ws.filterMap newRefundEvent?).filter fun e => e.refundId = q) := by
  cases b with
  | getExistingPayment | getPayment | reconcileSelect | getRefund | selectProviderPaymentId =>
    rw [h.1]
    exact refundBooked_stay rfl
  | createIdempotentPayment =>
    rcases h with ⟨id, event, c', -, -, -, -, rfl, rfl⟩ | ⟨row, -, -, -, rfl⟩ <;>
      exact refundBooked_stay rfl
  | recordTransition =>
    obtain ⟨row, -, ⟨-, rfl⟩ | ⟨-, prov, fail, event, outbox, -, -, rfl⟩⟩ := h <;>
      exact refundBooked_stay rfl
  | recordAwaitingWebhook =>
    obtain ⟨row, -, ⟨-, rfl⟩ | ⟨-, prov, event, -, rfl⟩⟩ := h <;> exact refundBooked_stay rfl
  | recordRetry =>
    obtain ⟨row, -, ⟨-, rfl⟩ | ⟨-, event, rfl⟩⟩ := h <;> exact refundBooked_stay rfl
  | receiveProviderWebhook =>
    obtain ⟨eventId, -, rfl⟩ | ⟨w, eventId, field, p, row, status, -, -, -, -, -, -, -, h⟩ := h
    · exact refundBooked_stay rfl
    rcases h with ⟨-, -, rfl⟩ | ⟨-, -, provider, event, outbox, -, rfl⟩ <;>
      exact refundBooked_stay rfl
  | reconcileOne =>
    obtain ⟨-, rfl⟩ | ⟨-, row, event, outbox, -, -, rfl⟩ := h <;> exact refundBooked_stay rfl
  | createRefund p m k a =>
    obtain ⟨row, id, c, e₁, e₂, e₃, -, hid, -, -, -, -, -, -, -, rfl, rfl⟩ | ⟨_, -, -, rfl⟩ := h
    · have hrefund : (store.applyAll D (createRefundWrites now row
          (newRefund now id p m k a c) e₁ e₂ e₃)).refund? q =
          (D.apply (.insertRefund (newRefund now id p m k a c))).refund? q := rfl
      rw [hrefund]
      by_cases hne : id = q
      · subst hne
        have hnew : D.refund? (newRefund now id p m k a c).id = none := hid
        have hself := refund?_insert_self hnew
        have hid' : (newRefund now id p m k a c).id = id := rfl
        rw [hid'] at hself
        rw [hself, hid]
        simp only [createRefundWrites, List.filterMap_cons, List.filterMap_nil, newRefundEvent?,
          hid', List.filter_cons, decide_true, if_true, List.filter_nil]
        exact .created rfl rfl rfl rfl rfl
      · rw [refund?_insert hne]
        have hid' : (newRefund now id p m k a c).id = id := rfl
        simp only [createRefundWrites, List.filterMap_cons, List.filterMap_nil, newRefundEvent?,
          hid', List.filter_cons, hne, decide_false, Bool.false_eq_true, if_false, List.filter_nil]
        exact .untouched
    · exact refundBooked_stay rfl
  | recordRefundTransition q' type new provider failure =>
    obtain ⟨row, hrow, ⟨-, rfl⟩ | ⟨hv, prov, event, outbox, rfl⟩⟩ := h
    · exact refundBooked_stay rfl
    · obtain rfl := refund_id hrow
      refine refundBooked_update hrow rfl rfl ?_
      refine .moved ?_ rfl rfl hv rfl ⟨?_, ?_⟩
      · have htype := hreq.1
        cases type <;> simp [refundMoves, isRetry] at htype ⊢
      · rintro rfl
        simpa using hreq.2
      · rintro rfl
        have hsome := hreq.2
        rintro (rfl : failure = none)
        simp at hsome
  | recordRefundRetry q' reason =>
    obtain rfl | ⟨row, event, hrow, hs, rfl⟩ := h
    · exact refundBooked_stay rfl
    · refine refundBooked_update hrow rfl rfl ?_
      exact .retried rfl hs hs rfl rfl rfl rfl
  | completeSuccessfulRefund =>
    obtain ⟨refund, row, total, event, outbox, -, -, -, -, rfl⟩ := h
    exact refundBooked_stay rfl
  | restorePaymentAfterFailedRefund =>
    obtain ⟨rfl, -⟩ | ⟨refund, row, -, -, -, rfl⟩ := h <;> exact refundBooked_stay rfl

/-! ### The record -/

/-- The record of a refund: it begins with `REFUND_CREATED`, from no status to `CREATED`, and ends
with the status the refund has; only its last event ends the refund; the retries are counted in
their order; and `failure_code` fits the status. -/
structure RefundTrail (l : List RefundEvent) (row : Refund) : Prop where
  trail : Trail (fun e : RefundEvent => e.previousStatus) (·.newStatus)
    (fun e => e.eventType = .refundCreated ∧ e.newStatus = .created) l row.status
  ends : ∀ (i : ℕ) e, l[i]? = some e → e.newStatus = .succeeded ∨ e.newStatus = .failed →
    i + 1 = l.length
  retries : (l.filter isRetry).map (fun e => e.metadata.getItem "retry_number") =
    (List.range row.retryCount).map fun n => .ok (.int (n + 1 : ℕ))
  failure : FailureOk row

/-- A refund has an exact record, and what is no refund has none. -/
def RefundAudited (D : Db) (q : Uuid) : Prop :=
  (D.refund? q = none → refundLedger D q = []) ∧
    ∀ row, D.refund? q = some row → RefundTrail (refundLedger D q) row

theorem RefundTrail.not_ended {l : List RefundEvent} {row : Refund} (h : RefundTrail l row)
    (hs : row.status ≠ .succeeded ∧ row.status ≠ .failed) :
    ∀ e ∈ l, ¬ (e.newStatus = .succeeded ∨ e.newStatus = .failed) := by
  intro e he hend
  obtain ⟨i, hi⟩ := List.mem_iff_getElem?.mp he
  have hlen := h.ends i e hi hend
  have hlast : l.getLast? = some e := by
    rw [List.getLast?_eq_getElem?, ← hlen]
    exact hi
  have hstatus : e.newStatus = row.status := by
    have := h.trail.last
    rw [hlast] at this
    exact Option.some.inj this
  rw [hstatus] at hend
  rcases hend with hend | hend
  · exact hs.1 hend
  · exact hs.2 hend

theorem RefundTrail.snoc {l : List RefundEvent} {row row' : Refund} {e : RefundEvent}
    (h : RefundTrail l row) (hs : row.status ≠ .succeeded ∧ row.status ≠ .failed)
    (hprev : e.previousStatus = some row.status) (hnew : e.newStatus = row'.status)
    (hretries : ((l ++ [e]).filter isRetry).map (fun e => e.metadata.getItem "retry_number") =
      (List.range row'.retryCount).map fun n => .ok (.int (n + 1 : ℕ)))
    (hfail : FailureOk row') : RefundTrail (l ++ [e]) row' := by
  refine ⟨hnew ▸ h.trail.snoc hprev, fun i e' hi hend => ?_, hretries, hfail⟩
  rw [List.getElem?_append] at hi
  split_ifs at hi with hlt
  · exact absurd hend (h.not_ended hs e' (List.mem_of_getElem? hi))
  · have hlt' := (List.getElem?_eq_some_iff.mp hi).1
    rw [List.length_append, List.length_singleton] at *
    omega

theorem refundAudited_booked {es : List RefundEvent} (h : RefundAudited D q)
    (hled : refundLedger D' q = refundLedger D q ++ es)
    (hb : RefundBooked (D.refund? q) (D'.refund? q) es) : RefundAudited D' q := by
  obtain ⟨hnone, hsome⟩ := h
  unfold RefundAudited
  rw [hled]
  generalize hbefore : D.refund? q = before at hb
  generalize D'.refund? q = after at hb
  cases hb with
  | untouched =>
    rw [List.append_nil]
    exact ⟨fun hn => hnone (hbefore.trans hn), fun row hrow => hsome row (hbefore.trans hrow)⟩
  | @created row e htype hprev hnew hs hretry =>
    rw [hnone hbefore, List.nil_append]
    refine ⟨fun he => by simp at he, fun row' hrow' => ?_⟩
    obtain rfl := Option.some.inj hrow'
    refine ⟨?_, fun i e' hi _ => ?_, ?_, ?_⟩
    · have htrail : Trail (fun e : RefundEvent => e.previousStatus) (·.newStatus)
          (fun e => e.eventType = .refundCreated ∧ e.newStatus = .created) [e] e.newStatus :=
        .single ⟨htype, hnew⟩ hprev
      rw [hnew] at htrail
      rw [hs]
      exact htrail
    · have hlt := (List.getElem?_eq_some_iff.mp hi).1
      rw [List.length_singleton] at *
      omega
    · simp [isRetry, htype, hretry]
    · simp [FailureOk, hs]
  | @moved row row' e htype hprev hnew hvalid hretry hfail =>
    refine ⟨fun he => by simp at he, fun row₁ hrow₁ => ?_⟩
    obtain rfl := Option.some.inj hrow₁
    have hopen : row.status ≠ .succeeded ∧ row.status ≠ .failed := by
      constructor <;> intro hs <;> simp [hs, validRefundTransitions] at hvalid
    refine (hsome row hbefore).snoc hopen hprev hnew ?_ hfail
    rw [List.filter_append, hretry, ← (hsome row hbefore).retries]
    simp [htype]
  | @retried row row' e htype hs hs' hprev hnew hretry hnumber =>
    refine ⟨fun he => by simp at he, fun row₁ hrow₁ => ?_⟩
    obtain rfl := Option.some.inj hrow₁
    refine (hsome row hbefore).snoc (by simp [hs]) (hs ▸ hprev) (hnew.trans hs'.symm) ?_
      (by simp [FailureOk, hs'])
    rw [List.filter_append, List.map_append, (hsome row hbefore).retries, hretry,
      List.range_succ, List.map_append]
    simp [htype, hnumber]

/-- **The refund ledger is exact.** In every reachable state the events of a refund are an exact
record of it. -/
theorem refundLedger_exact {s : State P} (h : Reachable P s) :
    ∀ row ∈ s.db.refunds, RefundTrail (refundLedger s.db row.id) row := by
  intro row hrow
  have haudit : RefundAudited s.db row.id := db_invariant
    ⟨fun _ => rfl, fun row hrow => by simp [Db.refund?, Db.empty] at hrow⟩
    (fun _ hreq hdoes _ ha => refundAudited_booked ha (refundLedger_applyAll _ _ _)
      (refundBooked_of_does hreq hdoes _)) (reachableWhen_true h)
  exact haudit.2 row (find?_key_of_mem (inv_of_reachable h).refund_ids hrow)

/-- The record of a refund whose first request gets no reply. -/
theorem refundLedger_exact_retried : ∃ s : State examplePlatform,
    s.db.refunds.map (fun row => (row.status, row.retryCount, row.failureCode)) =
      [(.succeeded, 1, none)] ∧
    (refundLedger s.db (exampleUuid 10)).map (·.newStatus) =
      [.created, .processing, .processing, .succeeded] ∧
    ∀ row ∈ s.db.refunds, RefundTrail (refundLedger s.db row.id) row := by
  have h : ((payflow examplePlatform).run (init _) (onePayment ++
      createRefundScript 2 partialRefund 10 ++
      startRefundScript 3 1 14 ++ [.step 3 (.http .timeoutException)] ++ quiet 3 2 ++ draw 3 [16] ++
      quiet 3 1 ++ [.step 3 (.broker true)] ++ [.start (.task 2)] ++ quiet 4 6 ++
      succeedRefundScript 4 17 ++ completeScript 4 20)).map
      (fun s => (s.db.refunds.map (fun row => (row.status, row.retryCount, row.failureCode)),
        (refundLedger s.db (exampleUuid 10)).map (·.newStatus))) =
      some ([(.succeeded, 1, none)], [.created, .processing, .processing, .succeeded]) := by
    decide +kernel
  obtain ⟨s, hs, h⟩ := Option.map_eq_some_iff.mp h
  obtain ⟨hrows, hledger⟩ := Prod.mk.inj h
  exact ⟨s, hrows, hledger, refundLedger_exact (.run hs)⟩

end Payflow.Safety
