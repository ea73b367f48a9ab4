import Payflow.Spec.Events

/-! # What a commit books

`Booked` says of one payment and one commit how its row, its part of `payment_events` and the new
rows of `outbox_events` go together: a change of its status has one event, which has found the old
status and left the new one, and an outbox row that names the payment. One transaction does not book
what it does: `restore_payment_after_failed_refund`. -/

namespace Payflow.Spec

open Payflow.Lib Payflow.Model

/-- The new outbox row of a write. -/
def newOutboxEvent? : Write → Option OutboxEvent
  | .insertOutboxEvent row => some row
  | _ => none

theorem outboxEvents_applyAll (ws : List Write) (D : Db) :
    (store.applyAll D ws).outboxEvents = D.outboxEvents ++ ws.filterMap newOutboxEvent? :=
  Store.rows_applyAll (fun D w => by cases w <;> simp [store, Db.apply, newOutboxEvent?]) ws D

/-- The outbox row names the id: as its aggregate, or in the field of its payload. -/
def names (field : String) (id : Uuid) (o : OutboxEvent) : Bool :=
  o.aggregateId = id ∨ (o.payload.getItem field).toOption.any fun v => v.isStr id.text

/-- The rows of `payment_events` about a payment, in the order of their commits. -/
def ledger (D : Db) (p : Uuid) :
    List PaymentEvent := D.paymentEvents.filter fun e => e.paymentId = p

theorem ledger_applyAll (ws : List Write) (D : Db) (p : Uuid) :
    ledger (store.applyAll D ws) p = ledger D p ++
      (ws.filterMap newPaymentEvent?).filter fun e => e.paymentId = p := by
  unfold ledger
  rw [paymentEvents_applyAll, List.filter_append]

/-- A payment before and after a commit, with its new events and all new outbox rows. -/
inductive Booked (D : Db) (p : Uuid) (b : Block) :
    Option Payment → Option Payment → List PaymentEvent → List OutboxEvent → Prop
  | untouched {before after os} : after.map (·.status) = before.map (·.status) →
      Booked D p b before after [] os
  | created {row' e os} : e.eventType = .paymentCreated → e.previousStatus = none →
      e.newStatus = .created → row'.status = .created → Booked D p b none (some row') [e] os
  | noted {row row' e os} : row'.status = row.status → e.previousStatus = some row.status →
      e.newStatus = row.status → Booked D p b (some row) (some row') [e] os
  | moved {row row' e o} : e.previousStatus = some row.status → e.newStatus = row'.status →
      names "payment_id" p o = true → Booked D p b (some row) (some row') [e] [o]
  | released {q refund row row'} : b = .restorePaymentAfterFailedRefund q →
      D.refund? q = some refund → refund.paymentId = p → row.status = .refundPending →
      row'.status = .succeeded → Booked D p b (some row) (some row') [] []

section booked

variable {D D' : Db} {p : Uuid} {b : Block}

theorem booked_stay (h : D'.payments = D.payments) {os : List OutboxEvent} :
    Booked D p b (D.payment? p) (D'.payment? p) [] os := by
  refine .untouched ?_
  unfold Db.payment?
  rw [h]

/-- A commit that updates one payment and writes events about it. -/
theorem booked_update {id : Uuid} {row : Payment} (hrow : D.payment? id = some row)
    {cols : PaymentCols} (hD' : D'.payments = (D.apply (.updatePayment id cols)).payments)
    {es : List PaymentEvent} (hes : ∀ e ∈ es, e.paymentId = id) {os : List OutboxEvent}
    (h : Booked D id b (some row) (some { row with toPaymentCols := cols }) es os) :
    Booked D p b (D.payment? p) (D'.payment? p) (es.filter fun e => e.paymentId = p) os := by
  have hp : D'.payment? p = (D.apply (.updatePayment id cols)).payment? p := by
    unfold Db.payment?
    rw [hD']
  rw [hp]
  by_cases hid : id = p
  · subst hid
    have hall : es.filter (fun e => e.paymentId = id) = es :=
      List.filter_eq_self.mpr fun e he => by simp [hes e he]
    rw [payment?_update_self hrow, hrow, hall]
    exact h
  · have hnone : es.filter (fun e => e.paymentId = p) = [] :=
      List.filter_eq_nil_iff.mpr fun e he => by simp [hes e he, hid]
    rw [hnone, payment?_update]
    refine .untouched ?_
    cases hp₀ : D.payment? p with
    | none => rfl
    | some row₀ =>
      have hne : ¬ row₀.id = id := fun he => hid (he.symm.trans (payment_id hp₀))
      simp [hne]

end booked

theorem names_aggregate {field : String} {id o : Uuid} {now : ℕ} {type : EventType}
    {payload : Json} :
    names field id (newOutboxEvent now o id type payload) = true := by
  simp [names, newOutboxEvent]

/-- **What a commit books** for a payment. -/
theorem booked_of_does {P : Platform} {b : Block} {now : ℕ} {D : Db} {ws : List Write} {r : BRes b}
    (h : Does P b now D ws r) (p : Uuid) :
    Booked D p b (D.payment? p) ((store.applyAll D ws).payment? p)
      ((ws.filterMap newPaymentEvent?).filter fun e => e.paymentId = p)
      (ws.filterMap newOutboxEvent?) := by
  cases b with
  | getExistingPayment | getPayment | reconcileSelect | getRefund | selectProviderPaymentId =>
    rw [h.1]
    exact booked_stay rfl
  | createIdempotentPayment m k hash u a c =>
    rcases h with ⟨id, event, c', -, hid, -, -, rfl, rfl⟩ | ⟨row, -, -, -, rfl⟩
    · by_cases hne : id = p
      · subst hne
        have hnew : D.payment? (newPayment now id m k hash u a c').id = none := hid
        have hself := payment?_insert_self hnew
        have hself : (store.applyAll D [.insertPayment (newPayment now id m k hash u a c'),
            .insertPaymentEvent ⟨event, id, .paymentCreated, none, .created, .obj [],
              now⟩]).payment? id =
            some (newPayment now id m k hash u a c') := hself
        rw [hself, hid]
        simp only [List.filterMap_cons, List.filterMap_nil, newPaymentEvent?, newOutboxEvent?,
          List.filter_cons, decide_true, if_true, List.filter_nil]
        exact .created rfl rfl rfl rfl
      · have hsame : (store.applyAll D [.insertPayment (newPayment now id m k hash u a c'),
            .insertPaymentEvent ⟨event, id, .paymentCreated, none, .created, .obj [],
              now⟩]).payment? p =
            D.payment? p := payment?_insert hne
        rw [hsame]
        simp only [List.filterMap_cons, List.filterMap_nil, newPaymentEvent?, newOutboxEvent?,
          List.filter_cons, hne, decide_false, Bool.false_eq_true, if_false, List.filter_nil]
        exact .untouched rfl
    · exact booked_stay rfl
  | recordTransition q type new provider failure =>
    obtain ⟨row, hrow, ⟨-, rfl⟩ | ⟨-, prov, fail, event, outbox, -, -, rfl⟩⟩ := h
    · exact booked_stay rfl
    · obtain rfl := payment_id hrow
      refine booked_update hrow rfl (List.forall_mem_singleton.mpr rfl) ?_
      exact .moved rfl rfl names_aggregate
  | recordAwaitingWebhook q provider =>
    obtain ⟨row, hrow, ⟨-, rfl⟩ | ⟨hs, prov, event, -, rfl⟩⟩ := h
    · exact booked_stay rfl
    · refine booked_update hrow rfl (List.forall_mem_singleton.mpr rfl) ?_
      exact .noted rfl (by rw [hs]) hs.symm
  | recordRetry q reason =>
    obtain ⟨row, hrow, ⟨-, rfl⟩ | ⟨hs, event, rfl⟩⟩ := h
    · exact booked_stay rfl
    · refine booked_update hrow rfl (List.forall_mem_singleton.mpr rfl) ?_
      exact .noted rfl (by rw [hs]) hs.symm
  | receiveProviderWebhook payload =>
    obtain ⟨eventId, -, rfl⟩ | ⟨w, eventId, field, q, row, status, -, -, -, -, -, hrow, -, h⟩ := h
    · exact booked_stay rfl
    rcases h with ⟨-, -, rfl⟩ | ⟨-, hs, provider, event, outbox, -, rfl⟩
    · exact booked_stay rfl
    · obtain rfl := payment_id hrow
      refine booked_update hrow rfl (List.forall_mem_singleton.mpr rfl) ?_
      exact .moved rfl rfl names_aggregate
  | reconcileOne q status =>
    obtain ⟨-, rfl⟩ | ⟨-, row, event, outbox, hrow, hs, rfl⟩ := h
    · exact booked_stay rfl
    · obtain rfl := payment_id hrow
      refine booked_update hrow rfl (List.forall_mem_singleton.mpr rfl) ?_
      exact .moved (by rw [hs]) rfl names_aggregate
  | createRefund q m k a =>
    obtain ⟨row, id, c, e₁, e₂, e₃, -, -, hrow, -, hs, -, -, -, -, rfl, rfl⟩ | ⟨_, -, -, rfl⟩ := h
    · obtain rfl := payment_id hrow
      refine booked_update hrow rfl (List.forall_mem_singleton.mpr rfl) ?_
      refine .moved (by rw [hs]) rfl ?_
      simp [names, newOutboxEvent, Json.getItem, Json.isStr, Except.toOption, List.lookup_cons]
    · exact booked_stay rfl
  | recordRefundTransition q type new provider failure =>
    obtain ⟨row, -, ⟨-, rfl⟩ | ⟨-, prov, event, outbox, rfl⟩⟩ := h <;> exact booked_stay rfl
  | recordRefundRetry q reason =>
    obtain rfl | ⟨row, event, -, -, rfl⟩ := h <;> exact booked_stay rfl
  | completeSuccessfulRefund q =>
    obtain ⟨refund, row, total, event, outbox, -, hrow, -, -, rfl⟩ := h
    have hrow : D.payment? row.id = some row := payment_id hrow ▸ hrow
    refine booked_update hrow rfl (List.forall_mem_singleton.mpr rfl) ?_
    exact .moved rfl rfl names_aggregate
  | restorePaymentAfterFailedRefund q =>
    obtain ⟨rfl, -⟩ | ⟨refund, row, hq, hrow, hs, rfl⟩ := h
    · exact booked_stay rfl
    · have hid := payment_id hrow
      have hrow : D.payment? row.id = some row := hid ▸ hrow
      refine booked_update hrow rfl (List.forall_mem_nil _) ?_
      exact .released rfl hq hid.symm hs rfl

end Payflow.Spec
