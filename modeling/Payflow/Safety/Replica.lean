import Payflow.Safety.Ledger
import Payflow.Safety.PublicationOrder

/-! # What a reader of the outbox knows

A reader gets the rows of `outbox_events` one after another, and nothing else. It keeps a table of
the refunds (`RefundView.read`), and the status of a payment (`readPayment`).

* `refunds_replicated`: its table of the refunds is the one of the database.
* `payment_replicated`: the status it has of a payment is the one in the database, but for one case:
  `restore_payment_after_failed_refund` tells nobody, so that after a failed refund the reader takes
  a payment that has `SUCCEEDED` for one that waits for its refund. -/

namespace Payflow.Safety

open Payflow.Lib Payflow.Model Payflow.Spec

variable {P : Platform}

/-! ### The reader -/

/-- A text in the payload of an event. -/
def textField (payload : Json) (key : String) : Option String :=
  match payload.getItem key with
  | .ok (.str t) => some t
  | _ => none

/-- A number in the payload of an event. -/
def intField (payload : Json) (key : String) : Option ℤ :=
  match payload.getItem key with
  | .ok (.int n) => some n
  | _ => none

/-- The status that the payload reports: its writers use two names for the field. -/
def reportedStatus (payload : Json) : Option String :=
  textField payload "new_status" <|> textField payload "status"

/-- What a reader knows of a refund. -/
structure RefundView where
  refundId : String
  paymentId : String
  amountCents : ℤ
  status : String
  deriving DecidableEq

/-- What it sees of a row. -/
def Refund.view (r : Refund) : RefundView :=
  ⟨r.id.text, r.paymentId.text, r.amountCents, r.status.text⟩

/-- One more event for the table of the refunds. -/
def RefundView.read (views : List RefundView) (o : OutboxEvent) : List RefundView :=
  match o.eventType with
  | .refundCreated =>
    match textField o.payload "refund_id", textField o.payload "payment_id",
      intField o.payload "amount_cents" with
    | some q, some p, some amount => views ++ [⟨q, p, amount, "CREATED"⟩]
    | _, _, _ => views
  | .refundProcessing | .refundSucceeded | .refundFailed =>
    match textField o.payload "refund_id", reportedStatus o.payload with
    | some q, some status =>
      setWhere (fun v => v.refundId = q) (fun v => { v with status := status }) views
    | _, _ => views
  | _ => views

/-- The event is about a payment itself. -/
def isPaymentType : EventType → Bool
  | .refundCreated | .refundProcessing | .refundSucceeded | .refundFailed
  | .refundRetryScheduled => false
  | _ => true

/-- One more event for the status of the payment `p`. -/
def readPayment (p : Uuid) (status : String) (o : OutboxEvent) : String :=
  if o.eventType = .refundCreated then
    if textField o.payload "payment_id" = some p.text then "REFUND_PENDING" else status
  else if isPaymentType o.eventType ∧ o.aggregateId = p then
    (reportedStatus o.payload).getD status
  else status

/-- The status that a reader has of a payment. -/
def paymentSeen (D : Db) (p : Uuid) : String := D.outboxEvents.foldl (readPayment p) "CREATED"

/-! ### The refunds -/

section refunds

variable {D : Db}

theorem refund_key {q : Uuid} (r : Refund) : decide ((Refund.view r).refundId = q.text) =
    decide (r.id = q) := by
  by_cases h : r.id = q
  · simp [Refund.view, h]
  · have hne : r.id.text ≠ q.text := fun he => h (Uuid.text_inj he)
    simp [Refund.view, h, hne]

theorem read_payment {o : OutboxEvent} (h : isPaymentType o.eventType = true)
    (views : List RefundView) : RefundView.read views o = views := by
  unfold RefundView.read
  cases ho : o.eventType <;> simp [ho, isPaymentType] at h ⊢

/-- The event of a transition is read as the update that the transaction makes. -/
theorem read_transition {now : ℕ} {id q : Uuid} {type : EventType} {p prev : String}
    {new : RefundStatus} (htype : (type, new) ∈ refundMoves) {cols : RefundCols}
    (hcols : cols.status = new) : RefundView.read (D.refunds.map Refund.view)
      (newOutboxEvent now id q type (.obj [("refund_id", .str q.text), ("payment_id", .str p),
        ("previous_status", .str prev), ("new_status", .str new.text)])) =
    (D.apply (.updateRefund q cols)).refunds.map Refund.view := by
  have hfields : textField (.obj [("refund_id", .str q.text), ("payment_id", .str p),
      ("previous_status", .str prev), ("new_status", .str new.text)]) "refund_id" = some q.text ∧
      reportedStatus (.obj [("refund_id", .str q.text), ("payment_id", .str p),
        ("previous_status", .str prev), ("new_status", .str new.text)]) = some new.text := by
    simp [textField, reportedStatus, Json.getItem, List.lookup_cons]
  have hview : (D.apply (.updateRefund q cols)).refunds.map Refund.view =
      setWhere (fun v => v.refundId = q.text) (fun v => { v with status := new.text })
        (D.refunds.map Refund.view) :=
    map_setWhere_view refund_key fun a _ _ => by simp [Refund.view, hcols]
  rw [hview]
  simp only [refundMoves, List.mem_cons, Prod.mk.injEq, List.not_mem_nil, or_false] at htype
  rcases htype with ⟨rfl, -⟩ | ⟨rfl, -⟩ | ⟨rfl, -⟩ <;>
    simp [RefundView.read, newOutboxEvent, hfields.1, hfields.2]

/-- **The events of a commit** are read as what the commit does to the refunds. -/
theorem read_of_does {b : Block} {now : ℕ} {ws : List Write} {r : BRes b} (hi : Inv D)
    (hreq : Requires b D) (h : Does P b now D ws r) :
    (ws.filterMap newOutboxEvent?).foldl RefundView.read (D.refunds.map Refund.view) =
      (store.applyAll D ws).refunds.map Refund.view := by
  cases b with
  | getExistingPayment | getPayment | reconcileSelect | getRefund | selectProviderPaymentId =>
    rw [h.1]
    rfl
  | createIdempotentPayment =>
    rcases h with ⟨id, event, c', -, -, -, -, rfl, rfl⟩ | ⟨row, -, -, -, rfl⟩ <;> rfl
  | recordTransition p type new provider failure =>
    obtain ⟨row, -, ⟨-, rfl⟩ | ⟨-, prov, fail, event, outbox, -, -, rfl⟩⟩ := h
    · rfl
    · refine read_payment ?_ _
      simp only [Requires, paymentMoves, List.mem_cons, Prod.mk.injEq, List.not_mem_nil,
        or_false] at hreq
      rcases hreq with ⟨rfl, -⟩ | ⟨rfl, -⟩ | ⟨rfl, -⟩ <;> rfl
  | recordAwaitingWebhook =>
    obtain ⟨row, -, ⟨-, rfl⟩ | ⟨-, prov, event, -, rfl⟩⟩ := h <;> rfl
  | recordRetry =>
    obtain ⟨row, -, ⟨-, rfl⟩ | ⟨-, event, rfl⟩⟩ := h <;> rfl
  | receiveProviderWebhook =>
    obtain ⟨eventId, -, rfl⟩ | ⟨w, eventId, field, p, row, status, -, -, -, -, -, -, -, h⟩ := h
    · rfl
    rcases h with ⟨-, -, rfl⟩ | ⟨-, -, provider, event, outbox, -, rfl⟩
    · rfl
    · refine read_payment ?_ _
      show isPaymentType (if _ then _ else _) = true
      split_ifs <;> rfl
  | reconcileOne =>
    obtain ⟨-, rfl⟩ | ⟨-, row, event, outbox, -, -, rfl⟩ := h
    · rfl
    · refine read_payment ?_ _
      show isPaymentType (if _ then _ else _) = true
      split_ifs <;> rfl
  | createRefund p m k a =>
    obtain ⟨row, id, c, e₁, e₂, e₃, -, -, hrow, -, -, -, -, -, -, rfl, rfl⟩ | ⟨_, -, -, rfl⟩ := h
    · have hid := payment_id hrow
      have hrefunds : (store.applyAll D (createRefundWrites now row
          (newRefund now id p m k a c) e₁ e₂ e₃)).refunds =
        D.refunds ++ [newRefund now id p m k a c] := rfl
      have hevents : (createRefundWrites now row (newRefund now id p m k a c) e₁ e₂ e₃).filterMap
          newOutboxEvent? = [newOutboxEvent now e₃ id .refundCreated (.obj
            [("refund_id", .str id.text), ("payment_id", .str row.id.text),
              ("amount_cents", .int a)])] := rfl
      rw [hrefunds, hevents, List.map_append, hid]
      simp [RefundView.read, newOutboxEvent, textField, intField, Json.getItem, List.lookup_cons,
        Refund.view, newRefund, RefundStatus.text]
    · rfl
  | recordRefundTransition q type new provider failure =>
    obtain ⟨row, hrow, ⟨-, rfl⟩ | ⟨-, prov, event, outbox, rfl⟩⟩ := h
    · rfl
    · exact read_transition hreq.1 rfl
  | recordRefundRetry q reason =>
    obtain rfl | ⟨row, event, hrow, hs, rfl⟩ := h
    · rfl
    · refine (map_setWhere_of_mem fun a ha hq => ?_).symm
      obtain ⟨hmem, hid⟩ := find?_key hrow
      obtain rfl := eq_of_key hi.refund_ids ha hmem ((of_decide_eq_true hq).trans hid.symm)
      rfl
  | completeSuccessfulRefund =>
    obtain ⟨refund, row, total, event, outbox, -, -, -, -, rfl⟩ := h
    refine read_payment ?_ _
    show isPaymentType (eventAfterRefund total row.amountCents) = true
    rcases eventAfterRefund_cases total row.amountCents with he | he <;> rw [he] <;> rfl
  | restorePaymentAfterFailedRefund =>
    obtain ⟨rfl, -⟩ | ⟨refund, row, -, -, -, rfl⟩ := h <;> rfl

end refunds

/-- **The refunds are replicated.** In every reachable state, the events of the outbox, read in
their order, give the table of the refunds: which there are, of which payments, over which amounts
and in which status. -/
theorem refunds_replicated {s : State P} (h : Reachable P s) :
    s.db.outboxEvents.foldl RefundView.read [] = s.db.refunds.map Refund.view := by
  refine db_invariant (I := fun D => D.outboxEvents.foldl RefundView.read [] =
    D.refunds.map Refund.view) rfl (fun hi hreq hdoes _ ih => ?_) (reachableWhen_true h)
  rw [outboxEvents_applyAll, List.foldl_append, ih]
  exact read_of_does hi hreq hdoes

/-- A reader of the outbox gets to know the refund, its amount and its end. -/
theorem refunds_replicated_once : ∃ s : State examplePlatform,
    s.db.refunds.map Refund.view =
      [⟨(exampleUuid 10).text, (exampleUuid 1).text, 200, "SUCCEEDED"⟩] ∧
    s.db.outboxEvents.foldl RefundView.read [] = s.db.refunds.map Refund.view := by
  have h : ((payflow examplePlatform).run (init _) (onePayment ++ oneRefund)).map
      (fun s => s.db.refunds.map Refund.view) =
      some [⟨(exampleUuid 10).text, (exampleUuid 1).text, 200, "SUCCEEDED"⟩] := by
    decide +kernel
  obtain ⟨s, hs, hview⟩ := Option.map_eq_some_iff.mp h
  exact ⟨s, hview, refunds_replicated (.run hs)⟩

/-! ### The payments -/

section payments

variable {D D' : Db} {p : Uuid}

/-- The status of the payment `p` before and after a commit, and what its events tell. -/
inductive SeenChange (D D' : Db) (os : List OutboxEvent) (p : Uuid) : Prop
  | silent : (D'.payment? p).map (·.status) = (D.payment? p).map (·.status) →
      (∀ st, os.foldl (readPayment p) st = st) → SeenChange D D' os p
  | created {row'} : D.payment? p = none → D'.payment? p = some row' → row'.status = .created →
      (∀ st, os.foldl (readPayment p) st = st) → SeenChange D D' os p
  | told {row row'} : D.payment? p = some row → D'.payment? p = some row' →
      (∀ st, os.foldl (readPayment p) st = row'.status.text) → SeenChange D D' os p
  | released {row row' refund} : D.payment? p = some row → row.status = .refundPending →
      D'.payment? p = some row' → row'.status = .succeeded → refund ∈ D.refunds →
      refund.paymentId = p → refund.status = .failed →
      (∀ st, os.foldl (readPayment p) st = st) → SeenChange D D' os p

/-- A commit that leaves the payments alone and tells nothing about them. -/
theorem seen_stay (h : D'.payments = D.payments) {os : List OutboxEvent}
    (hos : ∀ st, os.foldl (readPayment p) st = st) : SeenChange D D' os p := by
  refine .silent ?_ hos
  unfold Db.payment?
  rw [h]

theorem payment?_updated {row : Payment} (hrow : D.payment? row.id = some row) {cols : PaymentCols}
    (hD' : D'.payments = (D.apply (.updatePayment row.id cols)).payments) (p : Uuid) :
    (p = row.id ∧ D'.payment? p = some { row with toPaymentCols := cols }) ∨
      (p ≠ row.id ∧ D'.payment? p = D.payment? p) := by
  have hsame : D'.payment? p = (D.apply (.updatePayment row.id cols)).payment? p := by
    unfold Db.payment?
    rw [hD']
  rw [hsame]
  by_cases hp : p = row.id
  · subst hp
    exact Or.inl ⟨rfl, payment?_update_self hrow cols⟩
  · refine Or.inr ⟨hp, ?_⟩
    rw [payment?_update]
    cases hp₀ : D.payment? p with
    | none => rfl
    | some row₀ =>
      have hne : ¬ row₀.id = row.id := fun he => hp ((payment_id hp₀).symm.trans he)
      simp [hne]

theorem seen_told {row : Payment} (hrow : D.payment? row.id = some row) {cols : PaymentCols}
    (hD' : D'.payments = (D.apply (.updatePayment row.id cols)).payments) {os : List OutboxEvent}
    (hos : ∀ st, os.foldl (readPayment p) st = if p = row.id then cols.status.text else st) :
    SeenChange D D' os p := by
  rcases payment?_updated hrow hD' p with ⟨rfl, hp⟩ | ⟨hne, hp⟩
  · exact .told hrow hp fun st => (hos st).trans (if_pos rfl)
  · exact .silent (by rw [hp]) fun st => (hos st).trans (if_neg hne)

theorem seen_noted {row : Payment} (hrow : D.payment? row.id = some row) {cols : PaymentCols}
    (hD' : D'.payments = (D.apply (.updatePayment row.id cols)).payments)
    (hcols : cols.status = row.status) : SeenChange D D' [] p := by
  refine .silent ?_ fun _ => rfl
  rcases payment?_updated hrow hD' p with ⟨rfl, hp⟩ | ⟨-, hp⟩
  · rw [hp, hrow]
    exact congrArg some hcols
  · rw [hp]

theorem readPayment_payment {now : ℕ} {id q : Uuid} {type : EventType} {payload : Json}
    (htype : isPaymentType type = true) {status : String}
    (hstatus : reportedStatus payload = some status) (st : String) :
    readPayment p st (newOutboxEvent now id q type payload) = if p = q then status else st := by
  have hne : type ≠ .refundCreated := by
    rintro rfl
    cases htype
  by_cases hp : p = q
  · simp [readPayment, newOutboxEvent, hne, htype, hstatus, hp]
  · simp [readPayment, newOutboxEvent, hne, htype, hp, Ne.symm hp]

theorem readPayment_refund {now : ℕ} {id q : Uuid} {type : EventType} {payload : Json}
    (htype : isPaymentType type = false) (hne : type ≠ .refundCreated) (st : String) :
    readPayment p st (newOutboxEvent now id q type payload) = st := by
  simp [readPayment, newOutboxEvent, hne, htype]

/-- **What a commit tells** of a payment. -/
theorem seen_of_does {b : Block} {now : ℕ} {ws : List Write} {r : BRes b} (hreq : Requires b D)
    (h : Does P b now D ws r) (p : Uuid) :
    SeenChange D (store.applyAll D ws) (ws.filterMap newOutboxEvent?) p := by
  cases b with
  | getExistingPayment | getPayment | reconcileSelect | getRefund | selectProviderPaymentId =>
    rw [h.1]
    exact seen_stay (by rfl) fun _ => rfl
  | createIdempotentPayment m k hash u a c =>
    rcases h with ⟨id, event, c', -, hid, -, -, rfl, rfl⟩ | ⟨row, -, -, -, rfl⟩
    · by_cases hne : id = p
      · subst hne
        have hnew : D.payment? (newPayment now id m k hash u a c').id = none := hid
        exact .created hid (payment?_insert_self hnew) rfl fun _ => rfl
      · refine .silent (congrArg _ ?_) fun _ => rfl
        have hother : (newPayment now id m k hash u a c').id ≠ p := hne
        exact payment?_insert hother
    · exact seen_stay (by rfl) fun _ => rfl
  | recordTransition q type new provider failure =>
    obtain ⟨row, hrow, ⟨-, rfl⟩ | ⟨-, prov, fail, event, outbox, -, -, rfl⟩⟩ := h
    · exact seen_stay (by rfl) fun _ => rfl
    · obtain rfl := payment_id hrow
      refine seen_told hrow (by rfl) fun st => readPayment_payment ?_ ?_ st
      · simp only [Requires, paymentMoves, List.mem_cons, Prod.mk.injEq, List.not_mem_nil,
          or_false] at hreq
        rcases hreq with ⟨rfl, -⟩ | ⟨rfl, -⟩ | ⟨rfl, -⟩ <;> rfl
      · simp [reportedStatus, textField, Json.getItem, List.lookup_cons]
  | recordAwaitingWebhook q provider =>
    obtain ⟨row, hrow, ⟨-, rfl⟩ | ⟨hs, prov, event, -, rfl⟩⟩ := h
    · exact seen_stay (by rfl) fun _ => rfl
    · obtain rfl := payment_id hrow
      exact seen_noted hrow rfl rfl
  | recordRetry q reason =>
    obtain ⟨row, hrow, ⟨-, rfl⟩ | ⟨hs, event, rfl⟩⟩ := h
    · exact seen_stay (by rfl) fun _ => rfl
    · obtain rfl := payment_id hrow
      exact seen_noted hrow rfl rfl
  | receiveProviderWebhook payload =>
    obtain ⟨eventId, -, rfl⟩ | ⟨w, eventId, field, q, row, status, -, -, -, -, -, hrow, -, h⟩ := h
    · exact seen_stay (by rfl) fun _ => rfl
    rcases h with ⟨-, -, rfl⟩ | ⟨-, hs, provider, event, outbox, -, rfl⟩
    · exact seen_stay (by rfl) fun _ => rfl
    · obtain rfl := payment_id hrow
      refine seen_told hrow (by rfl) fun st => readPayment_payment ?_ ?_ st
      · split_ifs <;> rfl
      · simp [reportedStatus, textField, Json.getItem, List.lookup_cons]
  | reconcileOne q status =>
    obtain ⟨-, rfl⟩ | ⟨-, row, event, outbox, hrow, hs, rfl⟩ := h
    · exact seen_stay (by rfl) fun _ => rfl
    · obtain rfl := payment_id hrow
      refine seen_told hrow (by rfl) fun st => readPayment_payment ?_ ?_ st
      · split_ifs <;> rfl
      · simp [reportedStatus, textField, Json.getItem, List.lookup_cons]
  | createRefund q m k a =>
    obtain ⟨row, id, c, e₁, e₂, e₃, -, -, hrow, -, hs, -, -, -, -, rfl, rfl⟩ | ⟨_, -, -, rfl⟩ := h
    · obtain rfl := payment_id hrow
      refine seen_told hrow (by rfl) fun st => ?_
      show readPayment p st (newOutboxEvent now e₃ id .refundCreated _) = _
      by_cases hp : p = row.id
      · simp [readPayment, newOutboxEvent, textField, Json.getItem, List.lookup_cons, hp,
          PaymentStatus.text]
      · have hne : row.id.text ≠ p.text := fun he => hp (Uuid.text_inj he).symm
        simp [readPayment, newOutboxEvent, textField, Json.getItem, List.lookup_cons, hp, hne]
    · exact seen_stay (by rfl) fun _ => rfl
  | recordRefundTransition q type new provider failure =>
    obtain ⟨row, -, ⟨-, rfl⟩ | ⟨-, prov, event, outbox, rfl⟩⟩ := h
    · exact seen_stay (by rfl) fun _ => rfl
    · have htype := hreq.1
      simp only [refundMoves, List.mem_cons, Prod.mk.injEq, List.not_mem_nil, or_false] at htype
      refine seen_stay (by rfl) fun st => readPayment_refund ?_ ?_ st <;>
        rcases htype with ⟨rfl, -⟩ | ⟨rfl, -⟩ | ⟨rfl, -⟩ <;> simp [isPaymentType]
  | recordRefundRetry q reason =>
    obtain rfl | ⟨row, event, -, -, rfl⟩ := h <;> exact seen_stay (by rfl) fun _ => rfl
  | completeSuccessfulRefund q =>
    obtain ⟨refund, row, total, event, outbox, -, hrow, -, -, rfl⟩ := h
    have hrow : D.payment? row.id = some row := payment_id hrow ▸ hrow
    refine seen_told hrow (by rfl) fun st => readPayment_payment ?_ ?_ st
    · rcases eventAfterRefund_cases total row.amountCents with he | he <;> rw [he] <;> rfl
    · simp [reportedStatus, textField, Json.getItem, List.lookup_cons]
  | restorePaymentAfterFailedRefund q =>
    obtain ⟨rfl, -⟩ | ⟨refund, row, hq, hrow, hs, rfl⟩ := h
    · exact seen_stay (by rfl) fun _ => rfl
    · obtain ⟨refund', hq', hfailed⟩ := hreq
      obtain rfl := Option.some.inj (hq.symm.trans hq')
      have hid := payment_id hrow
      have hrow : D.payment? row.id = some row := hid ▸ hrow
      have hset : (store.applyAll D [.updatePayment row.id { row.toPaymentCols with
            status := .succeeded, version := row.version + 1, updatedAt := now }]).payments =
          (D.apply (.updatePayment row.id { row.toPaymentCols with
            status := .succeeded, version := row.version + 1, updatedAt := now })).payments := rfl
      rcases payment?_updated hrow hset p with ⟨rfl, hp⟩ | ⟨-, hp⟩
      · exact .released hrow hs hp rfl (find?_key hq).1 hid.symm hfailed fun _ => rfl
      · exact .silent (by rw [hp]) fun _ => rfl

/-- The reader is right about the payment, or has not been told that a failed refund has released
it. -/
def SeenRight (D : Db) (row : Payment) : Prop :=
  paymentSeen D row.id = row.status.text ∨
    (paymentSeen D row.id = "REFUND_PENDING" ∧ row.status = .succeeded ∧
      ∃ r ∈ D.refunds, r.paymentId = row.id ∧ r.status = .failed)

theorem failed_stays (h : Grown D D') {r : Refund} (hi : Inv D) (hr : r ∈ D.refunds)
    (hs : r.status = .failed) :
    ∃ r' ∈ D'.refunds, r'.paymentId = r.paymentId ∧ r'.status = .failed := by
  obtain ⟨r', hr', cols, rfl, hle⟩ := h.refund (find?_key_of_mem hi.refund_ids hr)
  refine ⟨_, (find?_key hr').1, rfl, ?_⟩
  rcases hle with he | he | ⟨he, -⟩
  · exact he.symm.trans hs
  · simp [hs] at he
  · simp [hs] at he

theorem seenRight_step {b : Block} {now : ℕ} {ws : List Write} {r : BRes b} (hi : Inv D)
    (hreq : Requires b D) (h : Does P b now D ws r)
    (ih : (D.payment? p = none → paymentSeen D p = "CREATED") ∧
      ∀ row, D.payment? p = some row → SeenRight D row) :
    ((store.applyAll D ws).payment? p = none → paymentSeen (store.applyAll D ws) p = "CREATED") ∧
      ∀ row, (store.applyAll D ws).payment? p = some row → SeenRight (store.applyAll D ws) row := by
  have hseen : paymentSeen (store.applyAll D ws) p =
      (ws.filterMap newOutboxEvent?).foldl (readPayment p) (paymentSeen D p) := by
    unfold paymentSeen
    rw [outboxEvents_applyAll, List.foldl_append]
  have hgrown := (keep_of_does hi hreq h).2.toGrown
  generalize hD' : store.applyAll D ws = D' at hseen hgrown
  have hchange := hD' ▸ seen_of_does hreq h p
  cases hchange with
  | silent hstatus hfold =>
    rw [hfold] at hseen
    refine ⟨fun hnone => ?_, fun row' hrow' => ?_⟩
    · rw [hseen]
      rw [hnone, Option.map_none] at hstatus
      exact ih.1 (Option.map_eq_none_iff.mp hstatus.symm)
    · rw [hrow', Option.map_some] at hstatus
      obtain ⟨row, hrow, hs⟩ := Option.map_eq_some_iff.mp hstatus.symm
      have hid := payment_id hrow
      have hid' := payment_id hrow'
      unfold SeenRight at ih ⊢
      rw [hid', hseen, ← hs]
      rcases ih.2 row hrow with hright | ⟨hpending, hsucceeded, q, hq, hqp, hqs⟩
      · exact Or.inl (hid ▸ hright)
      · obtain ⟨q', hq', hqp', hqs'⟩ := failed_stays hgrown hi hq hqs
        exact Or.inr ⟨hid ▸ hpending, hsucceeded, q', hq', hqp'.trans (hqp.trans hid), hqs'⟩
  | created hnone hrow' hs hfold =>
    rw [hfold, ih.1 hnone] at hseen
    refine ⟨fun _ => hseen, fun row hrow => Or.inl ?_⟩
    obtain rfl := Option.some.inj (hrow'.symm.trans hrow)
    rw [payment_id hrow, hseen, hs]
    rfl
  | told hrow hrow' hfold =>
    rw [hfold] at hseen
    refine ⟨fun hnone => by simp [hnone] at hrow', fun row hrow => Or.inl ?_⟩
    obtain rfl := Option.some.inj (hrow'.symm.trans hrow)
    rw [payment_id hrow, hseen]
  | released hrow hs hrow' hs' hq hqp hqs hfold =>
    rw [hfold] at hseen
    refine ⟨fun hnone => by simp [hnone] at hrow', fun row₁ hrow₁ => Or.inr ?_⟩
    obtain rfl := Option.some.inj (hrow'.symm.trans hrow₁)
    obtain ⟨q', hq', hqp', hqs'⟩ := failed_stays hgrown hi hq hqs
    rw [payment_id hrow₁, hseen]
    refine ⟨?_, hs', q', hq', hqp'.trans hqp, hqs'⟩
    rcases ih.2 _ hrow with hright | ⟨-, hsucceeded, -⟩
    · rw [payment_id hrow, hs] at hright
      exact hright
    · simp [hs] at hsucceeded

end payments

/-- **The payments are replicated**, but for releases. In every reachable state, the status that the
events of the outbox give for a payment, read in their order, is the one of its row, unless the
payment has `SUCCEEDED`, a refund of it has failed, and the reader takes it for `REFUND_PENDING`. -/
theorem payment_replicated {s : State P} (h : Reachable P s) :
    ∀ row ∈ s.db.payments, SeenRight s.db row := by
  intro row hrow
  have hright := db_invariant (I := fun D => (D.payment? row.id = none →
      paymentSeen D row.id = "CREATED") ∧ ∀ row', D.payment? row.id = some row' → SeenRight D row')
    ⟨fun _ => rfl, fun row' hrow' => by simp [Db.payment?, Db.empty] at hrow'⟩
    (fun hi hreq hdoes _ ih => seenRight_step hi hreq hdoes ih) (reachableWhen_true h)
  exact hright.2 row (find?_key_of_mem (inv_of_reachable h).payment_ids hrow)

/-- A refund has failed, and the reader does not know that the payment is `SUCCEEDED` again. -/
theorem payment_replicated_failed : ∃ s : State examplePlatform,
    s.db.payments.map (·.status) = [.succeeded] ∧
    paymentSeen s.db (exampleUuid 1) = "REFUND_PENDING" ∧ ∀ row ∈ s.db.payments, SeenRight s.db row := by
  have h : ((payflow examplePlatform).run (init _) (onePayment ++ failedRefund ++ quiet 3 1)).map
      (fun s => (s.db.payments.map (·.status), paymentSeen s.db (exampleUuid 1))) =
      some ([.succeeded], "REFUND_PENDING") := by decide +kernel
  obtain ⟨s, hs, h⟩ := Option.map_eq_some_iff.mp h
  obtain ⟨hstatus, hseen⟩ := Prod.mk.inj h
  exact ⟨s, hstatus, hseen, payment_replicated (.run hs)⟩

end Payflow.Safety
