import Payflow.Spec.Sound

/-! # What one commit changes

`PaymentSet` has the columns that the transactions give the row of a payment, and `row_step` says
that they change no row otherwise. `PaymentMove` and `RefundMove` are the changes of status that the
transactions make. `payment_step` and `refund_step` say of every commit that it makes no others: a
row that was there keeps its status or moves so, and a row that was not there is a new one. The
invariants of the runs are proved from these two facts. -/

namespace Payflow.Spec

open Payflow.Lib Payflow.Model

/-- The columns that the transaction gives the row of a payment. -/
inductive PaymentSet (P : Platform) (now : ℕ) (D : Db) (row : Payment) : Block → PaymentCols → Prop
  | transition {type new provider failure provider' failure'} : new ∈ validTransitions row.status →
      provider.textParam P = .ok provider' → (textOption failure).textParam P = .ok failure' →
      PaymentSet P now D row (.recordTransition row.id type new provider failure)
        { row.toPaymentCols with
          status := new
          providerPaymentId := provider' <|> row.providerPaymentId
          failureCode := failure'
          version := row.version + 1
          updatedAt := now }
  | awaiting {provider provider'} : row.status = .processing →
    provider.assignText P = .ok provider' →
      PaymentSet P now D row (.recordAwaitingWebhook row.id provider)
        { row.toPaymentCols with providerPaymentId := provider', updatedAt := now }
  | retry {reason} : row.status = .processing → PaymentSet P now D row (.recordRetry row.id reason)
      { row.toPaymentCols with
        retryCount := row.retryCount + 1
        failureCode := some (firstTwoHundred reason)
        updatedAt := now }
  | webhook {payload paymentId status field provider} : row.status = .processing →
      payload.getItem "payment_id" = .ok paymentId → paymentId.uuidParam P = .ok (some row.id) →
      payload.getItem "status" = .ok status → payload.getItem "provider_payment_id" = .ok field →
      field.assignText P = .ok provider → PaymentSet P now D row (.receiveProviderWebhook payload)
        { row.toPaymentCols with
          status := webhookStatus status
          providerPaymentId := provider
          failureCode :=
            if webhookStatus status = .failed then some "PROVIDER_WEBHOOK_FAILURE" else none
          version := row.version + 1
          updatedAt := now }
  | reconcile {status} : row.status = .processing →
    PaymentSet P now D row (.reconcileOne row.id status)
      { row.toPaymentCols with
        status := status
        failureCode := if status = .failed then some "RECONCILED_PROVIDER_FAILURE" else none
        version := row.version + 1
        updatedAt := now }
  | refund {m k a} : row.status = .succeeded → PaymentSet P now D row (.createRefund row.id m k a)
      { row.toPaymentCols with
        status := .refundPending
        version := row.version + 1
        updatedAt := now }
  | complete {q refund total} : D.refund? q = some refund → refund.paymentId = row.id →
      D.payment? row.id = some row → total ≤ D.refundTotal [.succeeded] row.id →
      (row.status = .refunded → row.amountCents ≤ total) →
      PaymentSet P now D row (.completeSuccessfulRefund q)
        { row.toPaymentCols with
          status := statusAfterRefund total row.amountCents
          version := row.version + 1
          updatedAt := now }
  | restore {q refund} : D.refund? q = some refund → refund.paymentId = row.id →
      row.status = .refundPending → PaymentSet P now D row (.restorePaymentAfterFailedRefund q)
        { row.toPaymentCols with
          status := .succeeded
          version := row.version + 1
          updatedAt := now }

/-- The row of the payment `p` before and after a commit, in full. -/
inductive RowChange (P : Platform) (now : ℕ) (D : Db) (p : Uuid) (b : Block) :
    Option Payment → Option Payment → Prop
  | same {row?} : RowChange P now D p b row? row?
  | new {m k hash u a c c'} : b = .createIdempotentPayment m k hash u a c →
      D.paymentByKey? m k = none → varchar 3 c = .ok c' →
      RowChange P now D p b none (some (newPayment now p m k hash u a c'))
  | set {row cols} : PaymentSet P now D row b cols →
      RowChange P now D p b (some row) (some { row with toPaymentCols := cols })

/-- The transaction moves the payment `p` from the first status to the second. -/
inductive PaymentMove (D : Db) (p : Uuid) : Block → PaymentStatus → PaymentStatus → Prop
  | transition {type s t provider failure} : t ∈ validTransitions s → (type, t) ∈ paymentMoves →
      PaymentMove D p (.recordTransition p type t provider failure) s t
  | webhook {payload t} : t = .succeeded ∨ t = .failed →
      PaymentMove D p (.receiveProviderWebhook payload) .processing t
  | reconcile {t} : t = .succeeded ∨ t = .failed →
      PaymentMove D p (.reconcileOne p t) .processing t
  | refund {m k a} : PaymentMove D p (.createRefund p m k a) .succeeded .refundPending
  | complete {q refund row total} : D.refund? q = some refund → refund.paymentId = p →
      D.payment? p = some row → total ≤ D.refundTotal [.succeeded] p →
      (row.status = .refunded → row.amountCents ≤ total) →
      PaymentMove D p (.completeSuccessfulRefund q) row.status
        (statusAfterRefund total row.amountCents)
  | restore {q refund} : D.refund? q = some refund → refund.paymentId = p →
      PaymentMove D p (.restorePaymentAfterFailedRefund q) .refundPending .succeeded

/-- The transaction moves the refund `q` from the first status to the second. -/
inductive RefundMove (q : Uuid) : Block → RefundStatus → RefundStatus → Prop
  | transition {type s t provider failure} : t ∈ validRefundTransitions s →
      (type, t) ∈ refundMoves → RefundMove q (.recordRefundTransition q type t provider failure) s t

/-- The row of the payment `p` before and after a commit. -/
inductive PaymentChange (now : ℕ) (D : Db) (p : Uuid) (b : Block) :
    Option Payment → Option Payment → Prop
  | none : PaymentChange now D p b none none
  | new {m k hash u a c c'} : b = .createIdempotentPayment m k hash u a c →
      D.paymentByKey? m k = none → varchar 3 c = .ok c' →
      PaymentChange now D p b none (some (newPayment now p m k hash u a c'))
  | keep {row row' : Payment} : row'.status = row.status →
      PaymentChange now D p b (some row) (some row')
  | move {row row' : Payment} : PaymentMove D p b row.status row'.status →
      PaymentChange now D p b (some row) (some row')

/-- The row of the refund `q` before and after a commit. -/
inductive RefundChange (now : ℕ) (D D' : Db) (q : Uuid) (b : Block) :
    Option Refund → Option Refund → Prop
  | none : RefundChange now D D' q b none none
  | new {p m k a c row row'} : b = .createRefund p m k a → D.refundByKey? m k = none →
      D.payment? p = some row → row.status = .succeeded → D'.payment? p = some row' →
      row'.status = .refundPending → RefundChange now D D' q b none (some (newRefund now q p m k a c))
  | keep {row row' : Refund} : row'.status = row.status →
      RefundChange now D D' q b (some row) (some row')
  | move {row row' : Refund} : RefundMove q b row.status row'.status →
      RefundChange now D D' q b (some row) (some row')

section change

variable {now : ℕ} {D D' : Db} {p q : Uuid} {b : Block}

theorem row_stay {P : Platform} (h : D'.payments = D.payments) :
    RowChange P now D p b (D.payment? p) (D'.payment? p) := by
  unfold Db.payment?
  rw [h]
  exact .same

theorem refund_stay (h : D'.refunds = D.refunds) :
    RefundChange now D D' q b (D.refund? q) (D'.refund? q) := by
  unfold Db.refund?
  rw [h]
  cases D.refunds.find? fun row => row.id = q with
  | none => exact .none
  | some row => exact .keep rfl

theorem row_update {P : Platform} {row : Payment} (hrow : D.payment? row.id = some row)
    {cols : PaymentCols} (hD' : D'.payments = (D.apply (.updatePayment row.id cols)).payments)
    (hset : PaymentSet P now D row b cols) :
    RowChange P now D p b (D.payment? p) (D'.payment? p) := by
  have hp : D'.payment? p = (D.apply (.updatePayment row.id cols)).payment? p := by
    unfold Db.payment?
    rw [hD']
  rw [hp, payment?_update]
  cases hp₀ : D.payment? p with
  | none => exact .same
  | some row₀ =>
    rw [Option.map_some]
    by_cases hid : row₀.id = row.id
    · obtain rfl : p = row.id := (payment_id hp₀).symm.trans hid
      obtain rfl : row = row₀ := Option.some.inj (hrow.symm.trans hp₀)
      rw [if_pos hid]
      exact .set hset
    · rw [if_neg hid]
      exact .same

theorem refund_update {id : Uuid} {row : Refund} (hrow : D.refund? id = some row)
    (h : ∃ cols, D'.refunds = (D.apply (.updateRefund id cols)).refunds ∧
      (cols.status = row.status ∨ RefundMove id b row.status cols.status)) :
    RefundChange now D D' q b (D.refund? q) (D'.refund? q) := by
  obtain ⟨cols, hD', hmove⟩ := h
  have hq : D'.refund? q = (D.apply (.updateRefund id cols)).refund? q := by
    unfold Db.refund?
    rw [hD']
  rw [hq, refund?_update]
  cases hq₀ : D.refund? q with
  | none => exact .none
  | some row₀ =>
    rw [Option.map_some]
    by_cases hid : row₀.id = id
    · obtain rfl : q = id := (refund_id hq₀).symm.trans hid
      obtain rfl : row = row₀ := Option.some.inj (hrow.symm.trans hq₀)
      rw [if_pos hid]
      rcases hmove with hs | hmove
      · exact .keep hs
      · exact .move hmove
    · rw [if_neg hid]
      exact .keep rfl

end change

/-- **The row of a payment in one commit.** -/
theorem row_step {P : Platform} {b : Block} {now : ℕ} {D : Db} {ws : List Write} {r : BRes b}
    (h : Does P b now D ws r) (p : Uuid) :
    RowChange P now D p b (D.payment? p) ((store.applyAll D ws).payment? p) := by
  cases b with
  | getExistingPayment m k => rw [h.1]; exact row_stay rfl
  | getPayment p => rw [h.1]; exact row_stay rfl
  | reconcileSelect => rw [h.1]; exact row_stay rfl
  | getRefund q => rw [h.1]; exact row_stay rfl
  | selectProviderPaymentId p => rw [h.1]; exact row_stay rfl
  | createIdempotentPayment m k hash u a c =>
    rcases h with ⟨id, event, c', hkey, hid, -, hc, rfl, rfl⟩ | ⟨row, -, -, -, rfl⟩
    · by_cases hne : id = p
      · subst hne
        have hnew : D.payment? (newPayment now id m k hash u a c').id = none := hid
        rw [hid]
        show RowChange P now D id _ none
          ((D.apply (.insertPayment (newPayment now id m k hash u a c'))).payment?
            (newPayment now id m k hash u a c').id)
        rw [payment?_insert_self hnew]
        exact .new rfl hkey hc
      · show RowChange P now D p _ _ ((D.apply (.insertPayment _)).payment? p)
        rw [payment?_insert hne]
        exact row_stay rfl
    · exact row_stay rfl
  | recordTransition q type new provider failure =>
    obtain ⟨row₁, hrow, ⟨-, rfl⟩ | ⟨hv, prov, fail, event, outbox, hprov, hfail, rfl⟩⟩ := h
    · exact row_stay rfl
    · obtain rfl := payment_id hrow
      exact row_update hrow rfl (.transition hv hprov hfail)
  | recordAwaitingWebhook q provider =>
    obtain ⟨row₁, hrow, ⟨-, rfl⟩ | ⟨hs, prov, event, hprov, rfl⟩⟩ := h
    · exact row_stay rfl
    · obtain rfl := payment_id hrow
      exact row_update hrow rfl (.awaiting hs hprov)
  | recordRetry q reason =>
    obtain ⟨row₁, hrow, ⟨-, rfl⟩ | ⟨hs, event, rfl⟩⟩ := h
    · exact row_stay rfl
    · obtain rfl := payment_id hrow
      exact row_update hrow rfl (.retry hs)
  | receiveProviderWebhook payload =>
    obtain ⟨eventId, -, rfl⟩ | ⟨w, eventId, field, q, row₁, status, -, -, -, hfield, hq,
      hrow, hst, h⟩ := h
    · exact row_stay rfl
    rcases h with ⟨-, -, rfl⟩ | ⟨-, hs, provider, event, outbox, ⟨id, hid, hprov⟩, rfl⟩
    · exact row_stay rfl
    · obtain rfl := payment_id hrow
      exact row_update hrow rfl (.webhook hs hfield hq hst hid hprov)
  | reconcileOne q status =>
    obtain ⟨-, rfl⟩ | ⟨-, row₁, event, outbox, hrow, hs, rfl⟩ := h
    · exact row_stay rfl
    · obtain rfl := payment_id hrow
      exact row_update hrow rfl (.reconcile hs)
  | createRefund q m k a =>
    obtain ⟨row₁, id, c, e₁, e₂, e₃, -, -, hrow, -, hs, -, -, -, -, rfl, rfl⟩ | ⟨_, -, -, rfl⟩ := h
    · obtain rfl := payment_id hrow
      exact row_update hrow rfl (.refund hs)
    · exact row_stay rfl
  | recordRefundTransition q type new provider failure =>
    obtain ⟨row₁, -, ⟨-, rfl⟩ | ⟨-, prov, event, outbox, rfl⟩⟩ := h <;> exact row_stay rfl
  | recordRefundRetry q reason =>
    obtain rfl | ⟨row₁, event, -, -, rfl⟩ := h <;> exact row_stay rfl
  | completeSuccessfulRefund q =>
    obtain ⟨refund, row₁, total, event, outbox, hq, hrow, hle, hfull, rfl⟩ := h
    have hid := payment_id hrow
    have hrow' : D.payment? row₁.id = some row₁ := hid ▸ hrow
    exact row_update hrow' rfl (.complete hq hid.symm hrow' hle hfull)
  | restorePaymentAfterFailedRefund q =>
    obtain ⟨rfl, -⟩ | ⟨refund, row₁, hq, hrow, hs, rfl⟩ := h
    · exact row_stay rfl
    · have hid := payment_id hrow
      exact row_update (hid ▸ hrow) rfl (.restore hq hid.symm hs)

theorem PaymentSet.move {P : Platform} {now : ℕ} {D : Db} {row : Payment} {b : Block}
    {cols : PaymentCols} (hreq : Requires b D) (h : PaymentSet P now D row b cols) :
    cols.status = row.status ∨ PaymentMove D row.id b row.status cols.status := by
  cases h with
  | transition hv _ _ => exact Or.inr (.transition hv hreq)
  | awaiting _ _ => exact Or.inl rfl
  | retry _ => exact Or.inl rfl
  | @webhook payload paymentId status field provider hs _ _ _ _ _ =>
    have hnew : webhookStatus status = .succeeded ∨ webhookStatus status = .failed := by
      unfold webhookStatus
      split_ifs <;> simp
    rw [hs]
    exact Or.inr (.webhook hnew)
  | reconcile hs =>
    rw [hs]
    exact Or.inr (.reconcile hreq)
  | refund hs =>
    rw [hs]
    exact Or.inr .refund
  | complete hq hid hrow hle hfull => exact Or.inr (.complete hq hid hrow hle hfull)
  | restore hq hid hs =>
    rw [hs]
    exact Or.inr (.restore hq hid)

/-- **A payment in one commit.** -/
theorem payment_step {P : Platform} {b : Block} {now : ℕ} {D : Db} {ws : List Write} {r : BRes b}
    (hreq : Requires b D) (h : Does P b now D ws r) (p : Uuid) :
    PaymentChange now D p b (D.payment? p) ((store.applyAll D ws).payment? p) := by
  have hstep := row_step h p
  generalize hp : D.payment? p = before at hstep
  generalize (store.applyAll D ws).payment? p = after at hstep
  cases hstep with
  | same =>
    cases before with
    | none => exact .none
    | some row => exact .keep rfl
  | new hb hkey hc => exact .new hb hkey hc
  | @set row cols hset =>
    obtain rfl := payment_id hp
    rcases hset.move hreq with hs | hmove
    · exact .keep hs
    · exact .move hmove

/-- **A refund in one commit.** -/
theorem refund_step {P : Platform} {b : Block} {now : ℕ} {D : Db} {ws : List Write} {r : BRes b}
    (hreq : Requires b D) (h : Does P b now D ws r) (q : Uuid) :
    RefundChange now D (store.applyAll D ws) q b (D.refund? q)
      ((store.applyAll D ws).refund? q) := by
  cases b with
  | getExistingPayment m k => rw [h.1]; exact refund_stay rfl
  | getPayment p => rw [h.1]; exact refund_stay rfl
  | reconcileSelect => rw [h.1]; exact refund_stay rfl
  | getRefund q => rw [h.1]; exact refund_stay rfl
  | selectProviderPaymentId p => rw [h.1]; exact refund_stay rfl
  | createIdempotentPayment m k hash u a c =>
    rcases h with ⟨id, event, c', -, hid, -, -, rfl, rfl⟩ | ⟨row, -, -, -,
      rfl⟩ <;> exact refund_stay rfl
  | recordTransition p type new provider failure =>
    obtain ⟨row₁, -, ⟨-, rfl⟩ | ⟨-, prov, fail, event, outbox, -, -, rfl⟩⟩ :=
      h <;> exact refund_stay rfl
  | recordAwaitingWebhook p provider =>
    obtain ⟨row₁, -, ⟨-, rfl⟩ | ⟨-, prov, event, -, rfl⟩⟩ := h <;> exact refund_stay rfl
  | recordRetry p reason =>
    obtain ⟨row₁, -, ⟨-, rfl⟩ | ⟨-, event, rfl⟩⟩ := h <;> exact refund_stay rfl
  | receiveProviderWebhook payload =>
    obtain ⟨eventId, -, rfl⟩ | ⟨w, eventId, field, p, row₁, status, -, -, -, -, -, -, -, h⟩ := h
    · exact refund_stay rfl
    rcases h with ⟨-, -, rfl⟩ | ⟨-, -, provider, event, outbox, -, rfl⟩ <;> exact refund_stay rfl
  | reconcileOne p status =>
    obtain ⟨-, rfl⟩ | ⟨-, row₁, event, outbox, -, -, rfl⟩ := h <;> exact refund_stay rfl
  | createRefund p m k a =>
    obtain ⟨row₁, id, c, e₁, e₂, e₃, hkey, hid, hrow, -, hs, -, -, -, -, rfl, rfl⟩ | ⟨_,
      -, -, rfl⟩ := h
    · by_cases hne : id = q
      · subst hne
        have hnew : D.refund? (newRefund now id p m k a c).id = none := hid
        rw [hid]
        show RefundChange now D _ id _ none
          ((D.apply (.insertRefund (newRefund now id p m k a c))).refund?
            (newRefund now id p m k a c).id)
        rw [refund?_insert_self hnew]
        obtain rfl := payment_id hrow
        exact .new rfl hkey hrow hs (payment?_update_self hrow _) rfl
      · show RefundChange now D _ q _ _ ((D.apply (.insertRefund _)).refund? q)
        rw [refund?_insert hne]
        cases D.refund? q with
        | none => exact .none
        | some row => exact .keep rfl
    · exact refund_stay rfl
  | recordRefundTransition q' type new provider failure =>
    obtain ⟨row₁, hrow, ⟨-, rfl⟩ | ⟨hv, prov, event, outbox, rfl⟩⟩ := h
    · exact refund_stay rfl
    · obtain rfl := refund_id hrow
      refine refund_update hrow ?_
      exact ⟨_, rfl, Or.inr (.transition hv hreq.1)⟩
  | recordRefundRetry q' reason =>
    obtain rfl | ⟨row₁, event, hrow, -, rfl⟩ := h
    · exact refund_stay rfl
    · refine refund_update hrow ?_
      exact ⟨_, rfl, Or.inl rfl⟩
  | completeSuccessfulRefund q' =>
    obtain ⟨refund, row₁, total, event, outbox, -, -, -, -, rfl⟩ := h
    exact refund_stay rfl
  | restorePaymentAfterFailedRefund q' =>
    obtain ⟨rfl, -⟩ | ⟨refund, row₁, -, -, -, rfl⟩ := h <;> exact refund_stay rfl

/-! ### New refunds -/

/-- The new refund of a write. -/
def newRefund? : Write → Option Refund
  | .insertRefund row => some row
  | _ => none

/-- The columns of the refunds that are set once: those of the rows before, then those of the new
rows. -/
theorem map_refunds_applyAll {β : Type} {g : Refund → β}
    (hg : ∀ row cols, g { row with toRefundCols := cols } = g row) :
    ∀ (ws : List Write) (D : Db), (store.applyAll D ws).refunds.map g =
      D.refunds.map g ++ (ws.filterMap newRefund?).map g
  | [], D => by simp
  | w :: ws, D => by
    have hw : (D.apply w).refunds.map g = D.refunds.map g ++ (newRefund? w).toList.map g := by
      cases w with
      | insertRefund row => simp [Db.apply, newRefund?]
      | updateRefund id cols =>
        rw [show newRefund? (.updateRefund id cols) = none from rfl,
          Option.toList_none, List.map_nil,
          List.append_nil]
        exact map_setWhere fun row => hg row cols
      | _ => simp [Db.apply, newRefund?]
    show (store.applyAll (D.apply w) ws).refunds.map g = _
    rw [map_refunds_applyAll hg ws, hw, List.append_assoc, ← List.map_append]
    congr 2
    cases h : newRefund? w <;> simp [h]

/-- The ids of the refunds of a payment. -/
def refundIds (D : Db) (p : Uuid) : List Uuid := (D.refundsOf p).map (·.id)

theorem mem_refundIds {D : Db} (hi : Inv D) {p q : Uuid} :
    q ∈ refundIds D p ↔ ∃ refund, D.refund? q = some refund ∧ refund.paymentId = p := by
  unfold refundIds Db.refundsOf
  simp only [List.mem_map, List.mem_filter, decide_eq_true_eq]
  constructor
  · rintro ⟨refund, ⟨hmem, hp⟩, rfl⟩
    exact ⟨refund, find?_key_of_mem hi.refund_ids hmem, hp⟩
  · rintro ⟨refund, hq, hp⟩
    obtain ⟨hmem, hid⟩ := find?_key hq
    exact ⟨refund, ⟨hmem, hp⟩, hid⟩

theorem nodup_refundIds {D : Db} (hi : Inv D) (p : Uuid) : (refundIds D p).Nodup :=
  hi.refund_ids.sublist (List.filter_sublist.map _)

theorem refundIds_grown {D D' : Db} (h : Grown D D') (p : Uuid) :
    ∃ new, refundIds D' p = refundIds D p ++ new :=
  (h.refundsOf p).map_grows fun _ _ hab => hab.id_eq

theorem refundIds_applyAll (ws : List Write) (D : Db) (p : Uuid) :
    refundIds (store.applyAll D ws) p = refundIds D p ++
      ((ws.filterMap newRefund?).filter fun r => r.paymentId = p).map (·.id) := by
  have h := map_refunds_applyAll (g := fun r => (r.id, r.paymentId)) (fun _ _ => rfl) ws D
  have hmap : ∀ l : List Refund, (l.filter fun r => r.paymentId = p).map (·.id) =
      ((l.map fun r => (r.id, r.paymentId)).filter fun x => x.2 = p).map (·.1) := by
    intro l
    rw [List.filter_map, List.map_map]
    rfl
  unfold refundIds Db.refundsOf
  rw [hmap, h, List.filter_append, List.map_append, ← hmap, ← hmap]

/-- Only `create_refund` makes a refund, and within what is left of the payment. -/
theorem newRefunds_of_does {P : Platform} {b : Block} {now : ℕ} {D : Db} {ws : List Write}
    {r : BRes b} (h : Does P b now D ws r) : ws.filterMap newRefund? = [] ∨
    ∃ refund row, ws.filterMap newRefund? = [refund] ∧ D.payment? refund.paymentId = some row ∧
      row.status = .succeeded ∧ 0 < refund.amountCents ∧
      D.refundTotal reservedStatuses refund.paymentId + refund.amountCents ≤ row.amountCents := by
  cases b with
  | createRefund p m k a =>
    obtain ⟨row, id, c, e₁, e₂, e₃, -, -, hrow, -, hs, -, hle, ha, -, rfl, rfl⟩ | ⟨_,
      -, -, rfl⟩ := h
    · exact Or.inr ⟨newRefund now id p m k a c, row, rfl, hrow, hs, ha, hle⟩
    · exact Or.inl rfl
  | getExistingPayment | getPayment | reconcileSelect | getRefund | selectProviderPaymentId =>
    rw [h.1]
    exact Or.inl rfl
  | createIdempotentPayment =>
    rcases h with ⟨id, event, c', -, -, -, -, -, rfl⟩ | ⟨row, -, -, -, rfl⟩ <;> exact Or.inl rfl
  | recordTransition =>
    obtain ⟨row, -, ⟨-, rfl⟩ | ⟨-, prov, fail, event, outbox, -, -, rfl⟩⟩ := h <;> exact Or.inl rfl
  | recordAwaitingWebhook =>
    obtain ⟨row, -, ⟨-, rfl⟩ | ⟨-, prov, event, -, rfl⟩⟩ := h <;> exact Or.inl rfl
  | recordRetry => obtain ⟨row, -, ⟨-, rfl⟩ | ⟨-, event, rfl⟩⟩ := h <;> exact Or.inl rfl
  | receiveProviderWebhook =>
    obtain ⟨eventId, -, rfl⟩ | ⟨w, eventId, field, p, row, status, -, -, -, -, -, -, -, h⟩ := h
    · exact Or.inl rfl
    rcases h with ⟨-, -, rfl⟩ | ⟨-, -, provider, event, outbox, -, rfl⟩ <;> exact Or.inl rfl
  | reconcileOne =>
    obtain ⟨-, rfl⟩ | ⟨-, row, event, outbox, -, -, rfl⟩ := h <;> exact Or.inl rfl
  | recordRefundTransition =>
    obtain ⟨row, -, ⟨-, rfl⟩ | ⟨-, prov, event, outbox, rfl⟩⟩ := h <;> exact Or.inl rfl
  | recordRefundRetry => obtain rfl | ⟨row, event, -, -, rfl⟩ := h <;> exact Or.inl rfl
  | completeSuccessfulRefund =>
    obtain ⟨refund, row, total, event, outbox, -, -, -, -, rfl⟩ := h
    exact Or.inl rfl
  | restorePaymentAfterFailedRefund =>
    obtain ⟨rfl, -⟩ | ⟨refund, row, -, -, -, rfl⟩ := h <;> exact Or.inl rfl

theorem pending_of_does {P : Platform} {b : Block} {now : ℕ} {D : Db} {ws : List Write} {r : BRes b}
    (hreq : Requires b D) (h : Does P b now D ws r) {p : Uuid} {row row' : Payment}
    (hp : D.payment? p = some row) (hp' : (store.applyAll D ws).payment? p = some row')
    (hs : row'.status = .refundPending) :
    row.status = .refundPending ∨
      ∃ id, refundIds (store.applyAll D ws) p = refundIds D p ++ [id] := by
  have hstep := payment_step hreq h p
  rw [hp, hp'] at hstep
  cases hstep with
  | keep he => exact Or.inl (he ▸ hs)
  | move hm =>
    rw [hs] at hm
    generalize hst : row.status = st at hm
    generalize hst' : PaymentStatus.refundPending = st' at hm
    cases hm with
    | transition hv hm => subst hst'; simp [paymentMoves] at hm
    | webhook ht => subst hst'; simp at ht
    | reconcile ht => subst hst'; simp at ht
    | refund =>
      obtain ⟨row₁, id, c, e₁, e₂, e₃, -, -, -, -, -, -, -, -, -, rfl, rfl⟩ | ⟨_, -, -, rfl⟩ := h
      · refine Or.inr ⟨id, ?_⟩
        rw [refundIds_applyAll]
        simp [createRefundWrites, newRefund?, newRefund]
      · have hsame : some row = some row' := hp.symm.trans hp'
        rw [Option.some.inj hsame, hs] at hst
        simp at hst
    | complete _ _ _ _ _ =>
      unfold statusAfterRefund at hst'
      split_ifs at hst'
    | restore _ _ => simp at hst'

end Payflow.Spec
