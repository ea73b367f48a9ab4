import Payflow.Spec.Ledger

/-! # What the row of a payment records

`retry_count` is the number of retries in the ledger, where each retry has its number. `version`
tells the statuses apart: it never goes back, and while it stays the same so does the status. -/

namespace Payflow.Safety

open Payflow.Lib Payflow.Model Payflow.Spec

variable {P : Platform} {D D' : Db} {p : Uuid}

/-! ### The retries -/

/-- The event schedules a retry of a payment. -/
def isPaymentRetry (e : PaymentEvent) : Bool := e.eventType = .paymentRetryScheduled

/-- The retries of a payment before and after a commit, with its new events. -/
inductive RetryChange : Option Payment → Option Payment → List PaymentEvent → Prop
  | same {before after es} : after.map (·.retryCount) = before.map (·.retryCount) →
      es.filter isPaymentRetry = [] → RetryChange before after es
  | created {row es} : row.retryCount = 0 → es.filter isPaymentRetry = [] →
      RetryChange none (some row) es
  | retried {row row' e} : row'.retryCount = row.retryCount + 1 → isPaymentRetry e = true →
      e.metadata.getItem "retry_number" = .ok (.int (row.retryCount + 1 : ℕ)) →
      RetryChange (some row) (some row') [e]

theorem retryChange_stay (h : D'.payments = D.payments) :
    RetryChange (D.payment? p) (D'.payment? p) [] := by
  refine .same ?_ rfl
  unfold Db.payment?
  rw [h]

/-- A commit that updates one payment and writes one event about it. -/
theorem retryChange_update {row : Payment} (hrow : D.payment? row.id = some row)
    {cols : PaymentCols} (hD' : D'.payments = (D.apply (.updatePayment row.id cols)).payments)
    {es : List PaymentEvent} (hes : ∀ e ∈ es, e.paymentId = row.id)
    (h : RetryChange (some row) (some { row with toPaymentCols := cols }) es) :
    RetryChange (D.payment? p) (D'.payment? p) (es.filter fun e => e.paymentId = p) := by
  have hsame : D'.payment? p = (D.apply (.updatePayment row.id cols)).payment? p := by
    unfold Db.payment?
    rw [hD']
  rw [hsame]
  by_cases hp : row.id = p
  · subst hp
    have hall : es.filter (fun e => e.paymentId = row.id) = es :=
      List.filter_eq_self.mpr fun e he => by simp [hes e he]
    rw [payment?_update_self hrow, hrow, hall]
    exact h
  · have hnone : es.filter (fun e => e.paymentId = p) = [] :=
      List.filter_eq_nil_iff.mpr fun e he => by simp [hes e he, hp]
    rw [hnone, payment?_update]
    refine .same ?_ rfl
    cases hp₀ : D.payment? p with
    | none => rfl
    | some row₀ =>
      have hne : ¬ row₀.id = row.id := fun he => hp (he.symm.trans (payment_id hp₀))
      simp [hne]

theorem retryChange_moved {row : Payment} (hrow : D.payment? row.id = some row)
    {cols : PaymentCols} (hD' : D'.payments = (D.apply (.updatePayment row.id cols)).payments)
    (hcols : cols.retryCount = row.retryCount) {e : PaymentEvent} (he : e.paymentId = row.id)
    (htype : e.eventType ≠ .paymentRetryScheduled) :
    RetryChange (D.payment? p) (D'.payment? p) ([e].filter fun e => e.paymentId = p) :=
  retryChange_update hrow hD' (List.forall_mem_singleton.mpr he)
    (.same (congrArg some hcols) (by simp [isPaymentRetry, htype]))

/-- **The retries in a commit.** -/
theorem retryChange_of_does {b : Block} {now : ℕ} {ws : List Write} {r : BRes b}
    (hreq : Requires b D) (h : Does P b now D ws r) (p : Uuid) :
    RetryChange (D.payment? p) ((store.applyAll D ws).payment? p)
      ((ws.filterMap newPaymentEvent?).filter fun e => e.paymentId = p) := by
  cases b with
  | getExistingPayment | getPayment | reconcileSelect | getRefund | selectProviderPaymentId =>
    rw [h.1]
    exact retryChange_stay rfl
  | createIdempotentPayment m k hash u a c =>
    rcases h with ⟨id, event, c', -, hid, -, -, rfl, rfl⟩ | ⟨row, -, -, -, rfl⟩
    · by_cases hne : id = p
      · subst hne
        have hnew : D.payment? (newPayment now id m k hash u a c').id = none := hid
        have hself := payment?_insert_self hnew
        have hself : (store.applyAll D [.insertPayment (newPayment now id m k hash u a c'),
            .insertPaymentEvent ⟨event, id, .paymentCreated, none, .created, .obj [],
              now⟩]).payment? id = some (newPayment now id m k hash u a c') := hself
        rw [hself, hid]
        exact .created rfl (by simp [newPaymentEvent?, isPaymentRetry])
      · have hother : (newPayment now id m k hash u a c').id ≠ p := hne
        have hsame : (store.applyAll D [.insertPayment (newPayment now id m k hash u a c'),
            .insertPaymentEvent ⟨event, id, .paymentCreated, none, .created, .obj [],
              now⟩]).payment? p = D.payment? p := payment?_insert hother
        rw [hsame]
        exact .same rfl (by simp [newPaymentEvent?, hne])
    · exact retryChange_stay rfl
  | recordTransition q type new provider failure =>
    obtain ⟨row, hrow, ⟨-, rfl⟩ | ⟨-, prov, fail, event, outbox, -, -, rfl⟩⟩ := h
    · exact retryChange_stay rfl
    · obtain rfl := payment_id hrow
      refine retryChange_moved hrow (by rfl) (by rfl) (by rfl) ?_
      rintro rfl
      simp [Requires, paymentMoves] at hreq
  | recordAwaitingWebhook q provider =>
    obtain ⟨row, hrow, ⟨-, rfl⟩ | ⟨hs, prov, event, -, rfl⟩⟩ := h
    · exact retryChange_stay rfl
    · obtain rfl := payment_id hrow
      exact retryChange_moved hrow (by rfl) (by rfl) (by rfl) (by simp)
  | recordRetry q reason =>
    obtain ⟨row, hrow, ⟨-, rfl⟩ | ⟨hs, event, rfl⟩⟩ := h
    · exact retryChange_stay rfl
    · obtain rfl := payment_id hrow
      refine retryChange_update hrow rfl (List.forall_mem_singleton.mpr rfl) ?_
      exact .retried rfl rfl rfl
  | receiveProviderWebhook payload =>
    obtain ⟨eventId, -, rfl⟩ | ⟨w, eventId, field, q, row, status, -, -, -, -, -, hrow, -, h⟩ := h
    · exact retryChange_stay rfl
    rcases h with ⟨-, -, rfl⟩ | ⟨-, hs, provider, event, outbox, -, rfl⟩
    · exact retryChange_stay rfl
    · obtain rfl := payment_id hrow
      refine retryChange_moved hrow (by rfl) (by rfl) (by rfl) ?_
      split_ifs <;> simp
  | reconcileOne q status =>
    obtain ⟨-, rfl⟩ | ⟨-, row, event, outbox, hrow, hs, rfl⟩ := h
    · exact retryChange_stay rfl
    · obtain rfl := payment_id hrow
      refine retryChange_moved hrow (by rfl) (by rfl) (by rfl) ?_
      split_ifs <;> simp
  | createRefund q m k a =>
    obtain ⟨row, id, c, e₁, e₂, e₃, -, -, hrow, -, hs, -, -, -, -, rfl, rfl⟩ | ⟨_, -, -, rfl⟩ := h
    · obtain rfl := payment_id hrow
      exact retryChange_moved hrow (by rfl) (by rfl) (by rfl) (by simp)
    · exact retryChange_stay rfl
  | recordRefundTransition =>
    obtain ⟨row, -, ⟨-, rfl⟩ | ⟨-, prov, event, outbox, rfl⟩⟩ := h <;> exact retryChange_stay rfl
  | recordRefundRetry =>
    obtain rfl | ⟨row, event, -, -, rfl⟩ := h <;> exact retryChange_stay rfl
  | completeSuccessfulRefund q =>
    obtain ⟨refund, row, total, event, outbox, -, hrow, -, -, rfl⟩ := h
    have hrow : D.payment? row.id = some row := payment_id hrow ▸ hrow
    refine retryChange_moved hrow (by rfl) (by rfl) (by rfl) ?_
    show eventAfterRefund total row.amountCents ≠ _
    rcases eventAfterRefund_cases total row.amountCents with he | he <;> simp [he]
  | restorePaymentAfterFailedRefund q =>
    obtain ⟨rfl, -⟩ | ⟨refund, row, hq, hrow, hs, rfl⟩ := h
    · exact retryChange_stay rfl
    · have hrow : D.payment? row.id = some row := payment_id hrow ▸ hrow
      exact retryChange_update hrow rfl (List.forall_mem_nil _) (.same rfl rfl)

/-- The retries of a payment are in the ledger, with their numbers; what is no payment has none. -/
def RetriesCounted (D : Db) (p : Uuid) : Prop :=
  ((ledger D p).filter isPaymentRetry).map (fun e => e.metadata.getItem "retry_number") =
    (List.range (((D.payment? p).map (·.retryCount)).getD 0)).map fun n => .ok (.int (n + 1 : ℕ))

theorem retriesCounted_step {b : Block} {now : ℕ} {ws : List Write} {r : BRes b}
    (hreq : Requires b D) (h : Does P b now D ws r) (ih : RetriesCounted D p) :
    RetriesCounted (store.applyAll D ws) p := by
  have hchange := retryChange_of_does hreq h p
  unfold RetriesCounted at ih ⊢
  rw [ledger_applyAll, List.filter_append, List.map_append, ih]
  generalize D.payment? p = before at hchange
  generalize (store.applyAll D ws).payment? p = after at hchange
  generalize (ws.filterMap newPaymentEvent?).filter (fun e => e.paymentId = p) = es at hchange
  cases hchange with
  | same hcount hnone => rw [hcount, hnone, List.map_nil, List.append_nil]
  | created hcount hnone => simp [hcount, hnone]
  | retried hcount hretry hnumber =>
    simp [hcount, hretry, hnumber, List.range_succ]

/-- **The retries of a payment are counted.** In every reachable state the ledger of a payment has
as many retries as its row counts, and they have the numbers 1, 2, … in the order of their
commits. -/
theorem payment_retries_counted {s : State P} (h : Reachable P s) :
    ∀ row ∈ s.db.payments,
      ((ledger s.db row.id).filter isPaymentRetry).map (fun e => e.metadata.getItem "retry_number") =
        (List.range row.retryCount).map fun n => .ok (.int (n + 1 : ℕ)) := by
  intro row hrow
  have hcounted := db_invariant (I := fun D => RetriesCounted D row.id) rfl
    (fun _ hreq hdoes _ ih => retriesCounted_step hreq hdoes ih) (reachableWhen_true h)
  have hlookup : s.db.payment? row.id = some row :=
    find?_key_of_mem (inv_of_reachable h).payment_ids hrow
  unfold RetriesCounted at hcounted
  rwa [hlookup] at hcounted

/-- The first request to the provider gets no reply, and one retry is scheduled. -/
theorem payment_retries_counted_once : ∃ s : State examplePlatform,
    s.db.payments.map (·.retryCount) = [1] ∧ ∀ row ∈ s.db.payments,
      ((ledger s.db row.id).filter isPaymentRetry).map (fun e => e.metadata.getItem "retry_number") =
        (List.range row.retryCount).map fun n => .ok (.int (n + 1 : ℕ)) := by
  have h : ((payflow examplePlatform).run (init _) (createPaymentScript 0 1 ++
      startPaymentScript 1 0 4 ++ [.step 1 (.http .timeoutException)] ++ quiet 1 3 ++ draw 1 [6] ++
      quiet 1 1)).map (fun s => s.db.payments.map (·.retryCount)) = some [1] := by decide +kernel
  obtain ⟨s, hs, hcount⟩ := Option.map_eq_some_iff.mp h
  exact ⟨s, hcount, payment_retries_counted (.run hs)⟩

/-! ### The version -/

/-- The second row is the first one in the same version, or in a later one. -/
def VersionLe (row row' : Payment) : Prop :=
  row.version ≤ row'.version ∧ (row'.version = row.version → row'.status = row.status)

theorem VersionLe.trans {row₁ row₂ row₃ : Payment} (h : VersionLe row₁ row₂)
    (h' : VersionLe row₂ row₃) : VersionLe row₁ row₃ := by
  refine ⟨Nat.le_trans h.1 h'.1, fun he => ?_⟩
  have h₁ := h.1
  have h₂ := h'.1
  exact (h'.2 (by omega)).trans (h.2 (by omega))

/-- A transaction that writes the status writes the next version. -/
theorem versionLe_set {now : ℕ} {row : Payment} {b : Block} {cols : PaymentCols}
    (h : PaymentSet P now D row b cols) : VersionLe row { row with toPaymentCols := cols } := by
  cases h with
  | awaiting | retry => exact ⟨Nat.le_refl _, fun _ => rfl⟩
  | transition | webhook | reconcile | refund | complete | restore =>
    exact ⟨Nat.le_succ _, fun he => absurd he (Nat.succ_ne_self _)⟩

/-- **The version tells the statuses apart.** In every run the version of a payment never goes back,
and if it is the same in two states of the run then so is the status. -/
theorem version_tells_status {s s' : State P} (h : Reachable P s)
    (h' : Machine.Reachable (payflow P) s s') {row row' : Payment}
    (hrow : s.db.payment? p = some row) (hrow' : s'.db.payment? p = some row') :
    VersionLe row row' := by
  have hlater : ∃ row₂, s'.db.payment? p = some row₂ ∧ VersionLe row row₂ := by
    refine db_invariant_from (C := fun _ _ => True)
      (I := fun D => ∃ row₂, D.payment? p = some row₂ ∧ VersionLe row row₂)
      (good_of_reachable h) ⟨row, hrow, Nat.le_refl _, fun _ => rfl⟩
      (fun {b now D ws r} _ _ hdoes _ hI => ?_) (h'.imp fun _ _ _ _ _ _ _ _ => trivial)
    obtain ⟨row₁, hrow₁, hle⟩ := hI
    have hchange := row_step hdoes p
    rw [hrow₁] at hchange
    generalize hafter : (store.applyAll D ws).payment? p = after at hchange
    cases hchange with
    | same => exact ⟨row₁, rfl, hle⟩
    | set hset => exact ⟨_, rfl, hle.trans (versionLe_set hset)⟩
  obtain ⟨row₂, hrow₂, hle⟩ := hlater
  obtain rfl := Option.some.inj (hrow₂.symm.trans hrow')
  exact hle

/-- A payment is created with version 1, and has version 3 when it has succeeded. -/
theorem version_tells_status_paid : ∃ (s s' : State examplePlatform) (row row' : Payment),
    Machine.Reachable (payflow examplePlatform) s s' ∧ s.db.payments = [row] ∧
      s'.db.payments = [row'] ∧ (row.version, row'.version) = (1, 3) ∧ VersionLe row row' := by
  have h : ((payflow examplePlatform).run (init _) (createPaymentScript 0 1)).bind (fun s =>
      ((payflow examplePlatform).run s (startPaymentScript 1 0 4 ++ payScript 1 6)).map fun s' =>
        (s.db.payments.map fun p => (p.id, p.version), s'.db.payments.map fun p => (p.id, p.version))) =
      some ([(exampleUuid 1, 1)], [(exampleUuid 1, 3)]) := by decide +kernel
  obtain ⟨s, hs, h⟩ := Option.bind_eq_some_iff.mp h
  obtain ⟨s', hs', h⟩ := Option.map_eq_some_iff.mp h
  obtain ⟨hrow, hrow'⟩ := Prod.mk.inj h
  obtain ⟨row, hrow, hcols⟩ := List.map_eq_singleton_iff.mp hrow
  obtain ⟨row', hrow', hcols'⟩ := List.map_eq_singleton_iff.mp hrow'
  obtain ⟨hid, hversion⟩ := Prod.mk.inj hcols
  obtain ⟨hid', hversion'⟩ := Prod.mk.inj hcols'
  refine ⟨s, s', row, row', .run hs', hrow, hrow', by rw [hversion, hversion'],
    version_tells_status (p := exampleUuid 1) (.run hs) (.run hs') ?_ ?_⟩
  · simp [Db.payment?, hrow, hid]
  · simp [Db.payment?, hrow', hid']

end Payflow.Safety
