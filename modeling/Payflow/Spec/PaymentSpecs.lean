import Payflow.Spec.Rules

/-! # The transactions on payments do what the contract says -/

namespace Payflow.Spec

open Payflow.Lib Payflow.Model

variable {P : Platform} {now : ℕ} {D : Db}

/-- Roll back, but not with an error of the provider. -/
def NoProviderError : Db → Exn → Prop := fun _ e => isProviderError e = false

theorem isProviderError_of_isDatabaseError {e : Exn} (h : isDatabaseError e = true) :
    isProviderError e = false := by
  cases e <;> simp_all [isDatabaseError, isProviderError]

theorem isDatabaseError_dumpList {l : List Json} {e : Exn} (h : Json.dumpList P l = .error e) :
    isDatabaseError e = true := by
  unfold Json.dumpList at h
  simp only at h
  split_ifs at h
  · obtain rfl := Except.error.inj h
    rfl
  · obtain rfl := Except.error.inj h
    rfl
  · obtain rfl := Except.error.inj h
    rfl
  · split at h
    · cases h
    · obtain rfl := Except.error.inj h
      rfl

theorem isDatabaseError_listParam {l : List Json} {e : Exn} (h : Json.listParam P l = .error e) :
    isDatabaseError e = true := by
  unfold Json.listParam at h
  cases hd : Json.dumpList P l with
  | error e' =>
    rw [hd] at h
    obtain rfl := Except.error.inj h
    exact isDatabaseError_dumpList hd
  | ok t =>
    rw [hd] at h
    simp only at h
    split_ifs at h
    obtain rfl := Except.error.inj h
    rfl

theorem eq_of_map_error {α β : Type} {f : α → β} {x : Except Exn α} {e : Exn}
    (h : x.map f = .error e) : x = .error e := by
  cases x with
  | error e' => exact congrArg Except.error (Except.error.inj h)
  | ok a => cases h

/-- A value that is no parameter of a text column is refused by psycopg or by PostgreSQL. -/
theorem isDatabaseError_textParam {v : Json} {e : Exn} (h : v.textParam P = .error e) :
    isDatabaseError e = true := by
  unfold Json.textParam at h
  split at h
  · cases h
  · split_ifs at h
    obtain rfl := Except.error.inj h
    rfl
  · exact isDatabaseError_listParam (eq_of_map_error h)
  · obtain rfl := Except.error.inj h
    rfl
  · obtain rfl := Except.error.inj h
    rfl

theorem isDatabaseError_assignText {v : Json} {e : Exn} (h : v.assignText P = .error e) :
    isDatabaseError e = true := by
  unfold Json.assignText at h
  split at h
  · cases h
  · cases h
  · cases h
  · exact isDatabaseError_dumpList (eq_of_map_error h)
  · exact isDatabaseError_textParam h

theorem isDatabaseError_uuidOfText {s : String} {e : Exn} (h : Json.uuidOfText P s = .error e) :
    isDatabaseError e = true := by
  unfold Json.uuidOfText at h
  split at h
  · cases h
  · obtain rfl := Except.error.inj h
    rfl

theorem isDatabaseError_uuidParam {v : Json} {e : Exn} (h : v.uuidParam P = .error e) :
    isDatabaseError e = true := by
  unfold Json.uuidParam at h
  split at h
  · cases h
  · exact isDatabaseError_uuidOfText h
  · split at h
    · exact isDatabaseError_uuidOfText h
    · rename_i hl
      obtain rfl := Except.error.inj h
      exact isDatabaseError_listParam hl
  · obtain rfl := Except.error.inj h
    rfl
  · obtain rfl := Except.error.inj h
    rfl

theorem isProviderError_textParam {v : Json} {e : Exn} (h : v.textParam P = .error e) :
    isProviderError e = false :=
  isProviderError_of_isDatabaseError (isDatabaseError_textParam h)

theorem isProviderError_assignText {v : Json} {e : Exn} (h : v.assignText P = .error e) :
    isProviderError e = false :=
  isProviderError_of_isDatabaseError (isDatabaseError_assignText h)

theorem isProviderError_uuidParam {v : Json} {e : Exn} (h : v.uuidParam P = .error e) :
    isProviderError e = false :=
  isProviderError_of_isDatabaseError (isDatabaseError_uuidParam h)

theorem isProviderError_getItem {v : Json} {key : String} {e : Exn} (h : v.getItem key = .error e) :
    isProviderError e = false := by
  unfold Json.getItem at h
  split at h
  · split at h
    · simp at h
    · obtain rfl := Except.error.inj h
      rfl
  all_goals
    obtain rfl := Except.error.inj h
    rfl

theorem isProviderError_notNull {column : String} {v : Option String} {e : Exn}
    (h : notNull column v = .error e) : isProviderError e = false := by
  unfold notNull at h
  split at h
  · simp at h
  · obtain rfl := Except.error.inj h
    rfl

theorem eq_of_textParam_str {s : String} {t : Option String} (h : (Json.str s).textParam P = .ok t) :
    t = some s := by
  unfold Json.textParam at h
  simp only at h
  split_ifs at h
  exact (Except.ok.inj h).symm

theorem eq_of_textParam_option {s t : Option String} (h : (textOption s).textParam P = .ok t) :
    t = s := by
  cases s with
  | none => exact (Except.ok.inj h).symm
  | some s => exact eq_of_textParam_str h

theorem eq_of_notNull {column : String} {v : Option String} {s : String}
    (h : notNull column v = .ok s) : v = some s := by
  unfold notNull at h
  split at h
  · rw [Except.ok.inj h]
  · simp at h

theorem Once.imp {p q : Db → Prop} (h : Once D p) (hpq : ∀ D₀, p D₀ → q D₀) : Once D q := by
  obtain ⟨D₀, hi, hle, hp⟩ := h
  exact ⟨D₀, hi, hle, hpq D₀ hp⟩

theorem once_of {p : Db → Prop} (hi : Inv D) (h : p D) : Once D p := ⟨D, hi, .refl D, h⟩

/-! ### Reading -/

/-- The commit of a transaction that has only read, without a lock. -/
theorem meets_once {α : Type} {Q : ℕ → Db → List Write → α → Prop} {E : Db → Exn → Prop} {a : α}
    (p : Db → Prop) (hi : Inv D) (hp : p D) (h : ∀ D', Once D' p → Q now D' [] a) :
    Meets store rely Q E now (.pure a) [] [] D :=
  Meets.pure stable_once (once_of hi hp) fun D' _ ho => h D' ho

/-- A transaction that is one `SELECT`; what it leaves open is picked. -/
theorem meets_select {s : Stmt} {f : Pick → ℕ → Db → SRes s}
    (hx : ∀ v D, stmtExec v D s = some (f v.pick v.now D, [])) (hl : ∀ v D, stmtLocks v D s = [])
    {Q : ℕ → Db → List Write → SRes s → Prop} {E : Db → Exn → Prop}
    (h : ∀ D' a, Once D' (fun D₀ => ∃ pick, f pick now D₀ = a) → Q now D' [] a) :
    Meets store rely Q E now (.perform s) [] [] D :=
  meets_read (f := fun v D => f v.pick v.now D) hx hl stable_true trivial fun D' hi _ v hv =>
    meets_once (fun D₀ => ∃ pick, f pick now D₀ = f v.pick v.now D') hi ⟨v.pick, by rw [hv]⟩
      fun D'' ho => h D'' _ ho

/-! ### payment_service.py -/

theorem meets_createIdempotentPayment (m k h u : String) (a : ℕ) (c : String) :
    Meets store rely (fun now D ws r => CreateIdempotentPaymentCommit now D ws m k h u a c r)
      (Fails (.createIdempotentPayment m k h u a c)) now
      (createIdempotentPaymentTxn m k h u a c) [] [] D := by
  refine meets_uuid4 stable_true trivial fun D₁ id _ _ => ?_
  refine meets_insertPayment stable_true trivial (fun _ _ he => Or.inl he) ?_ ?_
  · intro D₂ _ _ hkey
    refine meets_selectPaymentByKey (stable_paymentByKey (m := m) (k := k)) hkey fun D₃ hi hkey => ?_
    simp only [Store.applyAll_nil]
    cases hrow : D₃.paymentByKey? m k with
    | none => simp [hrow] at hkey
    | some existing =>
      refine Meets.ite (fun hh => Or.inr ⟨rfl, existing, hrow, hh⟩) fun hh => ?_
      exact meets_once (fun D₀ => D₀.paymentByKey? m k = some existing) hi hrow
        fun _ ho => Or.inr ⟨existing, ho, not_not.mp hh, rfl, rfl⟩
  · intro D₂ c' _ _ hkey hid ha hc
    have hst : rely.Stable [Lock.paymentKey m k, .newId id, .payment id]
        fun D => (D.paymentByKey? m k).isSome = false ∧ D.payment? id = none :=
      (stable_no_paymentKey (by simp)).and (stable_payment (by simp))
    refine meets_insertPaymentEvent hst ⟨hkey, hid⟩ fun D₃ event _ hK => ?_
    refine Meets.pure hst hK fun D₄ _ hK => Or.inl ⟨id, event, c', ?_, hK.2, ha, hc, rfl, rfl⟩
    simpa using hK.1

/-! ### tasks.py -/

theorem meets_recordTransition (p : Uuid) (type : EventType) (new : PaymentStatus)
    (provider : Json) (failure : Option String) :
    Meets store rely (fun now D ws _ => RecordTransitionCommit now D ws P p type new provider failure)
      NoProviderError now (recordTransition P p type new provider failure) [] [] D := by
  refine meets_selectPaymentForUpdate stable_true trivial (fun _ _ _ _ => rfl) ?_
  intro D₁ row hi _ hrow
  have hst : rely.Stable [.payment p] fun D => D.payment? p = some row :=
    stable_payment (by simp)
  have hid : row.id = p := (find?_key hrow).2
  refine Meets.ite (fun hv => ?_) fun hv => ?_
  · refine Meets.ite (fun hs => ?_) fun hs => rfl
    exact Meets.pure hst hrow fun D₂ _ hrow => ⟨row, hrow, Or.inl ⟨hs, rfl⟩⟩
  · refine Meets.ofExcept (fun e he => isProviderError_textParam he) fun provider' hprov => ?_
    refine Meets.ofExcept (fun e he => isProviderError_textParam he) fun failure' hfail => ?_
    refine meets_updatePayment hst hrow (fun D₂ h => h) fun D₂ _ hrow => ?_
    refine meets_insertPaymentEvent hst hrow fun D₃ event _ hrow => ?_
    refine meets_insertOutboxEvent (k := .pure) hst hrow fun D₄ outbox _ hrow => ?_
    refine Meets.pure hst hrow fun D₅ _ hrow => ⟨row, hrow, Or.inr ⟨not_not.mp hv, provider',
      failure', event, outbox, hprov, hfail, ?_⟩⟩
    simp [transitionWrites, hid]

theorem meets_recordAwaitingWebhook (p : Uuid) (provider : Json) :
    Meets store rely (fun now D ws _ => RecordAwaitingWebhookCommit now D ws P p provider)
      NoProviderError now (recordAwaitingWebhook P p provider) [] [] D := by
  refine meets_selectPaymentForUpdate stable_true trivial (fun _ _ _ _ => rfl) ?_
  intro D₁ row hi _ hrow
  have hst : rely.Stable [.payment p] fun D => D.payment? p = some row :=
    stable_payment (by simp)
  refine Meets.ite (fun hs => ?_) fun hs => ?_
  · exact Meets.pure hst hrow fun D₂ _ hrow => ⟨row, hrow, Or.inl ⟨hs, rfl⟩⟩
  · refine Meets.ofExcept (fun e he => isProviderError_assignText he) fun provider' hprov => ?_
    refine meets_updatePayment hst hrow (fun D₂ h => h) fun D₂ _ hrow => ?_
    refine meets_insertPaymentEvent (k := .pure) hst hrow fun D₃ event _ hrow => ?_
    exact Meets.pure hst hrow fun D₄ _ hrow => ⟨row, hrow, Or.inr ⟨not_not.mp hs, provider', event,
      hprov, rfl⟩⟩

theorem meets_recordRetry (p : Uuid) (reason : String) :
    Meets store rely (fun now D ws _ => RecordRetryCommit now D ws p reason)
      NoProviderError now (recordRetry P p reason) [] [] D := by
  refine meets_selectPaymentForUpdate stable_true trivial (fun _ _ _ _ => rfl) ?_
  intro D₁ row hi _ hrow
  have hst : rely.Stable [.payment p] fun D => D.payment? p = some row :=
    stable_payment (by simp)
  have hid : row.id = p := (find?_key hrow).2
  refine Meets.ite (fun hs => ?_) fun hs => ?_
  · exact Meets.pure hst hrow fun D₂ _ hrow => ⟨row, hrow, Or.inl ⟨hs, rfl⟩⟩
  · refine Meets.ofExcept (fun e he => isProviderError_textParam he) fun failure hfail => ?_
    refine meets_updatePayment hst hrow (fun D₂ h => h) fun D₂ _ hrow => ?_
    refine meets_insertPaymentEventSelect (k := .pure) hst hrow
      (fun D₃ h => payment?_update_self h _) fun D₃ event _ hrow => ?_
    refine Meets.pure hst hrow fun D₄ _ hrow => ⟨row, hrow, Or.inr ⟨not_not.mp hs, event, ?_⟩⟩
    simp [eq_of_textParam_str hfail, not_not.mp hs]

/-! ### webhooks.py -/

theorem meets_receiveProviderWebhook (payload : Json) :
    Meets store rely (fun now D ws r => ReceiveProviderWebhookCommit now D ws P payload r)
      NoProviderError now (receiveProviderWebhookTxn P payload) [] [] D := by
  refine Meets.ofExcept (fun e he => isProviderError_getItem he) fun eventId heventId => ?_
  refine Meets.ofExcept (fun e he => isProviderError_assignText he) fun providerEventId hprov => ?_
  refine Meets.ofExcept (fun e he => isProviderError_getItem he) fun eventType heventType => ?_
  refine Meets.ofExcept (fun e he => isProviderError_assignText he) fun eventType' htype => ?_
  refine Meets.ite (fun _ => rfl) fun _ => ?_
  refine Meets.ofExcept (fun e he => isProviderError_notNull he) fun providerEventId' hprov' => ?_
  refine Meets.ofExcept (fun e he => isProviderError_notNull he) fun eventType'' htype' => ?_
  refine meets_insertWebhookEvent stable_true trivial ?_ ?_
  · intro D₁ hi _
    exact meets_once (fun _ => True) hi trivial fun D₂ _ => Or.inl ⟨eventId, rfl, rfl⟩
  intro D₁ id _ _ hnew
  have hst₁ : rely.Stable [.webhookKey providerEventId'] fun D =>
      (D.webhookEvents.any fun w => w.providerEventId = providerEventId') = false :=
    stable_no_webhook (by simp)
  refine Meets.ofExcept (fun e he => isProviderError_getItem he) fun paymentIdField hfield => ?_
  refine Meets.ofExcept (fun e he => isProviderError_uuidParam he) fun paymentId hid => ?_
  cases paymentId with
  | none => rfl
  | some paymentId =>
    refine meets_selectPaymentForUpdate hst₁ hnew (fun _ _ _ _ => rfl) ?_
    intro D₂ row _ hnew hrow
    have hst : rely.Stable [.webhookKey providerEventId', .payment paymentId] fun D =>
        (D.webhookEvents.any fun w => w.providerEventId = providerEventId') = false ∧
          D.payment? paymentId = some row :=
      (stable_no_webhook (by simp)).and (stable_payment (by simp))
    have hrowId : row.id = paymentId := (find?_key hrow).2
    have hK := And.intro hnew hrow
    -- what the answer needs besides the branch
    have hdone : ∀ {D r ws status}, D.webhookEvents.any
        (fun w => w.providerEventId = providerEventId') = false ∧ D.payment? paymentId = some row →
        payload.getItem "status" = .ok status →
        (r = .alreadyFinalized eventId ∧ (row.status = .succeeded ∨ row.status = .refunded) ∧
          ws = [.insertWebhookEvent ⟨id, providerEventId', eventType'', payload, now⟩] ∨
        r = .processed eventId (webhookStatus status) ∧ row.status = .processing ∧
          ∃ provider event outbox, (∃ field, payload.getItem "provider_payment_id" = .ok field ∧
            field.assignText P = .ok provider) ∧
            ws = .insertWebhookEvent ⟨id, providerEventId', eventType'', payload, now⟩ ::
              webhookWrites now row (webhookStatus status) provider eventId paymentIdField event
                outbox) →
        ReceiveProviderWebhookCommit now D ws P payload r := by
      intro D r ws status hD hstatus h
      refine Or.inr ⟨⟨id, providerEventId', eventType'', payload, now⟩, eventId, paymentIdField,
        paymentId, row, status, ⟨eventId, eventType, heventId, ?_, heventType, ?_, rfl, rfl⟩, ?_,
        heventId, hfield, hid, hD.2, hstatus, h⟩
      · rw [hprov, eq_of_notNull hprov']
      · rw [htype, eq_of_notNull htype']
      · simpa using hD.1
    refine Meets.ofExcept (fun e he => isProviderError_getItem he) fun status hstatus => ?_
    refine Meets.ite (fun hs => ?_) fun _ => Meets.ite (fun _ => rfl) fun hs => ?_
    · exact Meets.pure hst hK fun D₃ _ hK => hdone hK hstatus (Or.inl ⟨rfl, hs, rfl⟩)
    refine Meets.ofExcept (fun e he => isProviderError_getItem he) fun provider hprovider => ?_
    refine Meets.ofExcept (fun e he => isProviderError_assignText he) fun provider' htext => ?_
    refine meets_updatePayment hst hK (fun D₃ h => h.2) fun D₃ _ hK => ?_
    refine meets_insertPaymentEvent hst hK fun D₄ event _ hK => ?_
    refine meets_insertOutboxEvent hst hK fun D₅ outbox _ hK => ?_
    refine Meets.pure hst hK fun D₆ _ hK => hdone hK hstatus (Or.inr ⟨rfl, not_not.mp hs, provider',
      event, outbox, ⟨provider, hprovider, htext⟩, ?_⟩)
    simp [webhookWrites, webhookStatus, hrowId]

/-! ### reconciliation.py -/

theorem meets_reconcileOne (p : Uuid) (status : PaymentStatus) :
    Meets store rely (fun now D ws r => ReconcileOneCommit now D ws p status r)
      NoProviderError now (reconcileOneTxn p status) [] [] D := by
  refine meets_selectPaymentForUpdate stable_true trivial ?_ ?_
  · intro D₁ hi _ _
    exact meets_once (fun _ => True) hi trivial fun D₂ _ => Or.inl ⟨rfl, rfl⟩
  intro D₁ row hi _ hrow
  have hst : rely.Stable [.payment p] fun D => D.payment? p = some row :=
    stable_payment (by simp)
  have hid : row.id = p := (find?_key hrow).2
  refine Meets.ite (fun _ => ?_) fun hs => ?_
  · exact Meets.pure hst hrow fun D₂ _ _ => Or.inl ⟨rfl, rfl⟩
  refine meets_updatePayment hst hrow (fun D₂ h => h) fun D₂ _ hrow => ?_
  refine meets_insertPaymentEvent hst hrow fun D₃ event _ hrow => ?_
  refine meets_insertOutboxEvent hst hrow fun D₄ outbox _ hrow => ?_
  refine Meets.pure hst hrow fun D₅ _ hrow => Or.inr ⟨rfl, row, event, outbox, hrow,
    not_not.mp hs, ?_⟩
  simp [reconcileWrites, hid]

end Payflow.Spec
