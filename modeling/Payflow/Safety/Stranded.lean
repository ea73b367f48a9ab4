import Payflow.Safety.Landing
import Payflow.Spec.Tasks

/-! # What a finished task leaves behind

`process_payment` and `process_refund` handle two exceptions of the provider client. An exception of
httpx that is neither a timeout nor a network error, a body without the expected fields, a text that
PostgreSQL cannot store or a message the broker does not take ends an execution halfway, and so may
another delivery of the same task. In the runs that keep to `withoutMishap` no finished task leaves
its payment `PROCESSING` without the id that reconciliation needs, nor its refund open or its
payment waiting for it. -/

namespace Payflow.Safety

open Payflow.Lib Payflow.Model Payflow.Spec

variable {P : Platform} {α : Type}

/-! ### The rules -/

/-- From the database `D` on the program ends only as `Q` says, within the terms. -/
abbrev Ensures (P : Platform) (Q : Except Exn α → Db → Prop) (p : Proc α) (D : Db) : Prop :=
  Machine.Leaves (payflow P) rely (contract P) (withoutMishap P) Onward Q p D

/-- The transaction ends only as `E` says of what its statements have seen. -/
abbrev EndsIn (P : Platform) (now : ℕ) (E : Except Exn α → Db → Prop) (t : Tx α) (D : Db) : Prop :=
  Machine.TxLeaves (payflow P) rely Onward now (fun res _ => E res) t [] D

/-- The transaction raises only where the database is so. -/
def Raises (F : Db → Prop) : Except Exn α → Db → Prop
  | .ok _, _ => True
  | .error _, D => F D

section rules

variable {β : Type} {Q : Except Exn α → Db → Prop} {D : Db} {p q : Uuid} {now : ℕ}

theorem ensures_txn {b : Block} {k : BRes b → Proc α} (E : Except Exn (BRes b) → Db → Prop)
    (hbody : ∀ D' now, Onward D D' → EndsIn P now E (body P b) D')
    (hok : ∀ D₁ D₂ now ws a, Onward D D₁ → E (.ok a) D₁ → Onward D₁ D₂ → Inv D₂ → Requires b D₂ →
      Does P b now D₂ ws a → plainCommit P b D₂ → Ensures P Q (k a) (store.applyAll D₂ ws))
    (herror : ∀ D₁ D₂ e, Onward D D₁ → E (.error e) D₁ → Onward D₁ D₂ → (∃ D₀, Fails b D₀ e) →
      plainRollback b D₂ → Q (.error e) D₂) : Ensures P Q ((txn b).bind k) D :=
  Machine.Leaves.txn (moves P) E hbody hok fun D₁ D₂ e h₁ hE h₂ _ => herror D₁ D₂ e h₁ hE h₂

theorem endsIn_read (st : Stmt) (f : Db → SRes st) (hx : ∀ v D, stmtExec v D st = some (f D, []))
    {E : Except Exn β → Db → Prop} {k : SRes st → Tx β}
    (h : ∀ D', Onward D D' → EndsIn P now E (k (f D')) D') :
    EndsIn P now E ((Prog.perform st).bind k) D := by
  intro D' hD _ pick r ws' he
  have he' : stmtExec ⟨now, pick⟩ D' st = some (r, ws') := he
  rw [hx] at he'
  obtain ⟨rfl, rfl⟩ := Prod.mk.inj (Option.some.inj he')
  exact h D' hD

theorem not_adapts {x : Except Exn (Option String)} {e : Exn} (h : x = .error e) : ¬ Adapts x := by
  rintro ⟨t, ht⟩
  rw [h] at ht
  cases ht

theorem hasNul_of_textParam {s : String} {e : Exn} (h : (Json.str s).textParam P = .error e) :
    hasNul s = true := by
  by_contra hnul
  rw [show (Json.str s).textParam P = .ok (some s) from if_neg hnul] at h
  cases h

/-! ### The transactions of process_payment -/

theorem endsIn_recordTransition {type : EventType} {new : PaymentStatus} {provider : Json}
    {failure : Option String} : EndsIn P now (Raises fun D =>
      (∀ row, D.payment? p = some row → new ∉ validTransitions row.status ∧ row.status ≠ new) ∨
        ¬ (Adapts (provider.textParam P) ∧ Adapts ((textOption failure).textParam P)))
      (recordTransition P p type new provider failure) D := by
  refine endsIn_read (.selectPaymentForUpdate p) (fun D => D.payment? p) (fun _ _ => rfl)
    fun D₁ _ => ?_
  cases hrow : D₁.payment? p with
  | none => exact Or.inl fun row h => by simp [hrow] at h
  | some row =>
    refine .ite (fun hv => .ite (fun _ => trivial) fun hs => Or.inl fun row' hrow' =>
      ?_) fun _ => ?_
    · obtain rfl := Option.some.inj (hrow.symm.trans hrow')
      exact ⟨hv, hs⟩
    refine .ofExcept (fun e he => Or.inr fun h => not_adapts he h.1) fun provider' _ => ?_
    refine .ofExcept (fun e he => Or.inr fun h => not_adapts he h.2) fun failure' _ => ?_
    exact .stmt fun _ _ _ _ => .stmt fun _ _ _ _ => .stmt fun _ _ _ _ => trivial

theorem endsIn_recordAwaitingWebhook {provider : Json} : EndsIn P now (Raises fun D =>
      D.payment? p = none ∨ ¬ Adapts (provider.assignText P))
      (recordAwaitingWebhook P p provider) D := by
  refine endsIn_read (.selectPaymentForUpdate p) (fun D => D.payment? p) (fun _ _ => rfl)
    fun D₁ _ => ?_
  cases hrow : D₁.payment? p with
  | none => exact Or.inl hrow
  | some row =>
    refine .ite (fun _ => trivial) fun _ => ?_
    refine .ofExcept (fun e he => Or.inr (not_adapts he)) fun provider' _ => ?_
    exact .stmt fun _ _ _ _ => .stmt fun _ _ _ _ => trivial

theorem endsIn_recordRetry {reason : String} : EndsIn P now (Raises fun D =>
      D.payment? p = none ∨ hasNul (firstTwoHundred reason) = true) (recordRetry P p reason) D := by
  refine endsIn_read (.selectPaymentForUpdate p) (fun D => D.payment? p) (fun _ _ => rfl)
    fun D₁ _ => ?_
  cases hrow : D₁.payment? p with
  | none => exact Or.inl hrow
  | some row =>
    refine .ite (fun _ => trivial) fun _ => ?_
    refine .ofExcept (fun e he => Or.inr (hasNul_of_textParam he)) fun failure _ => ?_
    exact .stmt fun _ _ _ _ => .stmt fun _ _ _ _ => trivial

/-- A retry of the task is scheduled, or the payment has landed. -/
def Lands (p : Uuid) (out : Except Exn α) (D : Db) : Prop := out = .error .retry ∨ Landed D p

/-- The `try` block has brought the payment somewhere, or raises what is handled. -/
def Tries (p : Uuid) (out : Except Exn α) (D : Db) : Prop :=
  Landed D p ∨ PaymentBegun D p ∧ ∃ message, hasNul (firstTwoHundred message) = false ∧
    (out = .error (.transientProviderError message) ∨
      out = .error (.permanentProviderError message))

theorem ensures_landed (hQ : ∀ out D, Landed D p → Q out D) {prog : Proc α} (h : Landed D p) :
    Ensures P Q prog D :=
  Machine.Leaves.stays (moves P) (F := fun D => Landed D p) (fun _ _ hD => hD.landed p) hQ h

theorem ensures_processing (hQ : ∀ out D, Landed D p → Q out D) {k : Unit → Proc α}
    (hp : ∃ row, D.payment? p = some row) (hk : ∀ D', PaymentBegun D' p → Ensures P Q (k ()) D') :
    Ensures P Q ((txn (.recordTransition p .paymentProcessing .processing .null none)).bind k)
      D := by
  refine ensures_txn _ (fun _ _ _ => endsIn_recordTransition) ?_ ?_
  · rintro D₁ D₂ now ws a - - - - - hdoes -
    obtain ⟨row, hrow, ⟨hs, rfl⟩ | ⟨-, provider, failure, event, outbox, -, -, rfl⟩⟩ := hdoes
    · exact hk _ ⟨row, hrow, by simp [hs]⟩
    · obtain rfl := payment_id hrow
      exact hk _ ⟨_, payment?_update_self hrow _, by simp⟩
  · rintro D₁ D₂ e hD₁ hE hD₂ - -
    refine hQ _ _ (hD₂.landed p ?_)
    obtain ⟨row, hrow⟩ := hp
    obtain ⟨row', hrow', -⟩ := hD₁.payment hrow
    rcases hE with hrefused | htexts
    · obtain ⟨hv, hs⟩ := hrefused row' hrow'
      exact ⟨row', hrow', fun hc => by simp [hc, validTransitions] at hv, fun hst => hs hst.1⟩
    · exact absurd ⟨⟨none, rfl⟩, none, rfl⟩ htexts

/-- A payment gets its last status, or has been decided otherwise. -/
theorem ensures_recordTransition (hQ : ∀ out D, Landed D p → Q out D) {type : EventType}
    {new : PaymentStatus} {provider : Json} {failure : Option String} {k : Unit → Proc α}
    (hnew : new = .succeeded ∨ new = .failed) (hp : PaymentBegun D p)
    (hprovider : Adapts (provider.textParam P))
    (hfailure : Adapts ((textOption failure).textParam P)) :
    Ensures P Q ((txn (.recordTransition p type new provider failure)).bind k) D := by
  refine ensures_txn _ (fun _ _ _ => endsIn_recordTransition) ?_ ?_
  · rintro D₁ D₂ now ws a - - - - - hdoes -
    refine ensures_landed hQ ?_
    obtain ⟨row, hrow, ⟨hs, rfl⟩ | ⟨-, provider, failure, event, outbox, -, -, rfl⟩⟩ := hdoes
    · exact ⟨row, hrow, by rcases hnew with rfl | rfl <;> simp [hs, Stranded]⟩
    · obtain rfl := payment_id hrow
      exact ⟨_, payment?_update_self hrow _, by rcases hnew with rfl | rfl <;> simp [Stranded]⟩
  · rintro D₁ D₂ e hD₁ hE hD₂ - -
    refine hQ _ _ (hD₂.landed p ?_)
    obtain ⟨row, hrow, hs⟩ := hD₁.begun p hp
    rcases hE with hrefused | htexts
    · -- the payment is not `PROCESSING`
      obtain ⟨hv, -⟩ := hrefused row hrow
      refine ⟨row, hrow, hs, fun hst => hv ?_⟩
      rw [hst.1]
      rcases hnew with rfl | rfl <;> simp [validTransitions]
    · exact absurd ⟨hprovider, hfailure⟩ htexts

theorem ensures_recordAwaitingWebhook (hQ : ∀ out D, Landed D p → Q out D) {provider : Json}
    {k : Unit → Proc α} (hp : PaymentBegun D p) (hprovider : Adapts (provider.assignText P)) :
    Ensures P Q ((txn (.recordAwaitingWebhook p provider)).bind k) D := by
  refine ensures_txn _ (fun _ _ _ => endsIn_recordAwaitingWebhook) ?_ ?_
  · rintro D₁ D₂ now ws a hD₁ - hD₂ - - hdoes hT
    refine ensures_landed hQ ?_
    obtain ⟨row, hrow, ⟨hs, rfl⟩ | ⟨hs, provider', event, hprov, rfl⟩⟩ := hdoes
    · obtain ⟨row', hrow', hs'⟩ := hD₂.begun p (hD₁.begun p hp)
      obtain rfl := Option.some.inj (hrow.symm.trans hrow')
      exact ⟨row, hrow, hs', fun hst => hs hst.1⟩
    · obtain rfl := payment_id hrow
      refine ⟨_, payment?_update_self hrow _, by simp [hs], fun hst => ?_⟩
      exact hT row hrow hs (hprov.trans (congrArg Except.ok hst.2))
  · rintro D₁ D₂ e hD₁ hE hD₂ - -
    obtain ⟨row, hrow, hs⟩ := hD₁.begun p hp
    rcases hE with hnone | htext
    · simp [hrow] at hnone
    · exact absurd hprovider htext

theorem ensures_recordRetry {reason : String} {k : Unit → Proc α} (hp : PaymentBegun D p)
    (hreason : hasNul (firstTwoHundred reason) = false)
    (hk : ∀ D', PaymentBegun D' p → Ensures P Q (k ()) D') :
    Ensures P Q ((txn (.recordRetry p reason)).bind k) D := by
  refine ensures_txn _ (fun _ _ _ => endsIn_recordRetry) ?_ ?_
  · rintro D₁ D₂ now ws a hD₁ - hD₂ - hreq hdoes -
    exact hk _ (begun_after hreq hdoes (hD₂.begun p (hD₁.begun p hp)))
  · rintro D₁ D₂ e hD₁ hE hD₂ - -
    obtain ⟨row, hrow, hs⟩ := hD₁.begun p hp
    rcases hE with hnone | hnul
    · simp [hrow] at hnone
    · simp [hreason] at hnul

/-! ### Texts that can be stored -/

theorem adapts_some {s : String} (h : hasNul s = false) :
    Adapts ((textOption (some s)).textParam P) := by
  refine ⟨some s, ?_⟩
  show (Json.str s).textParam P = _
  simp [Json.textParam, h]

/-! ### The provider client -/

theorem ensures_providerResponse {transient : String} {unavailable : ℕ → String}
    {rejected : String → String} {fields : Json → Prop} {out : HttpOutcome} {k : Json → Proc α}
    (hout : Usable rejected fields out)
    (htransient : Q (.error (.transientProviderError transient)) D)
    (hunavailable : ∀ n, Q (.error (.transientProviderError (unavailable n))) D)
    (hrejected : ∀ text, hasNul (firstTwoHundred (rejected text)) = false →
      Q (.error (.permanentProviderError (rejected text))) D)
    (hk : ∀ body, fields body → Ensures P Q (k body) D) :
    Ensures P Q ((providerResponse transient unavailable (fun _ => rejected) out).bind k) D := by
  cases out with
  | timeoutException | networkError => exact htransient
  | otherError name => exact hout.elim
  | response statusCode text json =>
    rcases hout with h₅ | ⟨h₄, h₅, hnul⟩ | ⟨h₄, body, rfl, hfields⟩
    · rw [providerResponse_unavailable h₅]
      exact hunavailable statusCode
    · rw [providerResponse_rejected (by omega) h₄]
      exact hrejected text hnul
    · rw [providerResponse_ok (by omega)]
      exact hk body hfields

/-! ### process_payment -/

/-- The fields of an answer decide the payment, or note the id to wait for. -/
theorem ensures_paymentFields {body : Json} (hp : PaymentBegun D p) (hbody : PaymentFields P body) :
    Ensures P (Tries p) ((Prog.ofExcept (body.getItem "status")).bind fun providerStatus =>
      (Prog.ofExcept (body.getItem "provider_payment_id")).bind fun providerPaymentId =>
        if providerStatus.isStr "SUCCEEDED" then
          (txn (.recordTransition p .paymentSucceeded .succeeded providerPaymentId none)).bind
            fun _ => .pure TaskResult.succeeded
        else if providerStatus.isStr "PROCESSING" then
          (txn (.recordAwaitingWebhook p providerPaymentId)).bind fun _ => .pure .awaitingWebhook
        else
          (txn (.recordTransition p .paymentFailed .failed providerPaymentId
            (some "PROVIDER_DECLINED"))).bind fun _ => .pure .failed) D := by
  have hQ : ∀ (out : Except Exn TaskResult) D, Landed D p → Tries p out D := fun _ _ h => Or.inl h
  obtain ⟨status, id, hstatus, hid, htext⟩ := hbody
  rw [hstatus, hid]
  refine .ite (fun hs => ?_) fun _ => .ite (fun hs => ?_) fun hs => ?_
  · have hproc : status.isStr "PROCESSING" = false := by
      cases status with
      | str s =>
        obtain rfl : s = "SUCCEEDED" := by simpa [Json.isStr] using hs
        rfl
      | _ => rfl
    rw [hproc] at htext
    exact ensures_recordTransition hQ (Or.inl rfl) hp htext ⟨none, rfl⟩
  · rw [if_pos hs] at htext
    exact ensures_recordAwaitingWebhook hQ hp htext
  · rw [if_neg hs] at htext
    exact ensures_recordTransition hQ (Or.inr rfl) hp htext (adapts_some (by decide))

theorem ensures_processPaymentTry (hp : PaymentBegun D p) (payment : Payment)
    (scenario : Scenario) :
    Ensures P (Tries p) (processPaymentTry p payment scenario) D := by
  have hQ : ∀ (out : Except Exn TaskResult) D, Landed D p → Tries p out D := fun _ _ h => Or.inl h
  intro D' hD _ out hout
  rcases hout with hout | hlanded
  · have hp := hD.begun p hp
    refine ensures_providerResponse hout ?_ (fun n => ?_) (fun text hnul => ?_) fun body hbody => ?_
    · exact Or.inr ⟨hp, _, hasNul_firstTwoHundred (by decide), Or.inl rfl⟩
    · exact Or.inr ⟨hp, _, hasNul_firstTwoHundred (hasNul_append (by decide) (hasNul_toString n)),
        Or.inl rfl⟩
    · exact Or.inr ⟨hp, _, hnul, Or.inr rfl⟩
    · exact ensures_paymentFields hp hbody
  · exact ensures_landed hQ hlanded

theorem ensures_retry (hQ : ∀ e D, Landed D p → Q (.error e) D) (hretry : ∀ D, Q (.error .retry) D)
    (scenario : Scenario) (retries : ℕ) :
    Ensures P Q (retry (.processPayment p scenario) retries) D := by
  intro D' hD _ sent hsent
  cases sent with
  | true => exact hretry D'
  | false => exact hQ _ D' (hsent.resolve_left Bool.false_ne_true)

theorem ensures_processPaymentExcept (retries : ℕ) (scenario : Scenario) {e : Exn}
    (h : Tries p (.error e : Except Exn TaskResult) D) :
    Ensures P (Lands p) (processPaymentExcept retries p scenario e) D := by
  have hQ : ∀ (out : Except Exn TaskResult) D, Landed D p → Lands p out D := fun _ _ h => Or.inr h
  rcases h with hlanded | ⟨hp, message, hnul, he | he⟩
  · exact ensures_landed hQ hlanded
  · obtain rfl := Except.error.inj he
    refine ensures_recordRetry hp hnul fun D' hp => .ite (fun _ => ?_) fun _ => ?_
    · exact ensures_recordTransition hQ (Or.inr rfl) hp ⟨none, rfl⟩ (adapts_some (by decide))
    · exact ensures_retry (fun e => hQ (.error e)) (fun _ => Or.inl rfl) scenario _
  · obtain rfl := Except.error.inj he
    exact ensures_recordTransition hQ (Or.inr rfl) hp ⟨none, rfl⟩ (adapts_some hnul)

theorem endsIn_getPayment :
    EndsIn P now (fun res D => res = .ok (D.payment? p)) (getPayment p) D :=
  endsIn_read (k := .pure) (.selectPayment p) (fun D => D.payment? p) (fun _ _ => rfl)
    fun _ _ => rfl

/-- **process_payment** ends with a retry that is scheduled, or with a payment that has landed. -/
theorem ensures_processPayment (hp : ∃ row, D.payment? p = some row) (retries : ℕ)
    (scenario : Scenario) : Ensures P (Lands p) (processPayment retries p scenario) D := by
  have hQ : ∀ (out : Except Exn TaskResult) D, Landed D p → Lands p out D := fun _ _ h => Or.inr h
  obtain ⟨row, hrow⟩ := hp
  refine ensures_txn _ (fun _ _ _ => endsIn_getPayment) ?_ ?_
  · rintro D₁ D₂ now ws found hD₁ hfound hD₂ - - ⟨rfl, -⟩ -
    obtain rfl := Except.ok.inj hfound
    obtain ⟨row₁, hrow₁, -⟩ := hD₁.payment hrow
    rw [hrow₁]
    have hrest : ∀ D', PaymentBegun D' p → Ensures P (Lands p)
        ((processPaymentTry p row₁ scenario).handle (processPaymentExcept retries p scenario))
          D' := by
      intro D' hp
      refine Machine.Leaves.handle (moves P) (fun a D h => ?_)
        (fun e D h => ensures_processPaymentExcept retries scenario h)
        (ensures_processPaymentTry hp row₁ scenario)
      rcases h with hlanded | ⟨-, message, -, h | h⟩
      · exact Or.inr hlanded
      · cases h
      · cases h
    refine .ite (fun hs => hQ _ _ (hD₂.landed p ?_)) fun _ => .ite (fun hs => hQ _ _
      (hD₂.landed p ?_)) fun _ => ?_
    · exact ⟨row₁, hrow₁, by rcases hs with hs | hs <;> simp [hs, Stranded]⟩
    · exact ⟨row₁, hrow₁, by simp [hs, Stranded]⟩
    · refine .ite (fun _ => ensures_processing hQ ?_ hrest) fun hs => ?_
      · obtain ⟨row₂, hrow₂, -⟩ := hD₂.payment hrow₁
        exact ⟨row₂, hrow₂⟩
      · exact hrest D₂ (hD₂.begun p ⟨row₁, hrow₁, hs⟩)
  · rintro D₁ D₂ e - hres - - -
    cases hres

/-! ### The transactions of process_refund -/

theorem endsIn_recordRefundTransition {type : EventType} {new : RefundStatus} {provider : Json}
    {failure : Option String} : EndsIn P now (Raises fun D =>
      (∀ refund, D.refund? q = some refund →
        new ∉ validRefundTransitions refund.status ∧ refund.status ≠ new) ∨
        ¬ ((∃ t, provider.textParam P = .ok t ∧ Adapts (varcharOption t)) ∧
          Adapts ((textOption failure).textParam P)))
      (recordRefundTransition P q type new provider failure) D := by
  refine endsIn_read (.selectRefundForUpdate q) (fun D => D.refund? q) (fun _ _ => rfl)
    fun D₁ _ => ?_
  cases hq : D₁.refund? q with
  | none => exact Or.inl fun refund h => by simp [hq] at h
  | some refund =>
    refine .ite (fun hv => .ite (fun _ => trivial) fun hs => Or.inl fun refund' hq' =>
      ?_) fun _ => ?_
    · obtain rfl := Option.some.inj (hq.symm.trans hq')
      exact ⟨hv, hs⟩
    refine .ofExcept (fun e he => Or.inr ?_) fun provider' hprov => ?_
    · rintro ⟨⟨t, ht, -⟩, -⟩
      rw [ht] at he
      cases he
    refine .ofExcept (fun e he => Or.inr ?_) fun provider'' _ => ?_
    · rintro ⟨⟨t, ht, ht'⟩, -⟩
      obtain rfl := Except.ok.inj (hprov.symm.trans ht)
      exact not_adapts he ht'
    refine .ofExcept (fun e he => Or.inr fun h => not_adapts he h.2) fun failure' _ => ?_
    exact .stmt fun _ _ _ _ => .stmt fun _ _ _ _ => .stmt fun _ _ _ _ => trivial

theorem endsIn_recordRefundRetry {reason : String} : EndsIn P now
    (Raises fun _ => hasNul (firstTwoHundred reason) = true) (recordRefundRetry P q reason) D := by
  refine .ofExcept (fun e he => hasNul_of_textParam he) fun failure _ =>
    .stmt fun _ refund _ _ => ?_
  cases refund with
  | none => trivial
  | some refund => exact .stmt fun _ _ _ _ => trivial

/-- A retry of the task is scheduled, or the refund is closed. -/
def Closes (q : Uuid) (out : Except Exn α) (D : Db) : Prop :=
  out = .error .retry ∨ RefundClosed D q

/-- The `try` block has closed the refund, or raises what is handled. -/
def RefundTries (q : Uuid) (out : Except Exn α) (D : Db) : Prop :=
  RefundClosed D q ∨ RefundBegun D q ∧ ∃ message, hasNul (firstTwoHundred message) = false ∧
    (out = .error (.transientProviderError message) ∨
      out = .error (.permanentProviderError message))

theorem ensures_closed (hQ : ∀ out D, RefundClosed D q → Q out D) {prog : Proc α}
    (h : RefundClosed D q) : Ensures P Q prog D :=
  Machine.Leaves.stays (moves P) (F := fun D => RefundClosed D q) (fun _ _ hD => hD.closed q) hQ h

theorem ensures_refundProcessing (hQ : ∀ out D, RefundClosed D q → Q out D) {k : Unit → Proc α}
    (hq : ∃ refund, D.refund? q = some refund)
    (hk : ∀ D', RefundBegun D' q → Ensures P Q (k ()) D') :
    Ensures P Q ((txn (.recordRefundTransition q .refundProcessing .processing .null none)).bind k)
      D := by
  refine ensures_txn _ (fun _ _ _ => endsIn_recordRefundTransition) ?_ ?_
  · rintro D₁ D₂ now ws a - - - - - hdoes -
    obtain ⟨refund, hq, ⟨hs, rfl⟩ | ⟨-, provider, event, outbox, rfl⟩⟩ := hdoes
    · exact hk _ ⟨refund, hq, by simp [hs]⟩
    · obtain rfl := refund_id hq
      exact hk _ ⟨_, refund?_update_self hq _, by simp⟩
  · rintro D₁ D₂ e hD₁ hE hD₂ - hT
    obtain ⟨refund, hq⟩ := hq
    obtain ⟨refund', hq', -⟩ := hD₁.refund hq
    rcases hE with hrefused | htexts
    · obtain ⟨hv, hs⟩ := hrefused refund' hq'
      have hend : RefundEnded D₂ q := by
        refine RefundEnded.le ⟨refund', hq', ?_⟩ hD₂.toLe
        cases hst : refund'.status <;> simp_all [validRefundTransitions]
      exact hQ _ _ ⟨hend, hT hend⟩
    · exact absurd ⟨⟨none, rfl, none, rfl⟩, none, rfl⟩ htexts

theorem ensures_ending (hQ : ∀ out D, RefundClosed D q → Q out D) {b : Block} (hb : Ending q b)
    {k : BRes b → Proc α} : Ensures P Q ((txn b).bind k) D := by
  refine ensures_txn (fun _ _ => True) (fun D' now _ => ?_) ?_ ?_
  · exact Machine.TxLeaves.stays (moves P) (F := fun _ => True) (fun _ _ _ h => h)
      (fun _ _ _ h => h) trivial
  · rintro D₁ D₂ now ws a - - - hi hreq hdoes -
    refine ensures_closed hQ (closed_of_ending hi hreq hdoes hb ?_)
    rcases hb with rfl | rfl
    · obtain ⟨refund, hq, hs⟩ := hreq
      exact ⟨refund, hq, Or.inl hs⟩
    · obtain ⟨refund, hq, hs⟩ := hreq
      exact ⟨refund, hq, Or.inr hs⟩
  · rintro D₁ D₂ e - - - ⟨D₀, hfail⟩ -
    rcases hb with rfl | rfl <;> exact hfail.elim

/-- A refund gets its last status and is closed, or has been decided otherwise. -/
theorem ensures_recordRefundTransition (hQ : ∀ out D, RefundClosed D q → Q out D) {type : EventType}
    {new : RefundStatus} {provider : Json} {failure : Option String} {b : Block} {a : α}
    (hnew : new = .succeeded ∨ new = .failed) (hb : Ending q b) (hq : RefundBegun D q)
    (hprovider : ∃ t, provider.textParam P = .ok t ∧ Adapts (varcharOption t))
    (hfailure : Adapts ((textOption failure).textParam P)) :
    Ensures P Q ((txn (.recordRefundTransition q type new provider failure)).bind fun _ =>
      (txn b).bind fun _ => .pure a) D := by
  refine ensures_txn _ (fun _ _ _ => endsIn_recordRefundTransition) ?_ ?_
  · rintro D₁ D₂ now ws _ - - - - - - -
    exact ensures_ending hQ hb
  · rintro D₁ D₂ e hD₁ hE hD₂ - hT
    obtain ⟨refund, hq', hs⟩ := hq.le hD₁.toLe
    rcases hE with hrefused | htexts
    · -- the refund is not `PROCESSING`
      obtain ⟨hv, -⟩ := hrefused refund hq'
      have hend : RefundEnded D₂ q := by
        refine RefundEnded.le ⟨refund, hq', ?_⟩ hD₂.toLe
        cases hst : refund.status with
        | created => exact absurd hst hs
        | processing =>
          rw [hst] at hv
          rcases hnew with rfl | rfl <;> simp [validRefundTransitions] at hv
        | succeeded => exact Or.inl rfl
        | failed => exact Or.inr rfl
      exact hQ _ _ ⟨hend, hT hend⟩
    · exact absurd ⟨hprovider, hfailure⟩ htexts

theorem ensures_recordRefundRetry {reason : String} {k : Unit → Proc α} (hq : RefundBegun D q)
    (hreason : hasNul (firstTwoHundred reason) = false)
    (hk : ∀ D', RefundBegun D' q → Ensures P Q (k ()) D') :
    Ensures P Q ((txn (.recordRefundRetry q reason)).bind k) D := by
  refine ensures_txn _ (fun _ _ _ => endsIn_recordRefundRetry) ?_ ?_
  · rintro D₁ D₂ now ws a hD₁ - hD₂ hi hreq hdoes -
    exact hk _ (((hq.le hD₁.toLe).le hD₂.toLe).le (keep_of_does hi hreq hdoes).2)
  · rintro D₁ D₂ e - hnul - - -
    exact absurd (hreason.symm.trans hnul) Bool.false_ne_true

/-! ### process_refund -/

theorem ensures_refundFields {body : Json} (hq : RefundBegun D q) (hbody : RefundFields P body) :
    Ensures P (RefundTries q) ((Prog.ofExcept (body.getItem "status")).bind fun providerStatus =>
      (Prog.ofExcept (body.getItem "provider_refund_id")).bind fun providerRefundId =>
        if providerStatus.isStr "SUCCEEDED" then
          (txn (.recordRefundTransition q .refundSucceeded .succeeded providerRefundId none)).bind
            fun _ => (txn (.completeSuccessfulRefund q)).bind fun _ => .pure TaskResult.succeeded
        else
          (txn (.recordRefundTransition q .refundFailed .failed providerRefundId
            (some "PROVIDER_REFUND_DECLINED"))).bind fun _ =>
              (txn (.restorePaymentAfterFailedRefund q)).bind fun _ => .pure .failed) D := by
  have hQ : ∀ (out : Except Exn TaskResult) D, RefundClosed D q → RefundTries q out D :=
    fun _ _ h => Or.inl h
  obtain ⟨status, id, t, hstatus, hid, ht, hvarchar⟩ := hbody
  rw [hstatus, hid]
  refine .ite (fun _ => ?_) fun _ => ?_
  · exact ensures_recordRefundTransition hQ (Or.inl rfl) (Or.inl rfl) hq ⟨t, ht, hvarchar⟩
      ⟨none, rfl⟩
  · exact ensures_recordRefundTransition hQ (Or.inr rfl) (Or.inr rfl) hq ⟨t, ht, hvarchar⟩
      (adapts_some (by decide))

theorem ensures_processRefundTry (hq : RefundBegun D q) (refund : Refund)
    (scenario : RefundScenario) :
    Ensures P (RefundTries q) (processRefundTry q refund scenario) D := by
  have hQ : ∀ (out : Except Exn TaskResult) D, RefundClosed D q → RefundTries q out D :=
    fun _ _ h => Or.inl h
  refine ensures_txn (fun res _ => ∃ payment, res = .ok payment) (fun _ _ _ => ?_) ?_ ?_
  · exact endsIn_read (k := .pure) (.selectPayment refund.paymentId)
      (fun D => D.payment? refund.paymentId) (fun _ _ => rfl) fun _ _ => ⟨_, rfl⟩
  · rintro D₁ D₂ now ws payment hD₁ - hD₂ - - ⟨rfl, -⟩ -
    have hq₂ : RefundBegun D₂ q := (hq.le hD₁.toLe).le hD₂.toLe
    cases Option.bind payment (·.providerPaymentId) with
    | none => exact Or.inr ⟨hq₂, _, hasNul_firstTwoHundred (by decide), Or.inr rfl⟩
    | some providerPaymentId =>
      intro D' hD _ out hout
      rcases hout with hout | hclosed
      · have hq' := hq₂.le hD.toLe
        refine ensures_providerResponse hout ?_ (fun n => ?_) (fun text hnul => ?_)
          fun body hbody => ?_
        · exact Or.inr ⟨hq', _, hasNul_firstTwoHundred (by decide), Or.inl rfl⟩
        · exact Or.inr ⟨hq', _, hasNul_firstTwoHundred (by decide), Or.inl rfl⟩
        · exact Or.inr ⟨hq', _, hnul, Or.inr rfl⟩
        · exact ensures_refundFields hq' hbody
      · exact ensures_closed hQ hclosed
  · rintro D₁ D₂ e - ⟨payment, h⟩ - - -
    cases h

theorem ensures_processRefundExcept (retries : ℕ) (scenario : RefundScenario) {e : Exn}
    (h : RefundTries q (.error e : Except Exn TaskResult) D) :
    Ensures P (Closes q) (processRefundExcept retries q scenario e) D := by
  have hQ : ∀ (out : Except Exn TaskResult) D, RefundClosed D q → Closes q out D :=
    fun _ _ h => Or.inr h
  rcases h with hclosed | ⟨hq, message, hnul, he | he⟩
  · exact ensures_closed hQ hclosed
  · obtain rfl := Except.error.inj he
    refine ensures_recordRefundRetry hq hnul fun D' hq => .ite (fun _ => ?_) fun _ => ?_
    · exact ensures_recordRefundTransition hQ (Or.inr rfl) (Or.inr rfl) hq ⟨none, rfl, none, rfl⟩
        (adapts_some (by decide))
    · intro D'' _ _ sent hsent
      cases sent with
      | true => exact Or.inl rfl
      | false => exact hQ _ D'' (hsent.resolve_left Bool.false_ne_true)
  · obtain rfl := Except.error.inj he
    exact ensures_recordRefundTransition hQ (Or.inr rfl) (Or.inr rfl) hq ⟨none, rfl, none, rfl⟩
      (adapts_some hnul)

theorem endsIn_getRefund : EndsIn P now (fun res D => res = .ok (D.refund? q)) (getRefund q) D :=
  endsIn_read (k := .pure) (.selectRefund q) (fun D => D.refund? q) (fun _ _ => rfl) fun _ _ => rfl

/-- **process_refund** ends with a retry that is scheduled, or with a refund that is closed. -/
theorem ensures_processRefund (hq : ∃ refund, D.refund? q = some refund) (retries : ℕ)
    (scenario : RefundScenario) : Ensures P (Closes q) (processRefund retries q scenario) D := by
  have hQ : ∀ (out : Except Exn TaskResult) D, RefundClosed D q → Closes q out D :=
    fun _ _ h => Or.inr h
  obtain ⟨refund, hq⟩ := hq
  refine ensures_txn _ (fun _ _ _ => endsIn_getRefund) ?_ ?_
  · rintro D₁ D₂ now ws found hD₁ hfound hD₂ - - ⟨rfl, -⟩ hT
    obtain rfl := Except.ok.inj hfound
    obtain ⟨refund₁, hq₁, -⟩ := hD₁.refund hq
    have hlast : refund₁.status = .succeeded ∨ refund₁.status = .failed → RefundClosed D₂ q := by
      intro hs
      have hend := RefundEnded.le ⟨refund₁, hq₁, hs⟩ hD₂.toLe
      exact ⟨hend, hT hend⟩
    rw [hq₁]
    have hrest : ∀ D', RefundBegun D' q → Ensures P (Closes q)
        ((processRefundTry q refund₁ scenario).handle (processRefundExcept retries q scenario))
          D' := by
      intro D' hq
      refine Machine.Leaves.handle (moves P) (fun a D h => ?_)
        (fun e D h => ensures_processRefundExcept retries scenario h)
        (ensures_processRefundTry hq refund₁ scenario)
      rcases h with hclosed | ⟨-, message, -, h | h⟩
      · exact Or.inr hclosed
      · cases h
      · cases h
    refine .ite (fun hs => hQ _ _ (hlast (Or.inl hs))) fun _ => .ite (fun hs => hQ _ _
      (hlast (Or.inr hs))) fun _ => ?_
    refine .ite (fun _ => ensures_refundProcessing hQ ?_ hrest) fun hs => ?_
    · obtain ⟨refund₂, hq₂, -⟩ := hD₂.refund hq₁
      exact ⟨refund₂, hq₂⟩
    · exact hrest D₂ (RefundBegun.le ⟨refund₁, hq₁, hs⟩ hD₂.toLe)
  · rintro D₁ D₂ e - hres - - -
    cases hres

end rules

/-! ### The tasks -/

/-- The task of a process. -/
def workOf (w : World) : Start P → Option (Option Task)
  | .task i => (taskOf w i).map some
  | _ => some none

/-- How a process ends that works on the task. -/
def Finishes : Option Task → Except Exn Ans → Db → Prop
  | some (.processPayment p _), out, D => Lands p out D
  | some (.processRefund q _), out, D => Closes q out D
  | none, _, _ => True

theorem lasting_finishes (task : Option Task) : Machine.Lasting Onward (Finishes task) := by
  intro out D D' hD h
  cases task with
  | none => trivial
  | some task =>
    cases task with
    | processPayment p scenario => exact h.imp id (hD.landed p)
    | processRefund q scenario => exact h.imp id (hD.closed q)

theorem ensures_answer {F : Db → Prop} {prog : Proc TaskResult} {D : Db}
    (h : Ensures P (fun out D => out = .error .retry ∨ F D) prog D) :
    Ensures P (fun out D => out = .error .retry ∨ F D)
    (prog.bind fun r => .pure (Ans.task r)) D := by
  refine Machine.Leaves.bind (moves P) (fun a D ha => ?_) (fun e D he => ?_) h
  · rcases ha with ha | ha
    · cases ha
    · exact Or.inr ha
  · rcases he with he | he
    · exact Or.inl (congrArg Except.error (Except.error.inj he))
    · exact Or.inr he

/-- A message is sent after its row is made, so every process ends as its task asks. -/
theorem ensures_start {s : State P} (h : Reachable P s) {x : Start P} {prog : Proc Ans}
    (hstart : start P s.world x = some prog) :
    ∃ task, workOf s.world x = some task ∧ Ensures P (Finishes task) prog s.db := by
  cases x with
  | task i =>
    simp only [start] at hstart
    split at hstart
    · rename_i m hm
      split_ifs at hstart
      obtain rfl := Option.some.inj hstart
      have htask : taskOf s.world i = some m.task := by simp [taskOf, hm]
      refine ⟨some m.task, by simp [workOf, htask], ?_⟩
      unfold runTask
      split
      · rename_i p scenario ht
        rw [ht] at htask ⊢
        exact ensures_answer (ensures_processPayment (payment_of_task h htask) m.retries scenario)
      · rename_i q scenario ht
        rw [ht] at htask ⊢
        exact ensures_answer (ensures_processRefund (refund_of_task h htask) m.retries scenario)
    · simp at hstart
  | _ => exact ⟨none, rfl, Machine.Leaves.stays (moves P) (F := fun _ => True) (fun _ _ _ h => h)
      (fun _ _ h => h) trivial⟩

/-- **No finished task strands its payment or its refund**, in every run without a mishap: when an
execution has ended, and ever after, either it has scheduled a retry, or the payment is not
`PROCESSING` without the provider's id, or the refund is `SUCCEEDED` or `FAILED` and its payment
does not wait for it. -/
theorem nothing_stranded {s : State P}
    (h : Machine.ReachableBy (payflow P) (Machine.OnTerms (payflow P) (withoutMishap P)) (init P) s)
    {pid i : ℕ} {out : Except Exn Ans} {m : Message}
    (hp : s.procs[pid]? = some ⟨.task i, .done out⟩) (hm : s.world.messages[i]? = some m)
    (hout : out ≠ .error .retry) :
    (∀ p scenario, m.task = .processPayment p scenario →
      ∀ row, s.db.payment? p = some row → ¬ Stranded row) ∧
    ∀ q scenario, m.task = .processRefund q scenario → RefundEnded s.db q ∧ ¬ Awaited s.db q := by
  have hends : ∀ {pid : ℕ} {x st}, s.procs[pid]? = some ⟨x, st⟩ →
      ∃ task, workOf s.world x = some task ∧ Machine.StatusLeaves (payflow P) rely (contract P)
        (withoutMishap P) Onward (Finishes task) s.db st := by
    refine h.leaves (fulfils P) (moves P) lasting_finishes ?_ ?_ (good_init P) rfl
      fun hr hstart => ensures_start (hr.imp fun _ _ _ => trivial) hstart
    · intro pid pick w e w' x task r hx htask
      cases x with
      | task i =>
        obtain ⟨t, ht, rfl⟩ := Option.map_eq_some_iff.mp htask
        exact Option.map_eq_some_iff.mpr ⟨t, taskOf_ext hx ht, rfl⟩
      | _ => exact htask
    · intro y out w x task htask
      cases x with
      | task i =>
        show (taskOf (finish P y out w) i).map some = _
        rw [taskOf_finish]
        exact htask
      | _ => exact htask
  obtain ⟨task, htask, hend⟩ := hends hp
  have hmessage : taskOf s.world i = some m.task := by simp [taskOf, hm]
  obtain rfl : some m.task = task := by simpa [workOf, hmessage] using htask
  have hend : Finishes (some m.task) out s.db := hend
  constructor
  · rintro p scenario ht row hrow
    rw [ht] at hend
    obtain ⟨row', hrow', -, hst⟩ := hend.resolve_left hout
    obtain rfl := Option.some.inj (hrow.symm.trans hrow')
    exact hst
  · intro q scenario ht
    rw [ht] at hend
    exact hend.resolve_left hout

/-! ### Runs with and without a mishap -/

/-- How the process has ended, if it works on the message. -/
def finished (s : State examplePlatform) (pid i : ℕ) : Option (Except Exn Ans) :=
  match s.procs[pid]? with
  | some ⟨.task j, .done out⟩ => if j = i then some out else none
  | _ => none

theorem procs_of_finished {s : State examplePlatform} {pid i : ℕ} {out : Except Exn Ans}
    (h : finished s pid i = some out) : s.procs[pid]? = some ⟨.task i, .done out⟩ := by
  unfold finished at h
  split at h
  · rename_i j out' hp
    split_ifs at h with hj
    obtain rfl := Option.some.inj h
    rwa [hj] at hp
  · simp at h

/-- A check of the terms for runs in which the provider reports the last status of a payment, and no
refund is worked on. -/
def smoothCommit : Block → Db → Bool
  | .recordTransition p _ _ _ _, D => (D.payment? p).all fun row => row.status ≠ .failed
  | .recordAwaitingWebhook _ _, _ | .getRefund _, _ => false
  | _, _ => true

def smoothAnswer : Ext → Db → Pick → Bool
  | .postPayment _ _, _, .http (.response statusCode _ (.ok body)) =>
    statusCode < 400 && match body.getItem "status", body.getItem "provider_payment_id" with
      | .ok status, .ok (.str id) => !status.isStr "PROCESSING" && !hasNul id
      | _, _ => false
  | .postPayment _ _, _, _ | .postRefund _ _, _, _ | .sendRetry _ _, _, _ => false
  | _, _, _ => true

theorem plainCommit_of_smooth (b : Block) (D : Db) (h : smoothCommit b D = true) :
    plainCommit examplePlatform b D := by
  cases b with
  | recordTransition p type new provider failure =>
    intro _ row hrow
    simpa [smoothCommit, hrow] using h
  | recordAwaitingWebhook p provider | getRefund q => simp [smoothCommit] at h
  | _ => trivial

theorem plainAnswer_of_smooth {e : Ext} {D : Db} {pid : ℕ} {pick : Pick} {w w' : World} {r : ERes e}
    (h : smoothAnswer e D pick = true) (hx : ext pid pick w e = some (r, w')) :
    plainAnswer examplePlatform e D r := by
  cases e with
  | postPayment scenario json =>
    rcases pick with _ | id | tie | ⟨_ | _ | name | ⟨statusCode, text, e | body⟩⟩ | reply | up
    case http.response.ok =>
      obtain rfl := (Prod.mk.inj (Option.some.inj hx)).1
      obtain ⟨hcode, h⟩ := Bool.and_eq_true_iff.mp h
      split at h
      · rename_i status id hstatus hid
        rw [Bool.and_eq_true, Bool.not_eq_true', Bool.not_eq_true'] at h
        refine Or.inl (Or.inr (Or.inr ⟨of_decide_eq_true hcode, body, rfl, status, .str id, hstatus,
          hid, ?_⟩))
        rw [if_neg (by simp [h.1])]
        exact adapts_some h.2
      · simp at h
    all_goals simp [smoothAnswer] at h
  | postRefund scenario json | sendRetry task retries => simp [smoothAnswer] at h
  | _ => trivial

/-- A payment that succeeds, and its task when it has ended. -/
theorem nothing_stranded_onePayment : ∃ (s : State examplePlatform) (out : Except Exn Ans)
    (m : Message), (finished s 1 0 = some out ∧ s.world.messages[0]? = some m ∧
      out ≠ .error .retry) ∧
      (∀ p scenario, m.task = .processPayment p scenario →
        ∀ row, s.db.payment? p = some row → ¬ Stranded row) ∧
      ∀ q scenario, m.task = .processRefund q scenario →
        RefundEnded s.db q ∧ ¬ Awaited s.db q := by
  have h : ((payflow examplePlatform).runWhen (Machine.termsCheck _ smoothCommit (fun _ _ => false)
      smoothAnswer) (init _) onePayment).map (fun s =>
        ((finished s 1 0).map (·.isOk), (s.world.messages[0]?).isSome)) =
      some (some true, true) := by decide +kernel
  obtain ⟨s, hs, h⟩ := Option.map_eq_some_iff.mp h
  obtain ⟨hout, hm⟩ := Prod.mk.inj h
  obtain ⟨out, hout, hok⟩ := Option.map_eq_some_iff.mp hout
  obtain ⟨m, hm⟩ := Option.isSome_iff_exists.mp hm
  have hretry : out ≠ .error .retry := by
    rintro rfl
    cases hok
  refine ⟨s, out, m, ⟨hout, hm, hretry⟩, nothing_stranded (.runWhen (Machine.onTerms_of_check
    plainCommit_of_smooth (fun _ _ h => by cases h) plainAnswer_of_smooth) .refl hs)
    (procs_of_finished hout) hm hretry⟩

/-- The provider breaks off the request for a payment with a protocol error. -/
def brokenOff : List Act :=
  createPaymentScript 0 1 ++ startPaymentScript 1 0 4 ++
    [.step 1 (.http (.otherError "RemoteProtocolError"))] ++ quiet 1 1

/-- The check that no process is killed. -/
def noKill (_ : State examplePlatform) : Act → Bool
  | .kill _ => false
  | _ => true

/-- The end of a task that `httpx` has broken off. -/
def raisesHttpxError : Except Exn Ans → Bool
  | .error (.httpxError _) => true
  | _ => false

/-- **A protocol error strands the payment.** No process is killed, the task has ended with an
exception that schedules no retry, and the payment is `PROCESSING` without an id. -/
theorem nothing_stranded_fails : ∃ (s : State examplePlatform) (out : Except Exn Ans) (m : Message)
    (row : Payment), Machine.ReachableBy (payflow examplePlatform) (fun _ a => ∀ pid, a ≠ .kill pid)
      (init _) s ∧ s.procs[1]? = some ⟨.task 0, .done out⟩ ∧ out ≠ .error .retry ∧
      s.world.messages[0]? = some m ∧ m.task = .processPayment (exampleUuid 1) .success ∧
      s.db.payment? (exampleUuid 1) = some row ∧ Stranded row := by
  have h : ((payflow examplePlatform).runWhen noKill (init _) brokenOff).map (fun s =>
        ((finished s 1 0).map raisesHttpxError, (s.world.messages[0]?).map (·.task),
        (s.db.payment? (exampleUuid 1)).map fun row => (row.status, row.providerPaymentId))) =
      some (some true, some (.processPayment (exampleUuid 1) .success),
        some (.processing, none)) := by decide +kernel
  obtain ⟨s, hs, h⟩ := Option.map_eq_some_iff.mp h
  simp only [Prod.mk.injEq] at h
  obtain ⟨hout, hm, hrow⟩ := h
  obtain ⟨out, hout, herror⟩ := Option.map_eq_some_iff.mp hout
  obtain ⟨m, hm, htask⟩ := Option.map_eq_some_iff.mp hm
  obtain ⟨row, hrow, hst⟩ := Option.map_eq_some_iff.mp hrow
  refine ⟨s, out, m, row, .runWhen (fun s a ha => ?_) .refl hs, procs_of_finished hout,
    ?_, hm, htask,
    hrow, Prod.mk.inj hst⟩
  · rintro pid rfl
    cases ha
  · rintro rfl
    cases herror

end Payflow.Safety
