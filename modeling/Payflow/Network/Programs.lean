import Payflow.Network.View

/-! # The programs in the logic of captures

Every process keeps to the logic: it moves a payment to success only by what a record with success
backs, and it never finds a payment with a refund without an id at the provider. -/

namespace Payflow.Network

open Payflow.Lib Payflow.Model Payflow.Spec Payflow.Safety

variable {P : Platform} {v : View} {α β : Type}

/-- The program is safe, and ends as `R` says. -/
abbrev Safe (P : Platform) (R : View → Except Exn α → Prop) (p : Proc α) (v : View) : Prop :=
  (captures P).Safe R p v

/-- The program is safe. -/
abbrev Runs (P : Platform) (p : Proc α) (v : View) : Prop := Safe P (fun _ _ => True) p v

/-- The rest of a transaction. -/
abbrev TxSafe (P : Platform) (now : ℕ) (Q : View → Except Exn α → Prop) (p : Tx α)
    (ws : List Write) (v : View) : Prop :=
  (captures P).TxSafe now Q p ws v

/-! ### Transactions -/

/-- A transaction that is one `SELECT` reads the database of a later view. -/
theorem txSafe_select {now : ℕ} {s : Stmt} {f : Env Pick → Db → SRes s}
    (hx : ∀ e D, stmtExec e D s = some (f e D, [])) {Q : View → Except Exn (SRes s) → Prop}
    (h : ∀ pick v', v.Le v' → v'.Inv P → Q v' (.ok (f ⟨now, pick⟩ v'.db))) :
    TxSafe P now Q (.perform s) [] v := by
  refine Logic.TxSafe.op fun v' hle hinv pick r ws hr => ?_
  have hr : stmtExec ⟨now, pick⟩ v'.db s = some (r, ws) := hr
  rw [hx] at hr
  obtain ⟨rfl, -⟩ := Prod.mk.inj (Option.some.inj hr)
  exact h pick v' hle hinv

/-- A transaction of which nothing is asked but that it may be called. -/
theorem safe_txn {b : Block} {k : BRes b → Proc α} (hcall : Callable v b) (hends : ∀ r, Ends b r)
    (hk : ∀ v' r, v.Le v' → Runs P (k r) v') : Runs P ((txn b).bind k) v := by
  refine Logic.Safe.txn (captures_lawful P) hcall hends fun v' r hle => ?_
  cases r with
  | ok a => exact hk v' a hle
  | error e => trivial

theorem safe_select {b : Block} {k : BRes b → Proc α} (hcall : Callable v b)
    (h : ∀ v', v.Le v' → v'.Inv P → ∀ now, TxSafe P now
      (fun v'' r => Ends b r ∧ ∀ a, r = .ok a → Runs P (k a) v'') (body P b) [] v') :
    Runs P ((txn b).bind k) v := by
  refine ⟨hcall, fun v' hle hinv now => (h v' hle hinv now).imp (captures_lawful P)
    fun v'' r _ hr => ⟨hr.1, ?_⟩⟩
  cases r with
  | ok a => exact hr.2 a rfl
  | error e => trivial

/-! ### Requests to the provider -/

theorem safe_providerResponse {transient : String} {unavailable : ℕ → String}
    {rejected : ℕ → String → String} {out : HttpOutcome} {Q : View → Json → Prop}
    (h : Accepted (Q v) out) :
    Safe P (fun v r => ∀ json, r = .ok json → Q v json)
      (providerResponse transient unavailable rejected out) v := by
  cases out with
  | response statusCode text json =>
    refine Logic.Safe.ite (fun _ json hj => by simp at hj) fun _ => ?_
    refine Logic.Safe.ite (fun _ json hj => by simp at hj) fun hcode => ?_
    cases json with
    | error e =>
      intro json hj
      simp at hj
    | ok json =>
      intro json' hj
      obtain rfl := Except.ok.inj hj
      exact h statusCode text _ rfl (by omega)
  | _ =>
    intro json hj
    simp at hj

/-! ### process_payment -/

theorem safe_retry {task : Task} {retries : ℕ} : Runs P (retry (α := α) task retries) v :=
  ⟨trivial, fun _ _ _ _ _ => trivial⟩

theorem safe_processPaymentTry {p : Uuid} {payment : Payment} {scenario : Scenario}
    (hask : Allowed v (.postPayment scenario ⟨p, payment.amountCents, payment.currency⟩)) :
    Runs P (processPaymentTry p payment scenario) v := by
  have hsend : Safe P (fun v r => ∀ json, r = .ok json → PaymentReply v p json)
      (sendPaymentToProvider scenario ⟨p, payment.amountCents, payment.currency⟩) v :=
    ⟨hask, fun v' _ _ out hout => safe_providerResponse (Q := fun v => PaymentReply v p) hout⟩
  refine hsend.bind (captures_lawful P) (fun v json _ hjson => ?_) fun _ _ _ _ => trivial
  obtain ⟨id, status, st, hstatus, hid, hrec, hst⟩ := hjson json rfl
  refine Logic.Safe.ofExcept (fun _ _ => trivial) fun status' hstatus' => ?_
  refine Logic.Safe.ofExcept (fun _ _ => trivial) fun id' hid' => ?_
  obtain rfl := Except.ok.inj (hstatus.symm.trans hstatus')
  obtain rfl := Except.ok.inj (hid.symm.trans hid')
  refine Logic.Safe.ite (fun hs => ?_) fun hs => Logic.Safe.ite (fun hp => ?_) fun hp => ?_
  · obtain ⟨rfl, -⟩ | ⟨-, rfl⟩ := hst
    · exact safe_txn ⟨rfl, id, rfl, hrec⟩ (fun _ => trivial) fun _ _ _ => trivial
    · simp [Json.isStr] at hs
  · obtain ⟨rfl, -⟩ | ⟨-, rfl⟩ := hst
    · exact safe_txn ⟨id, rfl, hrec⟩ (fun _ => trivial) fun _ _ _ => trivial
    · simp [Json.isStr] at hp
  · obtain ⟨-, rfl | rfl⟩ | ⟨rfl, -⟩ := hst
    · simp [Json.isStr] at hs
    · simp [Json.isStr] at hp
    · exact safe_txn ⟨by simp, Or.inr ⟨id, rfl, hrec⟩⟩ (fun _ => trivial) fun _ _ _ => trivial

theorem safe_processPaymentExcept (retries : ℕ) (p : Uuid) (scenario : Scenario) (e : Exn) :
    Runs P (processPaymentExcept retries p scenario e) v := by
  have hfail : ∀ {v : View} {code : String} {a : TaskResult}, Runs P
      ((txn (.recordTransition p .paymentFailed .failed .null (some code))).bind fun _ => .pure a) v :=
    fun {v code a} => safe_txn ⟨by simp, Or.inl rfl⟩ (fun _ => trivial) fun _ _ _ => trivial
  cases e with
  | transientProviderError message =>
    refine safe_txn trivial (fun _ => trivial) fun v' _ _ => ?_
    exact Logic.Safe.ite (fun _ => hfail) fun _ => safe_retry
  | permanentProviderError message => exact hfail
  | _ => trivial

theorem safe_processPayment {i : ℕ} (retries : ℕ) {p : Uuid} {scenario : Scenario}
    (ht : taskOf v.world i = some (.processPayment p scenario)) :
    Runs P (processPayment retries p scenario) v := by
  refine safe_select trivial fun v₁ hle₁ _ now => txSafe_select (s := .selectPayment p)
    (f := fun _ D => D.payment? p) (fun _ _ => rfl) fun _ v₂ hle₂ _ => ⟨trivial, ?_⟩
  intro payment? hread
  obtain rfl : v₂.db.payment? p = payment? := Except.ok.inj hread
  cases hp : v₂.db.payment? p with
  | none => trivial
  | some payment =>
    have ht₂ := (hle₁.trans hle₂).tasks _ _ ht
    have hask : Allowed v₂ (.postPayment scenario ⟨p, payment.amountCents, payment.currency⟩) :=
      ⟨⟨i, ht₂⟩, payment, hp, rfl, rfl⟩
    have hrest : ∀ v₃, v₂.Le v₃ → Runs P ((processPaymentTry p payment scenario).handle
        (processPaymentExcept retries p scenario)) v₃ := fun v₃ hle₃ =>
      (safe_processPaymentTry (allowed_mono hle₃ hask)).handle (captures_lawful P)
        (fun _ _ _ _ => trivial) fun _ e _ _ => safe_processPaymentExcept retries p scenario e
    refine Logic.Safe.ite (fun _ => trivial) fun _ => Logic.Safe.ite (fun _ => trivial) fun _ => ?_
    refine Logic.Safe.ite (fun _ => ?_) fun _ => hrest v₂ (.refl _)
    exact safe_txn rfl (fun _ => trivial) fun v₃ _ hle₃ => hrest v₃ hle₃

/-! ### process_refund -/

/-- The operations of which nothing is asked. -/
def Free : Call Block Ext → Prop
  | .txn (.recordTransition _ _ _ _ _) | .txn (.recordAwaitingWebhook _ _)
  | .txn (.receiveProviderWebhook _) | .txn (.reconcileOne _ _) | .txn (.selectProviderPaymentId _)
  | .txn (.recordRefundTransition _ _ _ _ _) | .txn (.createRefund _ _ _ _)
  | .ext (.postPayment _ _) | .ext (.postRefund _ _) => False
  | _ => True

theorem safe_of_free {p : Proc α} (h : UsesOnly Free p) : Runs P p v := by
  refine Logic.Safe.of_uses (captures_lawful P) (fun b hb => ?_) (fun e he => ?_) h
  · cases b <;> first | exact hb.elim | exact ⟨fun _ => trivial, fun _ => trivial⟩
  · cases e <;> first | exact he.elim | exact fun _ => trivial

/-- A refund is moved to a final status, and its payment follows. -/
theorem safe_refundEnd {q : Uuid} {type : EventType} {new : RefundStatus} {provider : Json}
    {failure : Option String} {b : Block} {a : α} (h : BackedRefund v q provider new)
    (hb : Free (.txn b)) :
    Runs P ((txn (.recordRefundTransition q type new provider failure)).bind fun _ =>
      (txn b).bind fun _ => .pure a) v :=
  safe_txn h (fun _ => trivial) fun _ _ _ => safe_of_free (uses_txn hb fun _ => trivial)

theorem safe_processRefundTry {q : Uuid} {refund : Refund} {scenario : RefundScenario}
    (hcall : Callable v (.selectProviderPaymentId refund.paymentId))
    (hask : ∀ id, Allowed v
      (.postRefund scenario ⟨q, id, refund.amountCents, refund.currency⟩)) :
    Runs P (processRefundTry q refund scenario) v := by
  refine safe_select hcall fun v₁ hle₁ _ now => txSafe_select
    (s := .selectPayment refund.paymentId) (f := fun _ D => D.payment? refund.paymentId)
    (fun _ _ => rfl) fun _ v₂ hle₂ hinv => ?_
  -- the refund is still there, so its payment has succeeded
  obtain ⟨q', refund', hq', hp⟩ := callable_mono (hle₁.trans hle₂) hcall
  obtain ⟨row, hrow, hs⟩ := hinv.refunds q' refund' hq'
  rw [hp] at hrow
  obtain ⟨-, id, hid, -⟩ := (hinv.rows _ row hrow).captured hs
  refine ⟨fun payment hp => ?_, fun payment hp => ?_⟩
  · obtain rfl : v₂.db.payment? refund.paymentId = payment := Except.ok.inj hp
    exact ⟨row, id, hrow, hid⟩
  · obtain rfl : v₂.db.payment? refund.paymentId = payment := Except.ok.inj hp
    rw [hrow, Option.bind_some, hid]
    have hask₂ := allowed_mono (hle₁.trans hle₂) (hask id)
    have hsend : Safe P (fun v r => ∀ json, r = .ok json → RefundReply v q json)
        (sendRefundToProvider scenario ⟨q, id, refund.amountCents, refund.currency⟩) v₂ :=
      ⟨hask₂, fun v' _ _ out hout => safe_providerResponse (Q := fun v => RefundReply v q) hout⟩
    refine hsend.bind (captures_lawful P) (fun v₃ json _ hjson => ?_) fun _ _ _ _ => trivial
    obtain ⟨id', st, hstatus, hst, hrec⟩ := hjson json rfl
    refine Logic.Safe.ofExcept (fun _ _ => trivial) fun status hstatus' => ?_
    refine Logic.Safe.ofExcept (fun _ _ => trivial) fun provider _ => ?_
    obtain rfl := Except.ok.inj (hstatus.symm.trans hstatus')
    refine Logic.Safe.ite (fun hs => ?_) fun hs => ?_
    · have hst : st = .succeeded := by cases st <;> simp [Json.isStr, ProviderStatus.text] at hs ⊢
      exact safe_refundEnd ⟨id', hst ▸ hrec⟩ trivial
    · have hst : st = .failed := by
        cases st <;> simp_all [Json.isStr, ProviderStatus.text]
      exact safe_refundEnd (Or.inr ⟨id', hst ▸ hrec⟩) trivial

theorem safe_processRefundExcept (retries : ℕ) (q : Uuid) (scenario : RefundScenario) (e : Exn) :
    Runs P (processRefundExcept retries q scenario e) v := by
  cases e with
  | transientProviderError message =>
    refine safe_txn trivial (fun _ => trivial) fun v' _ _ => ?_
    exact Logic.Safe.ite (fun _ => safe_refundEnd (Or.inl rfl) trivial) fun _ => safe_retry
  | permanentProviderError message => exact safe_refundEnd (Or.inl rfl) trivial
  | _ => trivial

theorem safe_processRefund {i : ℕ} (retries : ℕ) {q : Uuid} {scenario : RefundScenario}
    (ht : taskOf v.world i = some (.processRefund q scenario)) :
    Runs P (processRefund retries q scenario) v := by
  refine safe_select trivial fun v₁ hle₁ _ now => txSafe_select (s := .selectRefund q)
    (f := fun _ D => D.refund? q) (fun _ _ => rfl) fun _ v₂ hle₂ _ => ⟨trivial, ?_⟩
  intro refund? hread
  obtain rfl : v₂.db.refund? q = refund? := Except.ok.inj hread
  cases hq : v₂.db.refund? q with
  | none => trivial
  | some refund =>
    have ht₂ := (hle₁.trans hle₂).tasks _ _ ht
    have hcall : Callable v₂ (.selectProviderPaymentId refund.paymentId) := ⟨q, refund, hq, rfl⟩
    have hask : ∀ id, Allowed v₂
        (.postRefund scenario ⟨q, id, refund.amountCents, refund.currency⟩) :=
      fun id => ⟨⟨i, ht₂⟩, refund, hq, rfl⟩
    have hrest : ∀ v₃, v₂.Le v₃ → Runs P ((processRefundTry q refund scenario).handle
        (processRefundExcept retries q scenario)) v₃ := fun v₃ hle₃ =>
      (safe_processRefundTry (callable_mono hle₃ hcall) fun id =>
        allowed_mono hle₃ (hask id)).handle (captures_lawful P)
        (fun _ _ _ _ => trivial) fun _ e _ _ => safe_processRefundExcept retries q scenario e
    refine Logic.Safe.ite (fun _ => trivial) fun _ => Logic.Safe.ite (fun _ => trivial) fun _ => ?_
    refine Logic.Safe.ite (fun _ => ?_) fun _ => hrest v₂ (.refl _)
    exact safe_txn trivial (fun _ => trivial) fun v₃ _ hle₃ => hrest v₃ hle₃

/-! ### reconcile_processing_payments -/

/-- What is known of a payment that is to be reconciled: its row has an id at the provider, and
there is a record of it under the id that was read. -/
def Selected (v : View) (payment : Payment) : Prop :=
  (∃ row, v.db.payment? payment.id = some row ∧ row.providerPaymentId ≠ none) ∧
    ∃ id st, payment.providerPaymentId = some id ∧ st ≠ .processing ∧
      HasRecord v.provider payment.id id st

theorem Selected.mono {v v' : View} (hle : v.Le v') {payment : Payment} (h : Selected v payment) :
    Selected v' payment := by
  obtain ⟨⟨row, hrow, hid⟩, id, st, hpay, hst, hr⟩ := h
  obtain ⟨row', hrow', -⟩ := hle.db.payment hrow
  exact ⟨⟨row', hrow', hle.identified _ row row' hrow hrow' hid⟩, id, st, hpay, hst,
    hr.mono hle.records hst⟩

theorem selected_of_mem (hinv : v.Inv P) {tie : Uuid → ℕ} {now : ℕ} {payment : Payment}
    (h : payment ∈ processingPayments tie now v.db) : Selected v payment := by
  have hmem := (List.mem_insertionSort _).mp (List.mem_of_mem_take h)
  simp only [List.mem_filter, Bool.and_eq_true, decide_eq_true_eq] at hmem
  obtain ⟨hmem, ⟨-, hsome⟩, -⟩ := hmem
  have hrow : v.db.payment? payment.id = some payment := find?_key_of_mem hinv.db.payment_ids hmem
  obtain ⟨id, hid⟩ := Option.isSome_iff_exists.mp hsome
  refine ⟨⟨payment, hrow, by simp [hid]⟩, id, ?_⟩
  rcases (hinv.rows _ _ hrow).recorded id hid with hr | hr
  · exact ⟨_, hid, by simp, hr⟩
  · exact ⟨_, hid, by simp, hr⟩

theorem safe_tryGetProviderPayment (id : String) :
    Safe P (fun v r => ∀ json, r = .ok (some json) → LookupReply v id json)
      (tryGetProviderPayment id) v := by
  have hget : Safe P (fun v r => ∀ json, r = .ok json → LookupReply v id json)
      (getProviderPayment id) v :=
    ⟨trivial, fun v' _ _ out hout => safe_providerResponse (Q := fun v => LookupReply v id) hout⟩
  have hsome : Safe P (fun v r => ∀ json, r = .ok (some json) → LookupReply v id json)
      ((getProviderPayment id).bind fun json => .pure (some json)) v := by
    refine hget.bind (captures_lawful P) (fun v json _ hjson => ?_) fun v e _ _ => ?_
    · intro json' hj
      obtain rfl := Option.some.inj (Except.ok.inj hj)
      exact hjson json rfl
    · intro json hj
      simp at hj
  refine hsome.handle (captures_lawful P) (fun _ _ _ h => h) fun v e _ _ => ?_
  cases e <;> (intro json hj; simp at hj)

/-- The status that is committed is the one that the provider has reported. -/
theorem reported_of_reply {payment : Payment} {id : String} {json status : Json} {final : Bool}
    (hsel : Selected v payment) (hid : payment.providerPaymentId = some id)
    (hreply : LookupReply v id json) (hstatus : json.getItem "status" = .ok status)
    (hfinal : status.inSet ["SUCCEEDED", "FAILED"] = .ok final) (h : final = true) :
    Reported v payment.id (if status.isStr "SUCCEEDED" then .succeeded else .failed) := by
  obtain ⟨-, id', st', hid', -, r, hr, hp, -⟩ := hsel
  obtain rfl : id' = id := Option.some.inj (hid'.symm.trans hid)
  obtain ⟨st, hst, hrec⟩ := hreply
  obtain rfl := Except.ok.inj (hst.symm.trans hstatus)
  subst h
  cases st with
  | processing => simp [Json.inSet, ProviderStatus.text] at hfinal
  | succeeded =>
    obtain ⟨r', hr', hs⟩ := hrec (by simp)
    obtain rfl := Option.some.inj (hr.symm.trans hr')
    exact ⟨id', r, hr, hp, hs⟩
  | failed =>
    obtain ⟨r', hr', hs⟩ := hrec (by simp)
    obtain rfl := Option.some.inj (hr.symm.trans hr')
    exact ⟨id', r, hr, hp, hs⟩

theorem safe_reconcileLoop : ∀ (payments : List Payment) (counts : Reconciled) {v : View},
    (∀ payment ∈ payments, Selected v payment) → Runs P (reconcileLoop payments counts) v
  | [], _, _, _ => trivial
  | payment :: payments, counts, v, h => by
    have hlater : ∀ {v'}, v.Le v' → ∀ payment ∈ payments, Selected v' payment :=
      fun hle payment hmem => (h payment (List.mem_cons_of_mem _ hmem)).mono hle
    have hsel := h payment List.mem_cons_self
    have ⟨_, id, _, hid, _⟩ := hsel
    refine (safe_tryGetProviderPayment _).bind (captures_lawful P) (fun v₁ answer hle₁ hreply => ?_)
      fun _ _ _ _ => trivial
    rw [hid, Option.getD_some] at hreply
    cases answer with
    | none => exact safe_reconcileLoop payments _ (hlater hle₁)
    | some json =>
      refine Logic.Safe.ofExcept (fun _ _ => trivial) fun status hstatus => ?_
      refine Logic.Safe.ofExcept (fun _ _ => trivial) fun final hfinal => ?_
      refine Logic.Safe.ite (fun _ => safe_reconcileLoop payments _ (hlater hle₁)) fun hf => ?_
      have hsel₁ := hsel.mono hle₁
      have hrep := reported_of_reply hsel₁ hid (hreply json rfl) hstatus hfinal (by simpa using hf)
      refine safe_txn ⟨hsel₁.1, hrep⟩ (fun _ => trivial) fun v₂ corrected hle₂ => ?_
      exact safe_reconcileLoop payments _ (hlater (hle₁.trans hle₂))

theorem safe_reconcileProcessingPayments : Runs P reconcileProcessingPayments v := by
  refine safe_select trivial fun v₁ _ _ now => txSafe_select (s := .selectProcessingPayments)
    (f := fun v D => processingPayments v.pick.tie v.now D) (fun _ _ => rfl)
    fun pick v₂ _ hinv => ⟨trivial, ?_⟩
  intro payments hread
  obtain rfl : processingPayments pick.tie now v₂.db = payments := Except.ok.inj hread
  exact safe_reconcileLoop _ _ fun payment hmem => selected_of_mem hinv hmem

/-! ### The requests -/

theorem safe_createPayment {w : World} (call : CreatePayment P) : Runs P
    (createPayment P call) v := by
  refine Logic.Safe.of_uses (captures_lawful P) (fun b hb => ?_) (fun e he => ?_)
    (uses_createPayment (w := w) call)
  · cases b <;> first | exact hb.elim | exact ⟨fun _ => trivial, fun _ => trivial⟩
  · cases e <;> first | exact he.elim | exact fun _ => trivial

/-- `create_refund` finds the id of a payment that has succeeded. -/
theorem txSafe_createRefund {now : ℕ} (p : Uuid) (m k : String) (a : ℕ) :
    TxSafe P now (fun _ r => Ends (.createRefund p m k a) r) (createRefundTxn p m k a) [] v := by
  have hok : ∀ a' : Refund × Bool, Ends (.createRefund p m k a) (.ok a') :=
    fun a' he => by simp at he
  have herror : ∀ e, e ≠ noProviderPaymentId → Ends (.createRefund p m k a) (.error e) :=
    fun e he h => he (Except.error.inj h)
  refine Logic.TxSafe.op fun v₁ _ _ pick existing ws hx => ?_
  obtain ⟨-, rfl⟩ := Prod.mk.inj (Option.some.inj hx)
  cases existing with
  | some existing => exact hok _
  | none =>
    refine Logic.TxSafe.op fun v₂ _ hinv pick payment ws hx => ?_
    obtain ⟨hpay, rfl⟩ := Prod.mk.inj (Option.some.inj hx)
    cases payment with
    | none => exact herror _ (by simp [noProviderPaymentId])
    | some payment =>
      have hrow : v₂.db.payment? p = some payment := (Option.filter_eq_some_iff.mp hpay).1
      refine Logic.TxSafe.ite (fun _ => herror _ (by simp [noProviderPaymentId])) fun hs => ?_
      have hs : payment.status ∈ settled := by simp [settled, not_not.mp hs]
      obtain ⟨-, id, hid, -⟩ := (hinv.rows p payment hrow).captured hs
      refine Logic.TxSafe.ite (fun hnone => by simp [hid] at hnone) fun _ => ?_
      refine Logic.TxSafe.stmt fun v₃ reserved ws => ?_
      refine Logic.TxSafe.ite (fun _ => herror _ (by simp [noProviderPaymentId])) fun _ => ?_
      refine Logic.TxSafe.stmt fun v₄ refundId ws => ?_
      -- an insert fails with an error of psycopg
      refine Logic.TxSafe.op fun v₅ _ _ pick inserted ws hx => ?_
      have hx := Option.some.inj hx
      rcases execInsertRefund_cases hx with ⟨e, rfl, -, he, -⟩ | ⟨-, -, -, c, -, rfl, -⟩
      · refine herror e ?_
        rintro rfl
        simp [isDatabaseError, noProviderPaymentId] at he
      · refine Logic.TxSafe.stmt fun _ _ _ => Logic.TxSafe.stmt fun _ _ _ => ?_
        refine Logic.TxSafe.stmt fun _ _ _ => Logic.TxSafe.stmt fun _ _ _ => ?_
        exact hok _

theorem safe_createRefund (call : CreateRefund) : Runs P (createRefund call) v := by
  refine safe_select trivial fun v₁ _ _ now => ?_
  refine (txSafe_createRefund _ _ _ _).imp (captures_lawful P) fun v₂ r _ hends => ⟨hends, ?_⟩
  rintro ⟨refund, duplicate⟩ -
  refine safe_of_free (.ite ?_ ?_)
  · trivial
  · exact uses_delay trivial trivial

/-! ### receive_provider_webhook -/

/-- What is used of the platform: a JSON that is read is the one that was written, and the text of a
UUID is read as that UUID. -/
structure PlatformLaws (P : Platform) : Prop where
  jsonLoads : ∀ eventId p id json,
    P.jsonLoads (webhookText eventId p id).toUTF8.data.toList = .ok json →
      json = webhookPayload eventId p id
  parseUuid : ∀ u u', P.parseUuid u.text = some u' → u' = u

/-- A webhook that the provider has signed reports a record with success. -/
def Genuine (v : View) (call : ReceiveWebhook) : Prop :=
  ∃ eventId p id, call.rawBody = (webhookText eventId p id).toUTF8.data.toList ∧
    HasRecord v.provider p id .succeeded

theorem safe_receiveProviderWebhook (hP : PlatformLaws P) {call : ReceiveWebhook}
    (hcall : call.xWebhookSignature = P.webhookHmac call.rawBody → Genuine v call) :
    Runs P (receiveProviderWebhook P call) v := by
  refine Logic.Safe.ofExcept (fun _ _ => trivial) fun verified hverified => ?_
  refine Logic.Safe.ite (fun _ => trivial) fun hv => ?_
  have hsigned : call.xWebhookSignature = P.webhookHmac call.rawBody := by
    unfold verifyWebhookSignature compareDigest at hverified
    split_ifs at hverified
    have hv : verified = true := by simpa using hv
    rw [← Except.ok.inj hverified] at hv
    exact (eq_of_beq hv).symm
  obtain ⟨eventId, p, id, hbody, hrec⟩ := hcall hsigned
  cases hjson : P.jsonLoads call.rawBody with
  | error e => cases e <;> trivial
  | ok payload =>
    rw [hbody] at hjson
    have hpayload := hP.jsonLoads _ _ _ _ hjson
    refine Logic.Safe.ofExcept (fun _ _ => trivial) fun _ _ => ?_
    refine Logic.Safe.ite (fun _ => trivial) fun _ => ?_
    refine Logic.Safe.ofExcept (fun _ _ => trivial) fun _ _ => ?_
    refine Logic.Safe.ofExcept (fun _ _ => trivial) fun _ _ => ?_
    refine Logic.Safe.ite (fun _ => trivial) fun _ => ?_
    exact Logic.Safe.txn (captures_lawful P) ⟨eventId, p, id, hpayload, hrec⟩ (fun _ => trivial)
      fun v' r _ => by cases r <;> trivial

/-- **Every process** keeps to the logic. -/
theorem safe_start (hP : PlatformLaws P) {x : Start P} {p : Proc Ans}
    (hx : ∀ call, x = .receiveProviderWebhook call →
      call.xWebhookSignature = P.webhookHmac call.rawBody → Genuine v call)
    (h : start P v.world x = some p) : Runs P p v := by
  have hthen : ∀ {β : Type} {q : Proc β} {f : β → Ans}, Runs P q v →
      Runs P (q.bind fun r => .pure (f r)) v := fun hq =>
    hq.bind (captures_lawful P) (fun _ _ _ _ => trivial) fun _ _ _ _ => trivial
  cases x with
  | createPayment call =>
    obtain rfl := Option.some.inj h
    exact hthen (safe_createPayment (w := v.world) call)
  | createRefund call =>
    obtain rfl := Option.some.inj h
    exact hthen (safe_createRefund call)
  | receiveProviderWebhook call =>
    obtain rfl := Option.some.inj h
    exact hthen (safe_receiveProviderWebhook hP (hx call rfl))
  | reconcilePayments =>
    obtain rfl := Option.some.inj h
    exact hthen safe_reconcileProcessingPayments
  | task i =>
    simp only [start] at h
    split at h
    · rename_i m hm
      split_ifs at h
      obtain rfl := Option.some.inj h
      refine hthen ?_
      have ht : taskOf v.world i = some m.task := by simp [taskOf, hm]
      unfold runTask
      cases htask : m.task with
      | processPayment p scenario => exact safe_processPayment m.retries (ht.trans (by rw [htask]))
      | processRefund q scenario => exact safe_processRefund m.retries (ht.trans (by rw [htask]))
    · simp at h

end Payflow.Network
