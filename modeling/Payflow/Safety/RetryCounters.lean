import Payflow.Model.Retries
import Payflow.Spec.SoloRules
import Payflow.Spec.Footprint
import Payflow.Spec.PaymentSpecs

/-! # The counters of the retries

`retry_count` in the row of a payment or a refund, the events in its history that say that a retry
is scheduled, and what each transaction of its task does to both, if it is alone. -/

namespace Payflow.Safety

open Payflow.Lib Payflow.Model Payflow.Spec

/-! ### The counters -/

/-- `retry_count` in the row that the task works on. -/
def retryCount (D : Db) : Task → Option ℕ
  | .processPayment p _ => (D.payment? p).map (·.retryCount)
  | .processRefund q _ => (D.refund? q).map (·.retryCount)

/-- The number of events in its history that say that a retry is scheduled. -/
def retryEvents (D : Db) : Task → ℕ
  | .processPayment p _ => D.paymentEvents.countP fun e =>
    e.paymentId = p && e.eventType = .paymentRetryScheduled
  | .processRefund q _ => D.refundEvents.countP fun e =>
    e.refundId = q && e.eventType = .refundRetryScheduled

/-- Both counters are at `k`. -/
structure Counts (D : Db) (T : Task) (k : ℕ) : Prop where
  row : retryCount D T = some k
  events : retryEvents D T = k

/-- The row is there and has not been worked on. -/
def Created (D : Db) : Task → Prop
  | .processPayment p _ => ∃ row, D.payment? p = some row ∧ row.status = .created
  | .processRefund q _ => ∃ refund, D.refund? q = some refund ∧ refund.status = .created

/-- The row is worked on. -/
def Processing (D : Db) : Task → Prop
  | .processPayment p _ => ∃ row, D.payment? p = some row ∧ row.status = .processing
  | .processRefund q _ => ∃ refund, D.refund? q = some refund ∧ refund.status = .processing

/-! ### The transactions -/

/-- The statement changes no counter. -/
def KeepsCounters : Stmt → Prop
  | .updatePayment _ _ set => ∀ now cols, (set now cols).retryCount = cols.retryCount
  | .insertPaymentEvent _ type _ _ _ => type ≠ .paymentRetryScheduled
  | .updateRefund _ _ set => ∀ now cols, (set now cols).retryCount = cols.retryCount
  | .insertRefundEvent _ type _ _ _ => type ≠ .refundRetryScheduled
  | .selectPayment _ | .selectPaymentForUpdate _ | .selectRefund _ | .selectRefundForUpdate _
  | .sumRefunds _ _ | .insertOutboxEvent _ _ _ => True
  | _ => False

section counters

variable {D : Db} {T : Task} {k : ℕ}

theorem Counts.updatePayment (h : Counts D T k) {p : Uuid} {row : Payment}
    (hrow : D.payment? p = some row) {cols : PaymentCols}
    (hcols : cols.retryCount = row.retryCount) :
    Counts (D.apply (.updatePayment p cols)) T k := by
  refine ⟨?_, h.events ▸ by cases T <;> rfl⟩
  rw [← h.row]
  cases T with
  | processRefund q s => rfl
  | processPayment p' s =>
    have hid : row.id = p := (find?_key hrow).2
    simp only [retryCount, payment?_update, Option.map_map]
    cases hrow' : D.payment? p' with
    | none => rfl
    | some row' =>
      simp only [Option.map_some, Function.comp_apply]
      split_ifs with he
      · have hp : p' = p := (find?_key hrow').2 ▸ he
        obtain rfl := Option.some.inj (hrow'.symm.trans (hp ▸ hrow))
        exact congrArg some hcols
      · rfl

theorem Counts.updateRefund (h : Counts D T k) {q : Uuid} {refund : Refund}
    (hrefund : D.refund? q = some refund) {cols : RefundCols}
    (hcols : cols.retryCount = refund.retryCount) :
    Counts (D.apply (.updateRefund q cols)) T k := by
  refine ⟨?_, h.events ▸ by cases T <;> rfl⟩
  rw [← h.row]
  cases T with
  | processPayment p s => rfl
  | processRefund q' s =>
    have hid : refund.id = q := (find?_key hrefund).2
    simp only [retryCount, refund?_update, Option.map_map]
    cases hrefund' : D.refund? q' with
    | none => rfl
    | some refund' =>
      simp only [Option.map_some, Function.comp_apply]
      split_ifs with he
      · have hq : q' = q := (find?_key hrefund').2 ▸ he
        obtain rfl := Option.some.inj (hrefund'.symm.trans (hq ▸ hrefund))
        exact congrArg some hcols
      · rfl

theorem Counts.insertPaymentEvent (h : Counts D T k) {e : PaymentEvent}
    (he : e.eventType ≠ .paymentRetryScheduled) : Counts (D.apply (.insertPaymentEvent e)) T k := by
  refine ⟨h.row ▸ by cases T <;> rfl, ?_⟩
  rw [← h.events]
  cases T with
  | processRefund q s => rfl
  | processPayment p s => simp [retryEvents, Db.apply, he]

theorem Counts.insertRefundEvent (h : Counts D T k) {e : RefundEvent}
    (he : e.eventType ≠ .refundRetryScheduled) : Counts (D.apply (.insertRefundEvent e)) T k := by
  refine ⟨h.row ▸ by cases T <;> rfl, ?_⟩
  rw [← h.events]
  cases T with
  | processPayment p s => rfl
  | processRefund q s => simp [retryEvents, Db.apply, he]

theorem Counts.exec (h : Counts D T k) {v : Env Pick} {st : Stmt} {r : SRes st} {ws : List Write}
    (hst : KeepsCounters st) (hx : stmtExec v D st = some (r, ws)) :
    Counts (store.applyAll D ws) T k := by
  cases st with
  | selectPayment | selectPaymentForUpdate | selectRefund | selectRefundForUpdate | sumRefunds =>
    obtain ⟨-, rfl⟩ := Prod.mk.inj (Option.some.inj hx)
    exact h
  | updatePayment p guard set =>
    simp only [stmtExec] at hx
    split at hx
    · rename_i row hfilter
      obtain ⟨-, rfl⟩ := Prod.mk.inj (Option.some.inj hx)
      exact h.updatePayment (Option.filter_eq_some_iff.mp hfilter).1 (hst _ _)
    · obtain ⟨-, rfl⟩ := Prod.mk.inj (Option.some.inj hx)
      exact h
  | updateRefund q guard set =>
    simp only [stmtExec] at hx
    split at hx
    · rename_i refund hfilter
      obtain ⟨-, rfl⟩ := Prod.mk.inj (Option.some.inj hx)
      exact h.updateRefund (Option.filter_eq_some_iff.mp hfilter).1 (hst _ _)
    · obtain ⟨-, rfl⟩ := Prod.mk.inj (Option.some.inj hx)
      exact h
  | insertPaymentEvent p type prev new metadata =>
    obtain ⟨id, -, he⟩ := drawn_of_map hx
    obtain ⟨-, rfl⟩ := Prod.mk.inj he
    exact h.insertPaymentEvent hst
  | insertRefundEvent q type prev new metadata =>
    obtain ⟨id, -, he⟩ := drawn_of_map hx
    obtain ⟨-, rfl⟩ := Prod.mk.inj he
    exact h.insertRefundEvent hst
  | insertOutboxEvent aggregate type payload =>
    obtain ⟨id, -, he⟩ := drawn_of_map hx
    obtain ⟨-, rfl⟩ := Prod.mk.inj he
    exact ⟨h.row ▸ by cases T <;> rfl, h.events ▸ by cases T <;> rfl⟩
  | _ => exact hst.elim

end counters

/-- The transaction changes no counter. -/
def KeepsCounts : Block → Prop
  | .recordTransition _ type _ _ _ => type ≠ .paymentRetryScheduled
  | .recordRefundTransition _ type _ _ _ => type ≠ .refundRetryScheduled
  | .recordAwaitingWebhook _ _ | .completeSuccessfulRefund _ | .restorePaymentAfterFailedRefund _
  | .selectProviderPaymentId _ => True
  | _ => False

/-- A program that keeps the counters and raises no error of the provider. -/
abbrev Neutral {α : Type} (p : Tx α) : Prop :=
  p.Follows (Prog.only KeepsCounters) (fun _ _ => True) (fun _ e => isProviderError e = false) ()

theorem neutral_recordTransition {p : Uuid} {type : EventType} {new : PaymentStatus}
    {provider : Json} {failure : Option String} (htype : type ≠ .paymentRetryScheduled) :
    Neutral (recordTransition P p type new provider failure) := by
  refine ⟨trivial, fun row => ?_⟩
  cases (row : Option Payment) with
  | none => exact rfl
  | some row =>
    refine .ite (fun _ => .ite (fun _ => trivial) fun _ => rfl) fun _ => ?_
    refine .ofExcept (fun e he => isProviderError_textParam he) fun _ _ => ?_
    refine .ofExcept (fun e he => isProviderError_textParam he) fun _ _ => ?_
    exact ⟨fun _ _ => rfl, fun _ => ⟨htype, fun _ => ⟨trivial, fun _ => trivial⟩⟩⟩

theorem isProviderError_varcharOption {s : Option String} {e : Exn}
    (h : varcharOption s = .error e) : isProviderError e = false := by
  cases s with
  | none => cases h
  | some s =>
    unfold varcharOption at h
    cases hv : varchar 255 s with
    | ok t => simp [hv] at h
    | error e' =>
      obtain ⟨message, rfl⟩ := varchar_error hv
      obtain rfl : e = .dataError message := by simpa [hv] using h.symm
      rfl

theorem neutral_recordRefundTransition {q : Uuid} {type : EventType} {new : RefundStatus}
    {provider : Json} {failure : Option String} (htype : type ≠ .refundRetryScheduled) :
    Neutral (recordRefundTransition P q type new provider failure) := by
  refine ⟨trivial, fun refund => ?_⟩
  cases (refund : Option Refund) with
  | none => exact rfl
  | some refund =>
    refine .ite (fun _ => .ite (fun _ => trivial) fun _ => rfl) fun _ => ?_
    refine .ofExcept (fun e he => isProviderError_textParam he) fun _ _ => ?_
    refine .ofExcept (fun e he => isProviderError_varcharOption he) fun _ _ => ?_
    refine .ofExcept (fun e he => isProviderError_textParam he) fun _ _ => ?_
    exact ⟨fun _ _ => rfl, fun _ => ⟨htype, fun _ => ⟨trivial, fun _ => trivial⟩⟩⟩

theorem neutral_body {P : Platform} {b : Block} (hb : KeepsCounts b) : Neutral (body P b) := by
  cases b with
  | recordTransition => exact neutral_recordTransition hb
  | recordRefundTransition => exact neutral_recordRefundTransition hb
  | selectProviderPaymentId => exact ⟨trivial, fun _ => trivial⟩
  | recordAwaitingWebhook p provider =>
    refine ⟨trivial, fun row => ?_⟩
    cases (row : Option Payment) with
    | none => exact rfl
    | some row =>
      refine .ite (fun _ => trivial) fun _ => ?_
      refine .ofExcept (fun e he => isProviderError_assignText he) fun _ _ => ?_
      exact ⟨fun _ _ => rfl, fun _ => ⟨nofun, fun _ => trivial⟩⟩
  | completeSuccessfulRefund q =>
    refine ⟨trivial, fun refund => ?_⟩
    cases (refund : Option Refund) with
    | none => exact rfl
    | some refund =>
      refine ⟨trivial, fun row => ?_⟩
      cases (row : Option Payment) with
      | none => exact rfl
      | some row =>
        refine ⟨trivial, fun (total : ℕ) => ⟨fun _ _ => rfl, fun _ =>
          ⟨?_, fun _ => ⟨trivial, fun _ => trivial⟩⟩⟩⟩
        show (if total ≥ row.amountCents then EventType.paymentRefunded else _) ≠ _
        split_ifs <;> decide
  | restorePaymentAfterFailedRefund q =>
    refine ⟨trivial, fun refund => ?_⟩
    cases (refund : Option Refund) with
    | none => exact trivial
    | some refund => exact ⟨fun _ _ => rfl, fun _ => trivial⟩
  | _ => cases hb

section solo

variable {P : Platform} {m pid : ℕ} {C : ℕ → (e : Ext) → ERes e → Prop} {α : Type}
  {Q : Except Exn α → Db → ℕ → Prop} {D : Db} {T : Task} {k n : ℕ}

theorem soloTxn_keeps {now : ℕ} {p : Tx α} (hp : Neutral p) (hD : Counts D T k) :
    SoloTxn store now (fun res D' => Counts D' T k ∧ ∀ e, res = .error e →
      isProviderError e = false)
      p D :=
  SoloTxn.of_follows (fun _ _ _ _ _ hst hx hD => Counts.exec hD hst hx) hp hD

theorem solo_txn {b : Block} {rest : BRes b → Proc α} {R : Except Exn (BRes b) → Db → Prop}
    (hb : ∀ now, SoloTxn store now R (body P b) D)
    (hok : ∀ r D', R (.ok r) D' → Machine.Solo (payflowUpTo m P) pid C Q (rest r) D' n)
    (herror : ∀ e D', R (.error e) D' → Q (.error e) D n) :
    Machine.Solo (payflowUpTo m P) pid C Q ((txn b).bind rest) D n :=
  Machine.Solo.txn hb hok herror

theorem solo_keeps {b : Block} {rest : BRes b → Proc α} (hb : KeepsCounts b) (hD : Counts D T k)
    (hok : ∀ r D', Counts D' T k → Machine.Solo (payflowUpTo m P) pid C Q (rest r) D' n)
    (herror : ∀ e, isProviderError e = false → Q (.error e) D n) :
    Machine.Solo (payflowUpTo m P) pid C Q ((txn b).bind rest) D n := by
  refine Machine.Solo.txn (fun now => soloTxn_keeps (neutral_body hb) hD) ?_ ?_
  · exact fun r D' hr => hok r D' hr.1
  · exact fun e D' he => herror e (he.2 e rfl)

end solo

theorem soloTxn_processing {p : Uuid} (s : Scenario) {row : Payment} {now : ℕ} {D : Db}
    (hrow : D.payment? p = some row) (hst : row.status = .created) :
    SoloTxn store now (fun res D' => res = .ok () ∧ Processing D' (.processPayment p s))
      (recordTransition P p .paymentProcessing .processing .null none) D := by
  refine solo_read (fun _ => congrArg (fun r => some (r, [])) hrow) ?_
  refine SoloTxn.ite (fun hv => absurd (by rw [hst]; decide) hv) fun _ => ?_
  refine SoloTxn.ofExcept (fun e he => by cases he) fun provider _ => ?_
  refine SoloTxn.ofExcept (fun e he => by cases he) fun failure _ => solo_updatePayment hrow rfl ?_
  refine solo_insertPaymentEvent fun event _ => solo_insertOutboxEvent fun outbox _ => ?_
  exact ⟨rfl, _, payment?_update_self hrow _, rfl⟩

theorem textParam_reason {s : String} (h : hasNul s = false) :
    (Json.str s).textParam P = .ok (some s) :=
  if_neg (by simp [h])

theorem soloTxn_recordRetry {p : Uuid} {s : Scenario} {row : Payment} {reason : String} {now k : ℕ}
    {D : Db} (hrow : D.payment? p = some row) (hst : row.status = .processing)
    (hreason : hasNul (firstTwoHundred reason) = false) (hD : Counts D (.processPayment p s) k) :
    SoloTxn store now (fun res D' => res = .ok () ∧ Processing D' (.processPayment p s) ∧
      Counts D' (.processPayment p s) (k + 1)) (body P (.recordRetry p reason)) D := by
  show SoloTxn store now _ (recordRetry P p reason) D
  unfold recordRetry
  simp only [textParam_reason hreason]
  refine solo_read (fun _ => congrArg (fun r => some (r, [])) hrow) ?_
  refine SoloTxn.ite (fun hne => absurd hst hne) fun _ => ?_
  refine solo_updatePayment hrow rfl ?_
  refine solo_insertPaymentEventSelect (payment?_update_self hrow _) fun event _ => ?_
  have hcount : row.retryCount = k := by simpa [retryCount, hrow] using hD.row
  refine ⟨rfl, ⟨_, payment?_update_self hrow _, hst⟩, ?_, ?_⟩
  · show ((D.apply _).payment? p).map _ = _
    rw [payment?_update_self hrow, Option.map_some, hcount]
  · have hevents := hD.events
    simp only [retryEvents] at hevents
    simp [retryEvents, Db.apply, hevents]

theorem soloTxn_refundProcessing {q : Uuid} (s : RefundScenario) {refund : Refund} {now : ℕ}
    {D : Db} (hrefund : D.refund? q = some refund) (hst : refund.status = .created) :
    SoloTxn store now (fun _ D' => Processing D' (.processRefund q s))
      (recordRefundTransition P q .refundProcessing .processing .null none) D := by
  refine solo_read (fun _ => congrArg (fun r => some (r, [])) hrefund) ?_
  refine SoloTxn.ite (fun hv => absurd (by rw [hst]; decide) hv) fun _ => ?_
  refine SoloTxn.ofExcept (fun e he => by cases he) fun provider hprovider => ?_
  obtain rfl := Except.ok.inj hprovider
  refine SoloTxn.ofExcept (fun e he => by cases he) fun provider _ => ?_
  refine SoloTxn.ofExcept (fun e he => by cases he) fun failure _ =>
    solo_updateRefund hrefund rfl ?_
  refine solo_insertRefundEvent fun event _ => solo_insertOutboxEvent fun outbox _ => ?_
  exact ⟨_, refund?_update_self hrefund _, rfl⟩

theorem soloTxn_recordRefundRetry {q : Uuid} {s : RefundScenario} {refund : Refund}
    {reason : String}
    {now k : ℕ} {D : Db} (hrefund : D.refund? q = some refund) (hst : refund.status = .processing)
    (hreason : hasNul (firstTwoHundred reason) = false) (hD : Counts D (.processRefund q s) k) :
    SoloTxn store now (fun res D' => res = .ok () ∧ Processing D' (.processRefund q s) ∧
      Counts D' (.processRefund q s) (k + 1)) (body P (.recordRefundRetry q reason)) D := by
  show SoloTxn store now _ (recordRefundRetry P q reason) D
  unfold recordRefundRetry
  simp only [textParam_reason hreason]
  refine solo_updateRefund hrefund (by simpa using hst) ?_
  refine solo_insertRefundEvent fun event _ => ?_
  have hcount : refund.retryCount = k := by simpa [retryCount, hrefund] using hD.row
  refine ⟨rfl, ⟨_, refund?_update_self hrefund _, hst⟩, ?_, ?_⟩
  · show ((D.apply _).refund? q).map _ = _
    rw [refund?_update_self hrefund, Option.map_some, hcount]
  · have hevents := hD.events
    simp only [retryEvents] at hevents
    simp [retryEvents, Db.apply, hevents]

end Payflow.Safety
