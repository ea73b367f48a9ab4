import Payflow.Network.Exchange
import Payflow.Safety.TaskResults
import Payflow.Spec.SoloRules

/-! # After a crash

All processes may be killed at any time. What they had in hand is rolled back, and the messages that
no worker has acknowledged are still in the queue. If a worker then takes one of them, and the
provider accepts what it is asked, the task comes to its end: the payment or the refund succeeds, or
it has been decided before. -/

namespace Payflow.Safety

open Payflow.Lib Payflow.Model Payflow.Spec

variable {P : Platform} {D : Db} {p q : Uuid} {now : ℕ}

/-! ### The transactions of a task that is alone -/

theorem soloTxn_recordTransition {row : Payment} {type : EventType} {new : PaymentStatus}
    {provider : Json} {t failure f : Option String} (hrow : D.payment? p = some row)
    (hv : new ∈ validTransitions row.status) (hprovider : provider.textParam P = .ok t)
    (hfailure : (textOption failure).textParam P = .ok f) :
    SoloTxn store now (fun res D' => res = .ok () ∧ ∃ row', D'.payment? p = some row' ∧
      row'.status = new) (recordTransition P p type new provider failure) D := by
  refine solo_read (fun _ => congrArg (fun r => some (r, [])) hrow) ?_
  refine SoloTxn.ite (fun hnot => absurd hv hnot) fun _ => ?_
  refine SoloTxn.ofExcept (fun e he => by rw [hprovider] at he; cases he) fun provider _ => ?_
  refine SoloTxn.ofExcept (fun e he => by rw [hfailure] at he; cases he) fun failure _ =>
    solo_updatePayment hrow rfl ?_
  refine solo_insertPaymentEvent fun event _ => solo_insertOutboxEvent fun outbox _ => ?_
  exact ⟨rfl, _, payment?_update_self hrow _, rfl⟩

theorem soloTxn_recordRefundTransition {refund : Refund} {type : EventType} {new : RefundStatus}
    {provider : Json} {t t' failure f : Option String} (hq : D.refund? q = some refund)
    (hv : new ∈ validRefundTransitions refund.status) (hprovider : provider.textParam P = .ok t)
    (ht : varcharOption t = .ok t') (hfailure : (textOption failure).textParam P = .ok f) :
    SoloTxn store now (fun res D' => res = .ok () ∧ D'.payments = D.payments ∧
      ∃ cols : RefundCols, D'.refund? q = some { refund with toRefundCols := cols } ∧
        cols.status = new) (recordRefundTransition P q type new provider failure) D := by
  refine solo_read (fun _ => congrArg (fun r => some (r, [])) hq) ?_
  refine SoloTxn.ite (fun hnot => absurd hv hnot) fun _ => ?_
  refine SoloTxn.ofExcept (fun e he => by rw [hprovider] at he; cases he) fun provider hok => ?_
  obtain rfl := Except.ok.inj (hprovider.symm.trans hok)
  refine SoloTxn.ofExcept (fun e he => by rw [ht] at he; cases he) fun provider _ => ?_
  refine SoloTxn.ofExcept (fun e he => by rw [hfailure] at he; cases he) fun failure _ =>
    solo_updateRefund hq rfl ?_
  refine solo_insertRefundEvent fun event _ => solo_insertOutboxEvent fun outbox _ => ?_
  exact ⟨rfl, rfl, _, refund?_update_self hq _, rfl⟩

theorem soloTxn_completeSuccessfulRefund {refund : Refund} {row : Payment}
    (hq : D.refund? q = some refund) (hrow : D.payment? refund.paymentId = some row) :
    SoloTxn store now (fun res _ => res = .ok ()) (completeSuccessfulRefund q) D := by
  have hid : row.id = refund.paymentId := (find?_key hrow).2
  refine solo_read (fun _ => congrArg (fun r => some (r, [])) hq) ?_
  refine solo_read (fun _ => congrArg (fun r => some (r, [])) hrow) ?_
  refine solo_read (fun _ => rfl) (solo_updatePayment (hid ▸ hrow) rfl ?_)
  exact solo_insertPaymentEvent fun event _ => solo_insertOutboxEvent fun outbox _ => rfl

/-! ### The payment of a refund -/

/-- The payment of the refund has succeeded, and has an id at the provider. -/
def Refundable (D : Db) (id : Uuid) : Prop :=
  ∃ row, D.payment? id = some row ∧ row.status ∈ settled ∧ row.providerPaymentId ≠ none

theorem refundable_step {b : Block} {ws : List Write} {r : BRes b} (hreq : Requires b D)
    (h : Does P b now D ws r) {id : Uuid} (hid : Refundable D id) :
    Refundable (store.applyAll D ws) id := by
  obtain ⟨row, hrow, hs, hprovider⟩ := hid
  obtain ⟨row', hrow', hs'⟩ := settled_step hreq h hrow hs
  refine ⟨row', hrow', hs', ?_⟩
  have hstep := row_step h id
  rw [hrow, hrow'] at hstep
  cases hstep with
  | same => exact hprovider
  | set hset =>
    cases hset with
    | @transition type new provider failure provider' failure' hv hprov hfail =>
      cases provider' with
      | none => exact hprovider
      | some id => exact Option.some_ne_none id
    | awaiting hproc | retry hproc | webhook hproc | reconcile hproc => simp [hproc, settled] at hs
    | refund | complete | restore => exact hprovider

/-- Every refund is one of such a payment. -/
def RefundsRefundable (D : Db) : Prop :=
  ∀ q refund, D.refund? q = some refund → Refundable D refund.paymentId

theorem refundsRefundable_step {b : Block} {ws : List Write} {r : BRes b} (hi : Inv D)
    (hreq : Requires b D) (h : Does P b now D ws r) (hD : RefundsRefundable D) :
    RefundsRefundable (store.applyAll D ws) := by
  intro q refund' hq'
  refine refundable_step hreq h ?_
  have hstep := refund_step hreq h q
  rw [hq'] at hstep
  generalize hq : D.refund? q = before at hstep
  have hold : ∀ refund, D.refund? q = some refund → Refundable D refund'.paymentId := by
    intro refund hq
    obtain ⟨refund₁, hq₁, cols, rfl, -⟩ := (keep_of_does hi hreq h).2.refund hq
    obtain rfl := Option.some.inj (hq₁.symm.trans hq')
    exact hD q refund hq
  cases hstep with
  | new hb =>
    subst hb
    obtain ⟨row, id, c, e₁, e₂, e₃, -, -, hrow, -, hs, hprovider, -⟩ | ⟨refund, -, -, rfl⟩ := h
    · exact ⟨row, hrow, by simp [hs, settled], hprovider⟩
    · exact hold _ hq'
  | keep _ => exact hold _ hq
  | move _ => exact hold _ hq

/-! ### A task that is alone -/

/-- The provider accepts: it reports success, and an id that can be stored. -/
def Accepts (key : String) (out : HttpOutcome) : Prop :=
  ∃ statusCode text body id, out = .response statusCode text (.ok body) ∧ statusCode < 400 ∧
    body.getItem "status" = .ok (.str "SUCCEEDED") ∧ body.getItem key = .ok (.str id) ∧
    hasNul id = false ∧ id.length ≤ 255

/-- It accepts whatever it is asked. -/
def ProviderAccepts (_ : ℕ) : (e : Ext) → ERes e → Prop
  | .postPayment _ _, out => Accepts "provider_payment_id" out
  | .postRefund _ _, out => Accepts "provider_refund_id" out
  | _, _ => True

/-- The task has come to its end. -/
def Concluded : Task → TaskResult → Prop
  | .processPayment _ _, res => res ∈ [.succeeded, .alreadyCompleted, .alreadyFailed]
  | .processRefund _ _, res => res ∈ [.succeeded, .alreadySucceeded, .alreadyFailed]

/-- Alone on the database `D`, the program returns a result that concludes the task. -/
abbrev Concludes (P : Platform) (pid : ℕ) (task : Task) (prog : Proc TaskResult) (D : Db)
    (n : ℕ) : Prop :=
  Machine.Solo (payflow P) pid ProviderAccepts
    (fun out _ _ => ∃ res, out = .ok res ∧ Concluded task res) prog D n

section programs

variable {pid n : ℕ} {scenario : Scenario} {refundScenario : RefundScenario}

theorem concludes_txn {task : Task} {b : Block} {k : BRes b → Proc TaskResult}
    {R : BRes b → Db → Prop}
    (hb : ∀ now, SoloTxn store now (fun res D' => ∃ a, res = .ok a ∧ R a D') (body P b) D)
    (h : ∀ a D', R a D' → Concludes P pid task (k a) D' n) :
    Concludes P pid task ((txn b).bind k) D n := by
  refine Machine.Solo.txn hb (fun a D' ha => ?_) fun e D' he => ?_
  · obtain ⟨a', ha', hR⟩ := ha
    obtain rfl := Except.ok.inj ha'
    exact h a D' hR
  · obtain ⟨a, ha, -⟩ := he
    cases ha

theorem concludes_response {task : Task} {key : String} {out : HttpOutcome} (h : Accepts key out)
    {transient : String} {unavailable : ℕ → String} {rejected : ℕ → String → String}
    {k : Json → Json → Proc TaskResult}
    (hk : ∀ id, (Json.str id).textParam P = .ok (some id) → varcharOption (some id) = .ok (some id) →
      Concludes P pid task (k (.str "SUCCEEDED") (.str id)) D n) :
    Concludes P pid task ((providerResponse transient unavailable rejected out).bind fun body =>
      (Prog.ofExcept (body.getItem "status")).bind fun status =>
        (Prog.ofExcept (body.getItem key)).bind fun id => k status id) D n := by
  obtain ⟨statusCode, text, body, id, rfl, hcode, hstatus, hid, hnul, hlen⟩ := h
  rw [providerResponse_ok (by omega)]
  have htext : (Json.str id).textParam P = .ok (some id) := if_neg (by simp [hnul])
  have hvarchar : varcharOption (some id) = .ok (some id) := by
    simp [varcharOption, varchar, hlen]
  have hconcludes := hk id htext hvarchar
  show Concludes P pid task ((Prog.ofExcept (body.getItem "status")).bind _) D n
  rw [hstatus]
  show Concludes P pid task ((Prog.ofExcept (body.getItem key)).bind _) D n
  rw [hid]
  exact hconcludes

theorem concludes_processPaymentTry {row : Payment} (hrow : D.payment? p = some row)
    (hv : PaymentStatus.succeeded ∈ validTransitions row.status) (payment : Payment) :
    Concludes P pid (.processPayment p scenario) (processPaymentTry p payment scenario) D n := by
  intro pick w out w' _ haccepts
  refine concludes_response haccepts fun id htext _ => ?_
  refine concludes_txn (R := fun _ _ => True) (fun now => ?_) fun _ _ _ => ⟨_, rfl, by simp [Concluded]⟩
  refine (soloTxn_recordTransition hrow hv htext rfl).mono fun res D' h => ⟨(), h.1, trivial⟩

/-- **process_payment**, alone. -/
theorem concludes_processPayment (hp : ∃ row, D.payment? p = some row) (retries : ℕ) :
    Concludes P pid (.processPayment p scenario) (processPayment retries p scenario) D n := by
  obtain ⟨row, hrow⟩ := hp
  refine concludes_txn (R := fun found D' => found = some row ∧ D' = D)
    (fun now => solo_read (fun _ => congrArg (fun r => some (r, [])) hrow) ⟨_, rfl, rfl, rfl⟩) ?_
  rintro found D' ⟨rfl, rfl⟩
  have hrest : ∀ {D' : Db} {row' : Payment} {n : ℕ}, D'.payment? p = some row' →
      PaymentStatus.succeeded ∈ validTransitions row'.status →
      Concludes P pid (.processPayment p scenario) ((processPaymentTry p row scenario).handle
        (processPaymentExcept retries p scenario)) D' n := fun hrow' hv =>
    (concludes_processPaymentTry hrow' hv row).handle (fun _ _ _ h => h)
      fun _ _ _ ⟨_, h, _⟩ => nomatch h
  refine .ite (fun _ => ⟨_, rfl, by simp [Concluded]⟩) fun h₁ => .ite (fun _ => ⟨_, rfl,
    by simp [Concluded]⟩) fun h₂ => .ite (fun hs => ?_) fun h₃ => hrest hrow ?_
  · refine concludes_txn (R := fun _ D' => ∃ row', D'.payment? p = some row' ∧
      row'.status = .processing) (fun now => ?_) ?_
    · refine (soloTxn_recordTransition hrow (by simp [hs, validTransitions]) rfl rfl).mono ?_
      exact fun res D' h => ⟨(), h⟩
    · rintro - D₁ ⟨row', hrow', hs'⟩
      exact hrest hrow' (by simp [hs', validTransitions])
  · cases hst : row.status <;> simp_all [validTransitions]

theorem concludes_processRefundTry {refund refund' : Refund} (hq : D.refund? q = some refund')
    (hs : refund'.status = .processing) (hpid : refund'.paymentId = refund.paymentId)
    (hpayment : Refundable D refund.paymentId) :
    Concludes P pid (.processRefund q refundScenario) (processRefundTry q refund refundScenario)
      D n := by
  obtain ⟨row, hrow, -, hprovider⟩ := hpayment
  obtain ⟨providerPaymentId, hprovider⟩ := Option.ne_none_iff_exists'.mp hprovider
  refine concludes_txn (R := fun payment D' => payment = some row ∧ D' = D)
    (fun now => solo_read (fun _ => congrArg (fun r => some (r, [])) hrow) ⟨_, rfl, rfl, rfl⟩) ?_
  rintro payment D' ⟨rfl, rfl⟩
  rw [show Option.bind (some row) (·.providerPaymentId) = some providerPaymentId from hprovider]
  intro pick w out w' _ haccepts
  refine concludes_response haccepts fun id htext hvarchar => ?_
  refine concludes_txn (R := fun _ D₁ => D₁.payments = D'.payments ∧ ∃ cols : RefundCols,
    D₁.refund? q = some { refund' with toRefundCols := cols }) (fun now => ?_) ?_
  · refine (soloTxn_recordRefundTransition hq (by simp [hs, validRefundTransitions]) htext hvarchar
      rfl).mono fun res D₁ h => ?_
    obtain ⟨hok, hpayments, cols, hq₁, -⟩ := h
    exact ⟨(), hok, hpayments, cols, hq₁⟩
  · rintro - D₁ ⟨hpayments, cols, hq₁⟩
    have hrow₁ : D₁.payment? refund'.paymentId = some row := by
      rw [hpid]
      unfold Db.payment? at hrow ⊢
      rwa [hpayments]
    refine concludes_txn (R := fun _ _ => True) (fun now => ?_)
      fun _ _ _ => ⟨_, rfl, by simp [Concluded]⟩
    exact (soloTxn_completeSuccessfulRefund hq₁ hrow₁).mono fun res D₂ h => ⟨(), h, trivial⟩

/-- **process_refund**, alone. -/
theorem concludes_processRefund {refund : Refund} (hq : D.refund? q = some refund)
    (hpayment : Refundable D refund.paymentId) (retries : ℕ) :
    Concludes P pid (.processRefund q refundScenario) (processRefund retries q refundScenario)
      D n := by
  refine concludes_txn (R := fun found D' => found = some refund ∧ D' = D)
    (fun now => solo_read (fun _ => congrArg (fun r => some (r, [])) hq) ⟨_, rfl, rfl, rfl⟩) ?_
  rintro found D' ⟨rfl, rfl⟩
  have hrest : ∀ {D₁ : Db} {refund' : Refund} {n : ℕ}, D₁.refund? q = some refund' →
      refund'.status = .processing → refund'.paymentId = refund.paymentId →
      D₁.payments = D'.payments →
      Concludes P pid (.processRefund q refundScenario)
        ((processRefundTry q refund refundScenario).handle
          (processRefundExcept retries q refundScenario)) D₁ n := by
    intro D₁ refund' n hq' hs hpid hpayments
    have hpayment' : Refundable D₁ refund.paymentId := by
      unfold Refundable Db.payment? at hpayment ⊢
      rwa [hpayments]
    exact (concludes_processRefundTry hq' hs hpid hpayment').handle (fun _ _ _ h => h)
      fun _ _ _ ⟨_, h, _⟩ => nomatch h
  refine .ite (fun _ => ⟨_, rfl, by simp [Concluded]⟩) fun h₁ => .ite (fun _ => ⟨_, rfl,
    by simp [Concluded]⟩) fun h₂ => .ite (fun hs => ?_) fun h₃ => hrest hq ?_ rfl rfl
  · refine concludes_txn (R := fun _ D₁ => D₁.payments = D'.payments ∧ ∃ cols : RefundCols,
      D₁.refund? q = some { refund with toRefundCols := cols } ∧ cols.status = .processing)
      (fun now => ?_) ?_
    · refine (soloTxn_recordRefundTransition hq (by simp [hs, validRefundTransitions]) rfl rfl
        rfl).mono ?_
      exact fun res D₁ h => ⟨(), h⟩
    · rintro - D₁ ⟨hpayments, cols, hq₁, hs₁⟩
      exact hrest hq₁ hs₁ rfl hpayments
  · cases hst : refund.status <;> simp_all

theorem concludes_runTask {m : Message}
    (hp : ∀ p scenario, m.task = .processPayment p scenario → ∃ row, D.payment? p = some row)
    (hq : ∀ q scenario, m.task = .processRefund q scenario →
      ∃ refund, D.refund? q = some refund ∧ Refundable D refund.paymentId) :
    Concludes P pid m.task (runTask m) D n := by
  unfold runTask
  split
  · rename_i p scenario htask
    rw [htask]
    exact concludes_processPayment (hp p scenario htask) m.retries
  · rename_i q scenario htask
    rw [htask]
    obtain ⟨refund, hrefund, hpayment⟩ := hq q scenario htask
    exact concludes_processRefund hrefund hpayment m.retries

end programs

/-! ### The queue -/

theorem refundsRefundable_of_reachable {s : State P} (h : Reachable P s) :
    RefundsRefundable s.db :=
  db_invariant (I := RefundsRefundable)
    (fun q refund hq => by simp [Db.refund?, Db.empty] at hq)
    (fun hi hreq hdoes _ ih => refundsRefundable_step hi hreq hdoes ih) (reachableWhen_true h)

/-- A body that says so. -/
def acceptance (key : String) : Json := .obj [("status", .str "SUCCEEDED"), (key, .str "id")]

theorem accepts_acceptance {key : String}
    (hkey : (acceptance key).getItem key = .ok (.str "id")) :
    Accepts key (.response 200 "" (.ok (acceptance key))) :=
  ⟨200, "", _, "id", rfl, by omega, rfl, hkey, by decide, by decide⟩

theorem answerable_accepts {pid : ℕ} :
    Machine.Answerable (payflow P) pid ProviderAccepts where
  pick := ⟨.nothing⟩
  exec := exists_exec
  ext n w e := by
    cases e with
    | uuid4 => exact ⟨.newId ⟨0⟩, _, _, rfl, trivial⟩
    | redisSet _ _ | redisRelease _ _ => exact ⟨.redis none, _, _, rfl, trivial⟩
    | delay _ | sendRetry _ _ => exact ⟨.broker false, _, _, rfl, trivial⟩
    | getPayment _ => exact ⟨.http .timeoutException, _, _, rfl, trivial⟩
    | postPayment _ _ | postRefund _ _ =>
      exact ⟨.http (.response 200 "" (.ok (acceptance _))), _, w, rfl,
        accepts_acceptance rfl⟩

section queue

variable {s : State P} {i : ℕ} {m : Message}

/-- A worker that takes the message, while no other process is at work. -/
theorem concludes_start (h : Reachable P s) (hm : s.world.messages[i]? = some m)
    (hacked : m.acked = false) (pid : ℕ) :
    ∃ prog, start P s.world (.task i) = some prog ∧
      Machine.Solo (payflow P) pid ProviderAccepts
        (fun out _ _ => ∃ res, out = .ok (.task res) ∧ Concluded m.task res) prog s.db 0 := by
  have hstart : start P s.world (.task i) = some ((runTask m).bind fun r => .pure (.task r)) := by
    simp [start, hm, hacked]
  have hconcludes : Concludes P pid m.task (runTask m) s.db 0 := by
    refine concludes_runTask ?_ ?_
    · intro p scenario htask
      have hp : taskOf s.world i = some (.processPayment p scenario) := by simp [taskOf, hm, htask]
      exact payment_of_task h hp
    · intro q scenario htask
      have hq : taskOf s.world i = some (.processRefund q scenario) := by simp [taskOf, hm, htask]
      obtain ⟨refund, hq⟩ := refund_of_task h hq
      exact ⟨refund, hq, refundsRefundable_of_reachable h q refund hq⟩
  refine ⟨_, hstart, hconcludes.bind ?_ ?_⟩
  · rintro res D n ⟨res', hres, hconcluded⟩
    obtain rfl := Except.ok.inj hres
    exact ⟨res, rfl, hconcluded⟩
  · rintro e D n ⟨res, hres, -⟩
    cases hres

theorem taskOf_reachable {s' : State P} {t : Task} (h : Machine.Reachable (payflow P) s s')
    (ht : taskOf s.world i = some t) : taskOf s'.world i = some t := by
  induction h with
  | refl => exact ht
  | step _ _ hs ih => exact Network.taskOf_step hs ih

/-- **A crash loses no task**: whatever the state in which all processes are killed, a message that
was not acknowledged can be taken again, and if the provider accepts, then whoever works on it alone
comes to an end, and to this one only: the task is concluded, and what is returned is true. -/
theorem queue_recovers (h : Reachable P s) (hm : s.world.messages[i]? = some m)
    (hacked : m.acked = false) :
    Reachable P (Machine.crash s) ∧ ∃ s₁,
      (payflow P).step (Machine.crash s) (.start (.task i)) = some s₁ ∧
      (∃ n s' out, Machine.RunsSolo (payflow P) s.procs.length ProviderAccepts 0 s₁ n s' ∧
        s'.procs[s.procs.length]? = some ⟨.task i, .done out⟩) ∧
      ∀ n s' out, Machine.RunsSolo (payflow P) s.procs.length ProviderAccepts 0 s₁ n s' →
        s'.procs[s.procs.length]? = some ⟨.task i, .done out⟩ →
        ∃ res, out = .ok (.task res) ∧ Concluded m.task res ∧ TaskTold m.task s'.db res := by
  have hcrash : Reachable P (Machine.crash s) :=
    h.trans ((Machine.crash_reachable s).imp fun _ _ _ => trivial)
  obtain ⟨prog, hstart, hsolo⟩ := concludes_start hcrash hm hacked s.procs.length
  set s₁ : State P :=
    { Machine.crash s with procs := (Machine.crash s).procs ++ [⟨.task i, .run prog⟩] } with hs₁
  have hstep : (payflow P).step (Machine.crash s) (.start (.task i)) = some s₁ := by
    simp only [Machine.step]
    rw [show (payflow P).start (Machine.crash s).world (.task i) = some prog from hstart]
  have hlength : (Machine.crash s).procs.length = s.procs.length := List.length_map ..
  have hp : s₁.procs[s.procs.length]? = some ⟨.task i, .run prog⟩ := by
    rw [← hlength]
    exact List.getElem?_concat_length
  have halone : Machine.othersLocks (payflow P) s₁ s.procs.length = [] := by
    unfold Machine.othersLocks
    rw [hs₁, List.eraseIdx_append_of_length_le (Nat.le_of_eq hlength), hlength]
    simpa using fun p hp => Machine.locks_crash hp
  refine ⟨hcrash, s₁, hstep, Machine.exists_end answerable_accepts prog hp halone, ?_⟩
  intro n s' out hrun hend
  obtain ⟨st, hp', hst⟩ := hrun.ends hp hsolo
  obtain ⟨-, rfl⟩ := Machine.Proc.mk.inj (Option.some.inj (hend.symm.trans hp'))
  obtain ⟨res, rfl, hconcluded⟩ := hst
  have hreachable : Reachable P s' :=
    (Machine.ReachableBy.step hcrash trivial hstep).trans hrun.reachable
  have htask : taskOf s'.world i = some m.task :=
    taskOf_reachable hrun.reachable (by simp [hs₁, Machine.crash, taskOf, hm])
  obtain ⟨res', hres, htold⟩ := told_of_done hreachable hend htask
  obtain rfl := Ans.task.inj hres
  exact ⟨res, rfl, hconcluded, htold⟩

end queue

/-- The worker of a refund is killed while it waits for the provider. -/
theorem queue_recovers_refund : ∃ (s : State examplePlatform) (m : Message),
    s.world.messages[1]? = some m ∧ m.acked = false ∧
    Reachable examplePlatform (Machine.crash s) ∧ ∃ s₁,
      (payflow examplePlatform).step (Machine.crash s) (.start (.task 1)) = some s₁ ∧
      (∃ n s' out,
        Machine.RunsSolo (payflow examplePlatform) s.procs.length ProviderAccepts 0 s₁ n s' ∧
        s'.procs[s.procs.length]? = some ⟨.task 1, .done out⟩) ∧
      ∀ n s' out,
        Machine.RunsSolo (payflow examplePlatform) s.procs.length ProviderAccepts 0 s₁ n s' →
        s'.procs[s.procs.length]? = some ⟨.task 1, .done out⟩ →
        ∃ res, out = .ok (.task res) ∧ Concluded m.task res ∧ TaskTold m.task s'.db res := by
  have h : ((payflow examplePlatform).run (init _) (onePayment ++
      createRefundScript 2 partialRefund 10 ++ startRefundScript 3 1 14)).map
      (fun s => (s.world.messages[1]?).map (·.acked)) = some (some false) := by
    decide +kernel
  obtain ⟨s, hs, h⟩ := Option.map_eq_some_iff.mp h
  obtain ⟨m, hm, hacked⟩ := Option.map_eq_some_iff.mp h
  exact ⟨s, m, hm, hacked, queue_recovers (.run hs) hm hacked⟩

end Payflow.Safety
