import Payflow.Lib.PrefixCode
import Payflow.Lib.Protocol
import Payflow.Model.System

/-! # What each process can do

The operations that the processes of each kind perform, `operations`. A protocol that is about a few
operations is then proved of the programs that have them, and of all others at once. -/

namespace Payflow.Spec

open Payflow.Lib Payflow.Model

/-- The operations of a task. -/
def taskOperations : Task → Call Block Ext → Prop
  | .processPayment p _, .txn (.getPayment p') => p' = p
  | .processPayment p _, .txn (.recordTransition p' _ _ _ _) => p' = p
  | .processPayment p _, .txn (.recordAwaitingWebhook p' _) => p' = p
  | .processPayment p _, .txn (.recordRetry p' _) => p' = p
  | .processPayment p scenario, .ext (.postPayment scenario' json) =>
    scenario' = scenario ∧ json.paymentId = p
  | .processRefund q _, .txn (.getRefund q') => q' = q
  | .processRefund _ _, .txn (.selectProviderPaymentId _) => True
  | .processRefund q _, .txn (.recordRefundTransition q' _ _ _ _) => q' = q
  | .processRefund q _, .txn (.recordRefundRetry q' _) => q' = q
  | .processRefund q _, .txn (.completeSuccessfulRefund q') => q' = q
  | .processRefund q _, .txn (.restorePaymentAfterFailedRefund q') => q' = q
  | .processRefund q scenario, .ext (.postRefund scenario' json) =>
    scenario' = scenario ∧ json.refundId = q
  | task, .ext (.sendRetry task' retries) => task' = task ∧ 0 < retries
  | _, _ => False

/-- The operations of a process. -/
def operations {P : Platform} (w : World) : Start P → Call Block Ext → Prop
  | .createPayment _, .ext .uuid4 => True
  | .createPayment _, .ext (.redisSet _ _) => True
  | .createPayment _, .ext (.redisRelease _ _) => True
  | .createPayment call, .ext (.delay task) => ∃ p, task = .processPayment p call.xTestScenario
  | .createPayment call, .txn (.getExistingPayment m k) =>
    m = call.merchantId ∧ k = call.idempotencyKey
  | .createPayment call, .txn (.createIdempotentPayment m k _ _ _ _) =>
    m = call.merchantId ∧ k = call.idempotencyKey
  | .createRefund call, .txn (.createRefund p m k a) =>
    p = call.paymentId ∧ m = call.merchantId ∧ k = call.idempotencyKey ∧ a = call.amountCents
  | .createRefund call, .ext (.delay task) => ∃ q, task = .processRefund q call.xTestScenario
  | .receiveProviderWebhook _, .txn (.receiveProviderWebhook _) => True
  | .task i, o => ∃ m, w.messages[i]? = some m ∧ taskOperations m.task o
  | .reconcilePayments, .txn .reconcileSelect => True
  | .reconcilePayments, .txn (.reconcileOne _ _) => True
  | .reconcilePayments, .ext (.getPayment _) => True
  | _, _ => False

/-! ### The messages -/

/-- The task of a message. -/
def taskOf (w : World) (i : ℕ) : Option Task := (w.messages[i]?).map (·.task)

/-- The action sends the message of the task. -/
def Sends : Ext → Task → ℕ → Prop
  | .delay task, task', retries => task' = task ∧ retries = 0
  | .sendRetry task n, task', retries => task' = task ∧ retries = n
  | _, _, _ => False

/-- **An external action** leaves the messages as they are or sends one. -/
theorem ext_cases {pid : ℕ} {pick : Pick} {w w' : World} {e : Ext} {r : ERes e}
    (h : ext pid pick w e = some (r, w')) :
    w' = w ∨ ∃ task retries, Sends e task retries ∧
      w' = ⟨w.messages ++ [⟨task, retries, pid, false⟩]⟩ := by
  cases e with
  | delay task | sendRetry task _ =>
    simp only [ext] at h
    split at h
    · exact Or.inr ⟨task, _, ⟨rfl, rfl⟩, (Prod.mk.inj (Option.some.inj h)).2.symm⟩
    · exact Or.inl (Prod.mk.inj (Option.some.inj h)).2.symm
    · simp at h
  | _ =>
    simp only [ext] at h
    split at h
    · exact Or.inl (Prod.mk.inj (Option.some.inj h)).2.symm
    · simp at h

theorem taskOf_ext {pid : ℕ} {pick : Pick} {w w' : World} {e : Ext} {r : ERes e} {i : ℕ} {t : Task}
    (h : ext pid pick w e = some (r, w')) (ht : taskOf w i = some t) : taskOf w' i = some t := by
  rcases ext_cases h with rfl | ⟨task, retries, -, rfl⟩
  · exact ht
  · obtain ⟨m, hm, rfl⟩ := Option.map_eq_some_iff.mp ht
    have hlt := (List.getElem?_eq_some_iff.mp hm).1
    simp [taskOf, List.getElem?_append_left hlt, hm]

theorem taskOf_finish {P : Platform} {x : Start P} {out : Except Exn Ans} {w : World} {i : ℕ} :
    taskOf (finish P x out w) i = taskOf w i := by
  cases x with
  | task j =>
    unfold finish taskOf
    rw [List.getElem?_modify]
    by_cases hj : j = i
    · subst hj
      cases w.messages[j]? <;> simp
    · cases w.messages[i]? <;> simp [hj]
  | _ => rfl

theorem request_of_sends {P : Platform} {w : World} {x : Start P} {e : Ext} {task : Task}
    (h : operations w x (.ext e)) (hs : Sends e task 0) :
    (∃ call p scenario, x = .createPayment call ∧ task = .processPayment p scenario) ∨
    ∃ call q scenario, x = .createRefund call ∧ task = .processRefund q scenario := by
  cases e with
  | delay t =>
    obtain ⟨rfl, -⟩ := hs
    cases x with
    | createPayment call =>
      obtain ⟨p, rfl⟩ := h
      exact Or.inl ⟨call, p, _, rfl, rfl⟩
    | createRefund call =>
      obtain ⟨q, rfl⟩ := h
      exact Or.inr ⟨call, q, _, rfl, rfl⟩
    | task i =>
      obtain ⟨m, -, hop⟩ := h
      cases ht : m.task <;> simp [ht, taskOperations] at hop
    | _ => exact h.elim
  | sendRetry t retries =>
    obtain ⟨-, rfl⟩ := hs
    cases x with
    | task i =>
      obtain ⟨m, -, hop⟩ := h
      cases ht : m.task <;> simp [ht, taskOperations] at hop
    | _ => exact h.elim
  | _ => exact hs.elim

/-- The senders of the messages that are no retries and whose task satisfies `f`. -/
def firstSenders (f : Task → Bool) (w : World) : List ℕ :=
  (w.messages.filter fun m => m.retries = 0 ∧ f m.task = true).map (·.sender)

theorem firstSenders_finish {P : Platform} (x : Start P) (out : Except Exn Ans) {w : World}
    {f : Task → Bool} : firstSenders f (finish P x out w) = firstSenders f w := by
  cases x with
  | task i =>
    unfold finish firstSenders
    have hsame : ∀ (l : List Message) (j : ℕ),
        ((l.modify j fun m => { m with acked := true }).filter fun m =>
          m.retries = 0 ∧ f m.task = true).map (·.sender) =
        (l.filter fun m => m.retries = 0 ∧ f m.task = true).map (·.sender) := by
      intro l
      induction l with
      | nil => intro j; cases j <;> rfl
      | cons m l ih =>
        intro j
        cases j with
        | zero =>
          rw [List.modify_zero_cons, List.filter_cons, List.filter_cons]
          split_ifs <;> rfl
        | succ j =>
          rw [List.modify_succ_cons, List.filter_cons, List.filter_cons]
          split_ifs
          · rw [List.map_cons, List.map_cons, ih j]
          · exact ih j
    exact hsame _ _
  | _ => rfl

theorem firstSenders_append {f : Task → Bool} {w : World} {task : Task} {retries pid : ℕ} :
    firstSenders f ⟨w.messages ++ [⟨task, retries, pid, false⟩]⟩ =
      firstSenders f w ++ if retries = 0 ∧ f task = true then [pid] else [] := by
  unfold firstSenders
  rw [List.filter_append, List.map_append]
  congr 1
  split_ifs with h <;> simp [h]

theorem ext_delay {pid : ℕ} {pick : Pick} {w w' : World} {task : Task} {sent : Bool}
    (h : ext pid pick w (.delay task) = some (sent, w')) :
    w' = if sent then ⟨w.messages ++ [⟨task, 0, pid, false⟩]⟩ else w := by
  simp only [ext] at h
  split at h
  · obtain ⟨rfl, rfl⟩ := Prod.mk.inj (Option.some.inj h)
    rfl
  · obtain ⟨rfl, rfl⟩ := Prod.mk.inj (Option.some.inj h)
    rfl
  · simp at h

section programs

variable {α : Type} {S : Call Block Ext → Prop}

/-- The operations of the program are in `S`. -/
abbrev UsesOnly (S : Call Block Ext → Prop) {α : Type} (p : Proc α) : Prop := p.Uses S

theorem uses_txn {b : Block} {k : BRes b → Proc α} (hb : S (.txn b))
    (hk : ∀ r, UsesOnly S (k r)) : UsesOnly S ((txn b).bind k) :=
  .op hb fun _ => .ofExcept hk

theorem uses_last {b : Block} (hb : S (.txn b)) : UsesOnly S (txn b) := by
  refine .op hb fun r => ?_
  cases r <;> trivial

theorem uses_redisSet {key token : String} {k : Option Bool → Proc α}
    (hs : S (.ext (.redisSet key token))) (hk : ∀ r, UsesOnly S (k r)) :
    UsesOnly S ((redisSet key token).bind k) :=
  .op hs hk

theorem uses_delay {task : Task} {k : Unit → Proc α} (hd : S (.ext (.delay task)))
    (hk : UsesOnly S (k ())) : UsesOnly S ((delay task).bind k) := by
  refine .op hd fun sent => ?_
  cases sent with
  | false => trivial
  | true => exact hk

theorem uses_retry {task : Task} {retries : ℕ} (hs : S (.ext (.sendRetry task retries))) :
    UsesOnly S (retry (α := α) task retries) :=
  .op hs fun _ => trivial

section response

variable {transient text : String} {unavailable : ℕ → String} {rejected : ℕ → String → String}
  {statusCode : ℕ} {json : Except Exn Json}

theorem providerResponse_unavailable (h : statusCode ≥ 500) :
    providerResponse transient unavailable rejected (.response statusCode text json) =
      .raise (.transientProviderError (unavailable statusCode)) :=
  if_pos h

theorem providerResponse_rejected (h₅ : ¬ statusCode ≥ 500) (h₄ : statusCode ≥ 400) :
    providerResponse transient unavailable rejected (.response statusCode text json) =
      .raise (.permanentProviderError (rejected statusCode text)) :=
  (if_neg h₅).trans (if_pos h₄)

theorem providerResponse_ok (h₄ : ¬ statusCode ≥ 400) :
    providerResponse transient unavailable rejected (.response statusCode text json) =
      .ofExcept json :=
  (if_neg (by omega)).trans (if_neg h₄)

end response

theorem uses_providerResponse {transient : String} {unavailable : ℕ → String}
    {rejected : ℕ → String → String} {out : HttpOutcome} :
    UsesOnly S (providerResponse transient unavailable rejected out) := by
  cases out with
  | response statusCode text json =>
    refine .ite trivial (.ite trivial ?_)
    cases json <;> trivial
  | _ => trivial

/-! ### The requests -/

theorem uses_acquirePaymentLock {m k : String} {body : Bool → Proc α} (hid : S (.ext .uuid4))
    (hset : ∀ key token, S (.ext (.redisSet key token)))
    (hrelease : ∀ key token, S (.ext (.redisRelease key token)))
    (hbody : ∀ acquired, UsesOnly S (body acquired)) :
    UsesOnly S (acquirePaymentLock m k body) := by
  refine .op hid fun token => uses_redisSet (hset _ _) fun reply => ?_
  refine .bind (.handle (.bind (hbody _) ?_) ?_) fun r => ?_
  · exact fun _ => trivial
  · exact fun _ => trivial
  · refine .bind (.ite (.op (hrelease _ _) fun _ => trivial) trivial) fun _ => ?_
    cases r <;> trivial

theorem uses_createPayment {P : Platform} {w : World} (call : CreatePayment P) :
    UsesOnly (operations w (.createPayment call)) (createPayment P call) := by
  have hpay : UsesOnly (operations w (.createPayment call)) (createIdempotentPayment P
      call.merchantId call.idempotencyKey call.request.userId call.request.amountCents
      call.request.currency) := by
    unfold createIdempotentPayment
    refine uses_acquirePaymentLock (S := operations w (.createPayment call)) trivial
      (fun _ _ => trivial) (fun _ _ => trivial) fun acquired => ?_
    refine .ite ?_ (uses_last ⟨rfl, rfl⟩)
    refine uses_txn ⟨rfl, rfl⟩ fun existing => ?_
    cases existing with
    | none => trivial
    | some existing => exact .ite trivial trivial
  exact .bind hpay fun _ => .ite (uses_delay ⟨_, rfl⟩ trivial) trivial

theorem uses_createRefund {P : Platform} {w : World} (call : CreateRefund) :
    UsesOnly (operations (P := P) w (.createRefund call)) (createRefund call) :=
  uses_txn ⟨rfl, rfl, rfl, rfl⟩ fun _ =>
    .ite trivial (uses_delay ⟨_, rfl⟩ trivial)

theorem uses_receiveProviderWebhook {P : Platform} {w : World} (call : ReceiveWebhook) :
    UsesOnly (operations (P := P) w (.receiveProviderWebhook call))
    (receiveProviderWebhook P call) := by
  refine .ofExcept fun _ => ?_
  refine .ite trivial ?_
  cases P.jsonLoads call.rawBody with
  | error e => cases e <;> trivial
  | ok payload =>
    refine .ofExcept fun _ => ?_
    refine .ite trivial (.ofExcept fun _ => .ofExcept fun _ => ?_)
    exact .ite trivial (uses_last trivial)

/-! ### The tasks -/

theorem uses_processPayment (retries : ℕ) (p : Uuid) (scenario : Scenario) :
    UsesOnly (taskOperations (.processPayment p scenario)) (processPayment retries p scenario) := by
  refine uses_txn rfl fun payment => ?_
  cases payment with
  | none => trivial
  | some payment =>
    have htry : UsesOnly (taskOperations (.processPayment p scenario))
        (processPaymentTry p payment scenario) := by
      refine .bind (.op ⟨rfl, rfl⟩ fun out => uses_providerResponse) fun result => ?_
      refine .ofExcept fun status => .ofExcept fun provider => ?_
      exact .ite (uses_txn rfl fun _ => trivial)
        (.ite (uses_txn rfl fun _ => trivial) (uses_txn rfl fun _ => trivial))
    have hexcept : ∀ e, UsesOnly (taskOperations (.processPayment p scenario))
        (processPaymentExcept retries p scenario e) := by
      intro e
      cases e with
      | transientProviderError message =>
        exact uses_txn rfl fun _ => .ite (uses_txn rfl fun _ => trivial)
          (uses_retry ⟨rfl, Nat.succ_pos _⟩)
      | permanentProviderError message => exact uses_txn rfl fun _ => trivial
      | _ => trivial
    exact .ite trivial (.ite trivial (.ite (uses_txn rfl fun _ => .handle htry hexcept)
      (.handle htry hexcept)))

theorem uses_processRefund (retries : ℕ) (q : Uuid) (scenario : RefundScenario) :
    UsesOnly (taskOperations (.processRefund q scenario)) (processRefund retries q scenario) := by
  refine uses_txn rfl fun refund => ?_
  cases refund with
  | none => trivial
  | some refund =>
    have hlast : ∀ {β : Type} {type new provider failure} {b : Block} {a : β},
        taskOperations (.processRefund q scenario) (.txn b) →
        UsesOnly (taskOperations (.processRefund q scenario))
          ((txn (.recordRefundTransition q type new provider failure)).bind fun _ =>
            (txn b).bind fun _ => .pure a) :=
      fun hb => uses_txn rfl fun _ => uses_txn hb fun _ => trivial
    have htry : UsesOnly (taskOperations (.processRefund q scenario))
        (processRefundTry q refund scenario) := by
      refine uses_txn trivial fun payment => ?_
      cases payment.bind (·.providerPaymentId) with
      | none => trivial
      | some providerPaymentId =>
        refine .bind (.op ⟨rfl, rfl⟩ fun out => uses_providerResponse) fun result => ?_
        exact .ofExcept fun status => .ofExcept fun provider => .ite (hlast rfl) (hlast rfl)
    have hexcept : ∀ e, UsesOnly (taskOperations (.processRefund q scenario))
        (processRefundExcept retries q scenario e) := by
      intro e
      cases e with
      | transientProviderError message =>
        exact uses_txn rfl fun _ => .ite (hlast rfl) (uses_retry ⟨rfl, Nat.succ_pos _⟩)
      | permanentProviderError message => exact hlast rfl
      | _ => trivial
    exact .ite trivial (.ite trivial (.ite (uses_txn rfl fun _ => .handle htry hexcept)
      (.handle htry hexcept)))

theorem uses_reconcileLoop {P : Platform} {w : World} :
    ∀ (payments : List Payment) (counts : Reconciled),
      UsesOnly (operations (P := P) w .reconcilePayments) (reconcileLoop payments counts)
  | [], _ => trivial
  | payment :: payments, counts => by
    have htry : UsesOnly (operations (P := P) w .reconcilePayments)
        (tryGetProviderPayment (payment.providerPaymentId.getD "None")) := by
      refine .handle (.bind (.op trivial fun out => uses_providerResponse) fun _ =>
        trivial) fun e => ?_
      cases e <;> trivial
    refine .bind htry fun answer => ?_
    cases answer with
    | none => exact uses_reconcileLoop payments _
    | some providerPayment =>
      refine .ofExcept fun status => .ofExcept fun final => ?_
      exact .ite (uses_reconcileLoop payments _)
        (uses_txn trivial fun corrected => uses_reconcileLoop payments _)

/-- **The footprint of the processes.** -/
theorem uses_start {P : Platform} {w : World} {x : Start P} {p : Proc Ans}
    (h : start P w x = some p) : UsesOnly (operations w x) p := by
  cases x with
  | createPayment call =>
    obtain rfl := Option.some.inj h
    exact .bind (uses_createPayment call) fun _ => trivial
  | createRefund call =>
    obtain rfl := Option.some.inj h
    exact .bind (uses_createRefund call) fun _ => trivial
  | receiveProviderWebhook call =>
    obtain rfl := Option.some.inj h
    exact .bind (uses_receiveProviderWebhook call) fun _ => trivial
  | reconcilePayments =>
    obtain rfl := Option.some.inj h
    exact .bind (uses_txn trivial fun payments => uses_reconcileLoop payments _) fun _ => trivial
  | task i =>
    simp only [start] at h
    split at h
    · rename_i m hm
      split_ifs at h
      obtain rfl := Option.some.inj h
      have hops : operations w (.task (P := P) i) = taskOperations m.task := by
        funext o
        simp [operations, hm]
      rw [hops]
      refine .bind ?_ fun _ => trivial
      unfold runTask
      cases m.task with
      | processPayment p scenario => exact uses_processPayment m.retries p scenario
      | processRefund q scenario => exact uses_processRefund m.retries q scenario
    · simp at h

end programs

/-! ### The messages of the client's errors -/

theorem hasNul_eq_false {s : String} : hasNul s = false ↔ '\x00' ∉ s.toList := by
  simp [hasNul]

theorem hasNul_append {s t : String} (hs : hasNul s = false) (ht : hasNul t = false) :
    hasNul (s ++ t) = false := by
  rw [hasNul_eq_false] at *
  simp [hs, ht]

theorem hasNul_firstTwoHundred {s : String} (h : hasNul s = false) :
    hasNul (firstTwoHundred s) = false := by
  rw [hasNul_eq_false] at *
  unfold firstTwoHundred
  rw [String.toList_ofList]
  exact fun hmem => h (List.mem_of_mem_take hmem)

theorem hasNul_toString (n : ℕ) : hasNul (toString n) = false := by
  rw [hasNul_eq_false]
  show '\x00' ∉ (Nat.repr n).toList
  rw [Nat.toList_repr]
  exact not_mem_digits (by decide) n

end Payflow.Spec
