import Payflow.Lib.LockOrder
import Payflow.Spec.Publishing

/-! # The transactions cannot deadlock

A transaction locks at most one payment and at most one refund, and takes its locks in one
order: the idempotency key of a payment or the id of a webhook event, the payment, the
idempotency key of a refund, the refund. The rows that a foreign key needs are those that the
transaction has locked or inserted before. The publisher locks rows of `outbox_events`, and
updates only rows it has locked. -/

namespace Payflow.Safety

open Payflow.Lib Payflow.Model Payflow.Spec

variable {P : Platform}

/-- The order in which the locks are taken. The id of a new row is new, and nothing waits for it. -/
def lockRank : Lock → ℕ
  | .newId _ => 0
  | .paymentKey _ _ | .webhookKey _ => 1
  | .payment _ => 2
  | .refundKey _ _ => 3
  | .refund _ => 4

/-- The rest of a transaction is orderly. -/
abbrev OrderlyTxn {α : Type} (p : Tx α) (ls : List Lock) : Prop := store.Orderly lockRank p ls

/-! ### The statements -/

section statements

variable {α : Type} {ls : List Lock} {v : Env Pick} {D : Db}

theorem rank_drawn {l : Lock} (h : l ∈ (drawn v D).toList.map Lock.newId) : lockRank l = 0 := by
  obtain ⟨id, -, rfl⟩ := List.mem_map.mp h
  rfl

theorem orderly_free {o : Stmt} {k : SRes o → Tx α}
    (hlocks : ∀ v D, ∀ l ∈ stmtLocks v D o, lockRank l = 0) (hk : ∀ r, OrderlyTxn (k r) ls) :
    OrderlyTxn (.op o k) ls :=
  .stay (fun v D l hl hpos => absurd (hlocks v D l hl) (Nat.ne_of_gt hpos)) fun _ _ r _ _ => hk r

theorem orderly_read {o : Stmt} {k : SRes o → Tx α} (hlocks : ∀ v D, stmtLocks v D o = [])
    (hk : ∀ r, OrderlyTxn (k r) ls) : OrderlyTxn (.op o k) ls := by
  refine orderly_free (fun v D l hl => ?_) hk
  rw [hlocks] at hl
  cases hl

theorem orderly_uuid4 {k : Uuid → Tx α} (hk : ∀ id, OrderlyTxn (k id) ls) :
    OrderlyTxn (uuid4.bind k) ls :=
  orderly_free (fun _ _ _ => rank_drawn) hk

theorem orderly_insertOutboxEvent {aggregateId : Uuid} {eventType : EventType} {payload : Json}
    {k : Unit → Tx α} (hk : OrderlyTxn (k ()) ls) :
    OrderlyTxn ((insertOutboxEvent aggregateId eventType payload).bind k) ls :=
  orderly_free (fun _ _ _ => rank_drawn) fun _ => hk

theorem orderly_outboxLast (aggregateId : Uuid) (eventType : EventType) (payload : Json) :
    OrderlyTxn (insertOutboxEvent aggregateId eventType payload) ls :=
  orderly_free (fun _ _ _ => rank_drawn) fun _ => trivial

theorem payment_locked {id : Uuid} {f : Payment → Bool} {l : Lock}
    (h : l ∈ ((D.payment? id).filter f).toList.map fun p => Lock.payment p.id) :
    l = .payment id := by
  obtain ⟨row, hrow, rfl⟩ := List.mem_map.mp h
  obtain ⟨hrow, -⟩ := Option.filter_eq_some_iff.mp (Option.mem_toList.mp hrow)
  rw [payment_id hrow]

theorem refund_locked {id : Uuid} {f : Refund → Bool} {l : Lock}
    (h : l ∈ ((D.refund? id).filter f).toList.map fun r => Lock.refund r.id) : l = .refund id := by
  obtain ⟨row, hrow, rfl⟩ := List.mem_map.mp h
  obtain ⟨hrow, -⟩ := Option.filter_eq_some_iff.mp (Option.mem_toList.mp hrow)
  rw [refund_id hrow]

theorem orderly_updatePayment {id : Uuid} {guard : PaymentStatus → Bool}
    {set : ℕ → PaymentCols → PaymentCols} {k : Unit → Tx α} (hls : Lock.payment id ∈ ls)
    (hk : OrderlyTxn (k ()) ls) : OrderlyTxn (.op (.updatePayment id guard set) k) ls :=
  .stay (fun _ _ _ hl _ => payment_locked hl ▸ hls) fun _ _ _ _ _ => hk

/-- The row of the foreign key is one that the transaction has locked or inserted. -/
theorem orderly_insertPaymentEvent {id : Uuid} {eventType : EventType}
    {prev : Option PaymentStatus} {new : PaymentStatus} {metadata : Json} {k : Unit → Tx α}
    (hls : Lock.payment id ∈ ls) (hk : OrderlyTxn (k ()) ls) :
    OrderlyTxn ((insertPaymentEvent id eventType prev new metadata).bind k) ls := by
  refine .stay (fun v D l hl hpos => ?_) fun _ _ _ _ _ => hk
  rcases List.mem_cons.mp hl with rfl | hl
  · exact hls
  · exact absurd (rank_drawn hl) (Nat.ne_of_gt hpos)

theorem orderly_insertRefundEvent {id : Uuid} {eventType : EventType}
    {prev : Option RefundStatus} {new : RefundStatus} {metadata : Json} {k : Unit → Tx α}
    (hls : Lock.refund id ∈ ls) (hk : OrderlyTxn (k ()) ls) :
    OrderlyTxn ((insertRefundEvent id eventType prev new metadata).bind k) ls := by
  refine .stay (fun v D l hl hpos => ?_) fun _ _ _ _ _ => hk
  rcases List.mem_cons.mp hl with rfl | hl
  · exact hls
  · exact absurd (rank_drawn hl) (Nat.ne_of_gt hpos)

/-- `SELECT … FOR UPDATE` of a payment, while only locks that come before it are held. -/
theorem orderly_selectPaymentForUpdate {id : Uuid} {k : Option Payment → Tx α}
    (hls : ∀ l ∈ ls, lockRank l < 2) (hnone : OrderlyTxn (k none) ls)
    (hsome : ∀ row : Payment, row.id = id → OrderlyTxn (k (some row)) (ls ++ [.payment id])) :
    OrderlyTxn ((selectPaymentForUpdate id).bind k) ls := by
  intro v D
  have hlocks : store.locks v D (.selectPaymentForUpdate id) =
      (D.payment? id).toList.map fun p => Lock.payment p.id := rfl
  refine ⟨fun l hl _ _ l' hl' => ?_, fun r ws hx => ?_⟩
  · rw [hlocks] at hl
    obtain ⟨row, -, rfl⟩ := List.mem_map.mp hl
    exact hls l' hl'
  · have hx : some (D.payment? id, []) = some (r, ws) := hx
    obtain ⟨rfl, -⟩ := Prod.mk.inj (Option.some.inj hx)
    rw [hlocks]
    cases hrow : D.payment? id with
    | none =>
      show OrderlyTxn (k none) (ls ++ [])
      rwa [List.append_nil]
    | some row =>
      have hid := payment_id hrow
      show OrderlyTxn (k (some row)) (ls ++ [.payment row.id])
      rw [hid]
      exact hsome row hid

end statements

/-! ### The transactions -/

section transactions

variable {α : Type} {ls : List Lock}

theorem orderly_change {p : Uuid} {guard : PaymentStatus → Bool}
    {set : ℕ → PaymentCols → PaymentCols} {type : EventType} {prev : Option PaymentStatus}
    {new : PaymentStatus} {metadata : Json} {q : Tx α} (hls : Lock.payment p ∈ ls)
    (hq : OrderlyTxn q ls) :
    OrderlyTxn (.op (.updatePayment p guard set) fun _ =>
      (insertPaymentEvent p type prev new metadata).bind fun _ => q) ls :=
  orderly_updatePayment hls (orderly_insertPaymentEvent hls hq)

theorem orderly_createIdempotentPayment (m k hash user : String) (amount : ℕ) (currency : String) :
    OrderlyTxn (createIdempotentPaymentTxn m k hash user amount currency) [] := by
  intro v D
  refine ⟨fun l hl hpos => absurd (rank_drawn hl) (Nat.ne_of_gt hpos), fun id ws _ v' D' => ?_⟩
  have hheld : ∀ l ∈ [] ++ store.locks v D .uuid4, lockRank l = 0 := fun l hl => rank_drawn hl
  have hlocks : store.locks v' D' (.insertPayment id m k hash user amount currency) =
    if (D'.paymentByKey? m k).isSome then [] else [.paymentKey m k, .newId id, .payment id] := rfl
  refine ⟨fun l hl hpos hnew l' hl' => ?_, fun r ws' hx => ?_⟩
  · rw [hheld l' hl']
    exact hpos
  · cases r with
    | error e => trivial
    | ok row? =>
      cases row? with
      | none =>
        refine orderly_read (fun _ _ => rfl) fun existing => ?_
        cases existing with
        | none => trivial
        | some existing => exact .ite trivial trivial
      | some row =>
        have hx : some (execInsertPayment v'.now D' id m k hash user amount currency) =
          some (.ok (some row), ws') := hx
        refine orderly_insertPaymentEvent ?_ trivial
        rcases execInsertPayment_cases (Option.some.inj hx) with ⟨e, he, -⟩ | ⟨-, he, -⟩ |
          ⟨hfree, -⟩
        · cases he
        · cases he
        · rw [hlocks, hfree]
          simp

theorem orderly_recordTransition (p : Uuid) (type : EventType) (new : PaymentStatus)
    (provider : Json) (failure : Option String) :
    OrderlyTxn (recordTransition P p type new provider failure) [] := by
  refine orderly_selectPaymentForUpdate (by simp) trivial fun row hid => ?_
  refine .ite (.ite trivial trivial) ?_
  exact .ofExcept fun _ => .ofExcept fun _ => orderly_change (by simp) (orderly_outboxLast _ _ _)

theorem orderly_recordAwaitingWebhook (p : Uuid) (provider : Json) :
    OrderlyTxn (recordAwaitingWebhook P p provider) [] := by
  refine orderly_selectPaymentForUpdate (by simp) trivial fun row hid => ?_
  refine .ite trivial (.ofExcept fun _ => ?_)
  exact orderly_updatePayment (by simp) (orderly_insertPaymentEvent (by simp) trivial)

theorem orderly_recordRetry (p : Uuid) (reason : String) :
    OrderlyTxn (recordRetry P p reason) [] := by
  refine orderly_selectPaymentForUpdate (by simp) trivial fun row hid => ?_
  refine .ite trivial (.ofExcept fun _ => orderly_updatePayment (by simp) ?_)
  refine .stay (fun v D l hl hpos => ?_) fun _ _ _ _ _ => trivial
  rcases List.mem_cons.mp hl with rfl | hl
  · simp
  · exact absurd (rank_drawn hl) (Nat.ne_of_gt hpos)

theorem orderly_reconcileOne (p : Uuid) (status : PaymentStatus) :
    OrderlyTxn (reconcileOneTxn p status) [] := by
  refine orderly_selectPaymentForUpdate (by simp) trivial fun row hid => ?_
  exact .ite trivial (orderly_change (by simp) (orderly_insertOutboxEvent trivial))

theorem orderly_receiveProviderWebhook (payload : Json) :
    OrderlyTxn (receiveProviderWebhookTxn P payload) [] := by
  refine .ofExcept fun eventId => .ofExcept fun providerEventId => .ofExcept fun type =>
    .ofExcept fun eventType => .ite trivial (.ofExcept fun e => .ofExcept fun t => ?_)
  intro v D
  refine ⟨by simp, fun r ws hx => ?_⟩
  have hheld : ∀ l ∈ [] ++ store.locks v D (.insertWebhookEvent e t payload), lockRank l < 2 := by
    intro l hl
    have hl : l ∈ if D.webhookEvents.any fun w => w.providerEventId = e then []
      else .webhookKey e :: (drawn v D).toList.map .newId := hl
    split_ifs at hl
    · cases hl
    · rcases List.mem_cons.mp hl with rfl | hl
      · exact (by decide : 1 < 2)
      · rw [rank_drawn hl]
        exact (by decide : 0 < 2)
  cases r with
  | none => trivial
  | some id =>
    refine .ofExcept fun field => .ofExcept fun p => ?_
    cases p with
    | none => trivial
    | some p =>
      refine orderly_selectPaymentForUpdate hheld trivial fun row hid => ?_
      refine .ofExcept fun status => .ite trivial (.ite trivial ?_)
      exact .ofExcept fun _ => .ofExcept fun _ =>
        orderly_change (by simp) (orderly_outboxLast _ _ _)

/-- The writes of a new refund of a payment that the transaction has locked. -/
theorem orderly_newRefund (p q : Uuid) (m k : String) (amount : ℕ) (currency : String)
    {set : ℕ → PaymentCols → PaymentCols} {metadata metadata' payload : Json}
    {f : Refund → Refund × Bool} :
    OrderlyTxn ((insertRefund q p m k amount currency).bind fun refund =>
      (updatePayment p set).bind fun _ =>
        (insertRefundEvent q .refundCreated none .created metadata).bind fun _ =>
          (insertPaymentEvent p .paymentRefundPending (some .succeeded) .refundPending
            metadata').bind fun _ =>
              (insertOutboxEvent q .refundCreated payload).bind fun _ => .pure (f refund))
      [.payment p] := by
  intro v D
  have hlocks : store.locks v D (.insertRefund q p m k amount currency) =
    if (D.refundByKey? m k).isSome then []
    else [.refundKey m k, .newId q, .refund q, .payment p] := rfl
  refine ⟨fun l hl hpos hnew l' hl' => ?_, fun r ws hx => ?_⟩
  · obtain rfl := List.mem_singleton.mp hl'
    rw [hlocks] at hl
    split_ifs at hl
    · cases hl
    · simp only [List.mem_cons, List.not_mem_nil, or_false] at hl
      rcases hl with rfl | rfl | rfl | rfl
      · exact (by decide : 2 < 3)
      · exact absurd hpos (Nat.lt_irrefl 0)
      · exact (by decide : 2 < 4)
      · exact absurd (List.mem_singleton.mpr rfl) hnew
  · cases r with
    | error e => trivial
    | ok refund =>
      have hx : some (execInsertRefund v.now D q p m k amount currency) =
        some (.ok refund, ws) := hx
      have hfree : D.refundByKey? m k = none := by
        rcases execInsertRefund_cases (Option.some.inj hx) with ⟨e, he, -⟩ | ⟨hfree, -⟩
        · cases he
        · exact hfree
      have hrefund : Lock.refund q ∈ [Lock.payment p] ++
          store.locks v D (.insertRefund q p m k amount currency) := by
        rw [hlocks, hfree]
        simp
      refine orderly_updatePayment (by simp) (orderly_insertRefundEvent hrefund ?_)
      exact orderly_insertPaymentEvent (by simp) (orderly_insertOutboxEvent trivial)

theorem orderly_createRefund (p : Uuid) (m k : String) (amount : ℕ) :
    OrderlyTxn (createRefundTxn p m k amount) [] := by
  refine orderly_read (fun _ _ => rfl) fun existing => ?_
  cases existing with
  | some refund => trivial
  | none =>
    intro v D
    have hlocks : store.locks v D (.selectMerchantPaymentForUpdate p m) =
      ((D.payment? p).filter fun row => row.merchantId = m).toList.map fun row =>
        Lock.payment row.id := rfl
    refine ⟨by simp, fun r ws hx => ?_⟩
    have hx : some ((D.payment? p).filter fun row => row.merchantId = m, []) = some (r, ws) := hx
    obtain ⟨rfl, -⟩ := Prod.mk.inj (Option.some.inj hx)
    rw [hlocks, List.nil_append]
    cases hrow : (D.payment? p).filter fun row => row.merchantId = m with
    | none => trivial
    | some row =>
      have hid := payment_id (Option.filter_eq_some_iff.mp hrow).1
      show OrderlyTxn _ [.payment row.id]
      rw [hid]
      refine .ite trivial (.ite trivial ?_)
      refine orderly_read (fun _ _ => rfl) fun total => .ite trivial ?_
      refine orderly_uuid4 fun q => ?_
      exact orderly_newRefund p q m k amount row.currency

theorem orderly_recordRefundTransition (q : Uuid) (type : EventType) (new : RefundStatus)
    (provider : Json) (failure : Option String) :
    OrderlyTxn (recordRefundTransition P q type new provider failure) [] := by
  intro v D
  have hlocks : store.locks v D (.selectRefundForUpdate q) =
    (D.refund? q).toList.map fun r => Lock.refund r.id := rfl
  refine ⟨by simp, fun r ws hx => ?_⟩
  have hx : some (D.refund? q, []) = some (r, ws) := hx
  obtain ⟨rfl, -⟩ := Prod.mk.inj (Option.some.inj hx)
  rw [hlocks, List.nil_append]
  cases hrow : D.refund? q with
  | none => trivial
  | some refund =>
    show OrderlyTxn _ [.refund refund.id]
    rw [refund_id hrow]
    refine .ite (.ite trivial trivial) ?_
    refine .ofExcept fun _ => .ofExcept fun _ => .ofExcept fun _ => ?_
    refine .stay (fun _ _ _ hl _ => refund_locked hl ▸ by simp) fun _ _ _ _ _ => ?_
    exact orderly_insertRefundEvent (by simp) (orderly_outboxLast _ _ _)

theorem orderly_recordRefundRetry (q : Uuid) (reason : String) :
    OrderlyTxn (recordRefundRetry P q reason) [] := by
  refine .ofExcept fun failure => ?_
  intro v D
  refine ⟨by simp, fun r ws hx => ?_⟩
  cases hrow : (D.refund? q).filter fun r => (fun st => decide (st = .processing)) r.status with
  | none =>
    simp only [store, stmtExec, hrow, Option.some.injEq] at hx
    obtain ⟨rfl, -⟩ := Prod.mk.inj hx
    trivial
  | some row =>
    simp only [store, stmtExec, hrow, Option.some.injEq] at hx
    obtain ⟨rfl, -⟩ := Prod.mk.inj hx
    refine orderly_insertRefundEvent ?_ trivial
    simp only [store, stmtLocks, hrow, Option.toList_some, List.map_cons, List.map_nil,
      List.nil_append, List.mem_singleton]
    rw [refund_id (Option.filter_eq_some_iff.mp hrow).1]

theorem orderly_completeSuccessfulRefund (q : Uuid) :
    OrderlyTxn (completeSuccessfulRefund q) [] := by
  refine orderly_read (fun _ _ => rfl) fun refund => ?_
  cases refund with
  | none => trivial
  | some refund =>
    refine orderly_selectPaymentForUpdate (by simp) trivial fun row hid => ?_
    refine orderly_read (fun _ _ => rfl) fun total => ?_
    exact orderly_change (by simp [hid]) (orderly_outboxLast _ _ _)

theorem orderly_restorePaymentAfterFailedRefund (q : Uuid) :
    OrderlyTxn (restorePaymentAfterFailedRefund q) [] := by
  refine orderly_read (fun _ _ => rfl) fun refund => ?_
  cases refund with
  | none => trivial
  | some refund => exact fun v D => ⟨by simp, fun _ _ _ => trivial⟩

/-- **All transactions are orderly.** -/
theorem orderly_body (b : Block) : OrderlyTxn (body P b) [] := by
  cases b with
  | getExistingPayment m k => exact orderly_read (fun _ _ => rfl) fun _ => trivial
  | createIdempotentPayment m k h u a c => exact orderly_createIdempotentPayment m k h u a c
  | getPayment p => exact orderly_read (fun _ _ => rfl) fun _ => trivial
  | recordTransition p type new provider failure =>
    exact orderly_recordTransition p type new provider failure
  | recordAwaitingWebhook p provider => exact orderly_recordAwaitingWebhook p provider
  | recordRetry p reason => exact orderly_recordRetry p reason
  | receiveProviderWebhook payload => exact orderly_receiveProviderWebhook payload
  | reconcileSelect => exact orderly_read (fun _ _ => rfl) fun _ => trivial
  | reconcileOne p status => exact orderly_reconcileOne p status
  | createRefund p m k a => exact orderly_createRefund p m k a
  | getRefund q => exact orderly_read (fun _ _ => rfl) fun _ => trivial
  | recordRefundTransition q type new provider failure =>
    exact orderly_recordRefundTransition q type new provider failure
  | recordRefundRetry q reason => exact orderly_recordRefundRetry q reason
  | completeSuccessfulRefund q => exact orderly_completeSuccessfulRefund q
  | restorePaymentAfterFailedRefund q => exact orderly_restorePaymentAfterFailedRefund q
  | selectProviderPaymentId p => exact orderly_read (fun _ _ => rfl) fun _ => trivial

end transactions

/-! ### Who waits for whom -/

/-- A transaction of a process, or an invocation of the publisher. -/
inductive Party where
  | process (pid : ℕ)
  | publisher (i : ℕ)

/-- What a transaction can wait for: the row locks and the keys, and the rows of `outbox_events`. -/
inductive Resource where
  | lock (l : Lock)
  | outboxRow (id : Uuid)

/-- What the transactions hold. -/
def Holds (s : OutboxState P) : Party → Resource → Prop
  | .process pid, .lock l => l ∈ Machine.heldLocks (payflow P) s.app pid
  | .process pid, .outboxRow id => ∃ x b t k row, s.app.procs[pid]? = some ⟨x, .inTxn b t k⟩ ∧
      Write.insertOutboxEvent row ∈ t.writes ∧ row.id = id
  | .publisher i, .outboxRow id => ∃ p, s.publishers[i]? = some p ∧ id ∈ p.locks
  | .publisher _, .lock _ => False

/-- What their next statements need. `SELECT … FOR UPDATE SKIP LOCKED` needs nothing. -/
def Needs (s : OutboxState P) : Party → Resource → Prop
  | .process pid, .lock l => Machine.Needs (payflow P) s.app pid l ∧ ∀ id, l ≠ .newId id
  | .publisher i, .outboxRow id => ∃ p event added, s.publishers[i]? = some p ∧
      p.phase = .updating event added ∧ event.id = id
  | _, _ => False

/-- The first transaction waits for the second one to end. -/
def WaitsFor (s : OutboxState P) (a b : Party) : Prop :=
  ∃ r, Needs s a r ∧ ¬ Holds s a r ∧ Holds s b r

/-- The highest rank of the locks that a transaction holds. -/
def level (s : OutboxState P) : Party → ℕ
  | .process pid => Machine.level lockRank s.app pid
  | .publisher _ => 0

/-- An invocation of the publisher updates rows that it has locked. -/
theorem publisher_holds {s : OutboxState P} (h : OutboxOk s) {i : ℕ} {r : Resource}
    (hn : Needs s (.publisher i) r) : Holds s (.publisher i) r := by
  cases r with
  | lock l => exact hn.elim
  | outboxRow id =>
    obtain ⟨p, event, added, hp, hphase, rfl⟩ := hn
    refine ⟨p, hp, (h.publishers i p hp).locked event.id ?_⟩
    simp [held, hphase]

theorem rank_pos {l : Lock} (h : ∀ id, l ≠ .newId id) : 0 < lockRank l := by
  cases l with
  | newId id => exact absurd rfl (h id)
  | _ => simp [lockRank]

theorem level_lt_of_waitsFor {s : OutboxState P} (h : OutboxOk s) {a b : Party}
    (hw : WaitsFor s a b) : level s a < level s b := by
  obtain ⟨r, hneeds, hnot, hholds⟩ := hw
  cases a with
  | publisher i => exact absurd (publisher_holds h hneeds) hnot
  | process pid =>
    cases r with
    | outboxRow id => exact hneeds.elim
    | lock l =>
      cases b with
      | publisher j => exact hholds.elim
      | process pid' =>
        refine Machine.level_lt_of_needs (fun pid x st hp => ?_) (rank_pos hneeds.2) hneeds.1 hnot
          hholds
        exact Machine.orderly_of_reachable orderly_body rfl h.app hp

/-- **The transactions cannot deadlock.** In every state that the system and the publisher reach,
the transactions do not wait for each other in a cycle. -/
theorem no_deadlock {s : OutboxState P} (h : OutboxReachable P (fun _ _ => True) s) (a : Party) :
    ¬ Relation.TransGen (WaitsFor s) a a :=
  acyclic_of_lt (fun _ _ hw => level_lt_of_waitsFor (outboxOk_of_reachable h) hw) a

/-- The next statement of a process needs the lock. -/
def needsLock (s : State examplePlatform) (pid : ℕ) (l : Lock) : Bool :=
  match s.procs[pid]? with
  | some ⟨_, .inTxn _ ⟨.op o _, ws, _, now⟩ _⟩ =>
    (stmtLocks ⟨now, .nothing⟩ (store.applyAll s.db ws) o).contains l
  | _ => false

theorem needs_of_needsLock {s : State examplePlatform} {pid : ℕ} {l : Lock}
    (h : needsLock s pid l = true) : Machine.Needs (payflow examplePlatform) s pid l := by
  unfold needsLock at h
  split at h
  · rename_i x b o kk ws ls now k hp
    exact ⟨x, b, o, kk, ws, ls, now, k, .nothing, hp, List.contains_iff_mem.mp h⟩
  · cases h

/-- The task of a payment is delivered twice, and the second execution waits for the first one,
which holds the payment. -/
theorem no_deadlock_twice : ∃ s : OutboxState examplePlatform,
    WaitsFor s (.process 2) (.process 1) ∧ ∀ a, ¬ Relation.TransGen (WaitsFor s) a a := by
  have h : (runSteps OutboxState.step (fun _ _ => true) (OutboxState.init examplePlatform)
      (appScript (createPaymentScript 0 1 ++ [.start (.task 0), .start (.task 0)] ++ quiet 1 5 ++
        quiet 2 4))).map (fun s => (needsLock s.app 2 (.payment (exampleUuid 1)),
          (Machine.heldLocks _ s.app 2).contains (.payment (exampleUuid 1)),
          (Machine.heldLocks _ s.app 1).contains (.payment (exampleUuid 1)))) =
      some (true, false, true) := by decide +kernel
  obtain ⟨s, hs, h⟩ := Option.map_eq_some_iff.mp h
  simp only [Prod.mk.injEq] at h
  obtain ⟨hneeds, hnot, hholds⟩ := h
  refine ⟨s, ⟨.lock (.payment (exampleUuid 1)), ⟨needs_of_needsLock hneeds, by simp⟩, fun hin => ?_,
    List.contains_iff_mem.mp hholds⟩, fun a => no_deadlock (Reaches.runSteps (fun _ _ _ => trivial)
      .refl hs) a⟩
  rw [List.contains_iff_mem.mpr hin] at hnot
  cases hnot

end Payflow.Safety
