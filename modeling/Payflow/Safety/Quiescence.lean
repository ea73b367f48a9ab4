import Payflow.Lib.Progress
import Payflow.Safety.Deadlock
import Payflow.Spec.SoloRules

/-! # The system comes to rest

Between the arrival of new work, whatever the order of the steps and whichever workers are killed:
the processes that are there take finitely many steps in all, and they stop only when each of them
has ended. No program loops, no transaction waits for ever, and no answer of Redis, the broker or
the provider leaves a program without a next step. -/

namespace Payflow.Safety

open Payflow.Lib Payflow.Model Payflow.Spec

variable {P : Platform}

/-- The environment can answer the rest of a transaction. -/
abbrev SuppliedTxn {α : Type} (p : Tx α) (ls : List Lock) : Prop := store.Supplied lockRank p ls

/-! ### The statements -/

section statements

variable {α : Type} {ls : List Lock}

/-- The statement is given the id of the row that it inserts. -/
def givenId : Stmt → Option Uuid
  | .insertPayment id _ _ _ _ _ _ => some id
  | .insertRefund id _ _ _ _ _ => some id
  | _ => none

/-- The locks of rank 0 are the id that a statement draws and the id that it is given. -/
theorem newId_of_rank {v : Env Pick} {D : Db} {o : Stmt} {l : Lock} (hl : l ∈ stmtLocks v D o)
    (hzero : lockRank l = 0) : ∃ id, l = .newId id ∧ (drawn v D = some id ∨ givenId o = some id) := by
  cases l with
  | newId id =>
    refine ⟨id, rfl, ?_⟩
    cases o with
    | insertPayment id' m k h u a c =>
      simp only [stmtLocks] at hl
      split_ifs at hl
      · cases hl
      · simp only [List.mem_cons, reduceCtorEq, Lock.newId.injEq, List.not_mem_nil, or_false,
          false_or] at hl
        exact Or.inr (congrArg some hl.symm)
    | insertRefund id' p m k a c =>
      simp only [stmtLocks] at hl
      split_ifs at hl
      · cases hl
      · simp only [List.mem_cons, reduceCtorEq, Lock.newId.injEq, List.not_mem_nil, or_false,
          false_or] at hl
        exact Or.inr (congrArg some hl.symm)
    | insertWebhookEvent e t payload =>
      simp only [stmtLocks] at hl
      split_ifs at hl
      · cases hl
      · simp only [List.mem_cons, reduceCtorEq, List.mem_map, Option.mem_toList,
          Lock.newId.injEq, exists_eq_right, false_or] at hl
        exact Or.inl hl
    | _ => simp [stmtLocks] at hl <;> exact Or.inl hl
  | _ => simp [lockRank] at hzero

/-- **Every statement can be answered**, and draws an id that nobody holds. -/
theorem exists_answer (now : ℕ) (D : Db) (taken : List Lock) (o : Stmt) :
    ∃ pick r ws, store.exec ⟨now, pick⟩ D o = some (r, ws) ∧
      ∀ id, drawn ⟨now, pick⟩ D = some id → Lock.newId id ∉ taken := by
  obtain ⟨id, hid⟩ := exists_newId (D.ids ++ taken.filterMap fun l =>
    match l with | .newId id => some id | _ => none)
  rw [List.mem_append, not_or] at hid
  have hdrawn : drawn ⟨now, .newId id⟩ D = some id := if_neg hid.1
  have hnew : ∀ id', drawn ⟨now, .newId id⟩ D = some id' → Lock.newId id' ∉ taken := by
    intro id' h hin
    obtain rfl := Option.some.inj (hdrawn.symm.trans h)
    exact hid.2 (List.mem_filterMap.mpr ⟨_, hin, rfl⟩)
  obtain ⟨r, ws, hx⟩ := exec_of_drawn hdrawn o
  exact ⟨.newId id, r, ws, hx, hnew⟩

/-- The rule for a statement whose id, if it is given one, the transaction holds. -/
theorem supplied_stmt {o : Stmt} {k : SRes o → Tx α}
    (hid : ∀ id, givenId o = some id → Lock.newId id ∈ ls) (hk : ∀ r, SuppliedTxn (k r) ls) :
    SuppliedTxn (.op o k) ls := by
  refine ⟨fun now D taken => ?_, fun v D r ws _ => (hk r).mono (List.subset_append_left _ _)⟩
  obtain ⟨pick, r, ws, hx, hnew⟩ := exists_answer now D taken o
  refine ⟨pick, r, ws, hx, fun l hl hzero hnot => ?_⟩
  obtain ⟨id, rfl, hdrawn | hgiven⟩ := newId_of_rank hl hzero
  · exact hnew id hdrawn
  · exact absurd (hid id hgiven) hnot

theorem supplied_free {o : Stmt} {k : SRes o → Tx α} (hid : givenId o = none)
    (hk : ∀ r, SuppliedTxn (k r) ls) : SuppliedTxn (.op o k) ls :=
  supplied_stmt (fun id h => by simp [hid] at h) hk

/-- The rule for `uuid4()`: the transaction holds the id from now on. -/
theorem supplied_uuid4 {k : Uuid → Tx α} (hk : ∀ id, SuppliedTxn (k id) (ls ++ [.newId id])) :
    SuppliedTxn (uuid4.bind k) ls := by
  refine ⟨(supplied_free (o := .uuid4) (k := fun _ : Uuid => (.raise .redisError : Tx α)) rfl
    fun _ => trivial).1, fun v D r ws hx => ?_⟩
  have hx : (drawn v D).map (fun id => (id, [])) = some (r, ws) := hx
  obtain ⟨id, hid, he⟩ := Option.map_eq_some_iff.mp hx
  obtain ⟨rfl, -⟩ := Prod.mk.inj he
  have hlocks : store.locks v D .uuid4 = [.newId id] := by
    simp [store, stmtLocks, hid]
  rw [hlocks]
  exact hk id

end statements

/-! ### The transactions -/

section transactions

variable {α : Type} {ls : List Lock}

theorem supplied_read {o : Stmt} (hid : givenId o = none) :
    SuppliedTxn (.perform o : Tx (SRes o)) ls :=
  supplied_free hid fun _ => trivial

theorem supplied_change {p : Uuid} {guard : PaymentStatus → Bool}
    {set : ℕ → PaymentCols → PaymentCols} {type : EventType} {prev : Option PaymentStatus}
    {new : PaymentStatus} {metadata : Json} {q : Tx α} (hq : SuppliedTxn q ls) :
    SuppliedTxn (.op (.updatePayment p guard set) fun _ =>
      (insertPaymentEvent p type prev new metadata).bind fun _ => q) ls :=
  supplied_free rfl fun _ => supplied_free rfl fun _ => hq

theorem supplied_outbox {aggregate : Uuid} {type : EventType} {payload : Json} {q : Tx α}
    (hq : SuppliedTxn q ls) :
    SuppliedTxn ((insertOutboxEvent aggregate type payload).bind fun _ => q) ls :=
  supplied_free rfl fun _ => hq

theorem supplied_createIdempotentPayment (m k hash user : String) (amount : ℕ) (currency : String) :
    SuppliedTxn (createIdempotentPaymentTxn m k hash user amount currency) [] := by
  refine supplied_uuid4 fun id => ?_
  refine supplied_stmt (fun id' h => ?_) fun r => ?_
  · obtain rfl := Option.some.inj h
    simp
  · cases r with
    | error e => trivial
    | ok row? =>
      cases row? with
      | some row => exact supplied_free rfl fun _ => trivial
      | none =>
        refine supplied_free rfl fun existing => ?_
        cases existing with
        | none => trivial
        | some existing => exact .ite trivial trivial

theorem supplied_recordTransition (p : Uuid) (type : EventType) (new : PaymentStatus)
    (provider : Json) (failure : Option String) :
    SuppliedTxn (recordTransition P p type new provider failure) [] := by
  refine supplied_free rfl fun row => ?_
  cases row with
  | none => trivial
  | some row =>
    refine .ite (.ite trivial trivial) ?_
    exact .ofExcept fun _ => .ofExcept fun _ => supplied_change (supplied_read rfl)

theorem supplied_recordAwaitingWebhook (p : Uuid) (provider : Json) :
    SuppliedTxn (recordAwaitingWebhook P p provider) [] := by
  refine supplied_free rfl fun row => ?_
  cases row with
  | none => trivial
  | some row => exact .ite trivial (.ofExcept fun _ => supplied_free rfl fun _ => supplied_read rfl)

theorem supplied_recordRetry (p : Uuid) (reason : String) :
    SuppliedTxn (recordRetry P p reason) [] := by
  refine supplied_free rfl fun row => ?_
  cases row with
  | none => trivial
  | some row => exact .ite trivial (.ofExcept fun _ => supplied_free rfl fun _ => supplied_read rfl)

theorem supplied_reconcileOne (p : Uuid) (status : PaymentStatus) :
    SuppliedTxn (reconcileOneTxn p status) [] := by
  refine supplied_free rfl fun row => ?_
  cases row with
  | none => trivial
  | some row => exact .ite trivial (supplied_change (supplied_outbox trivial))

theorem supplied_receiveProviderWebhook (payload : Json) :
    SuppliedTxn (receiveProviderWebhookTxn P payload) [] := by
  refine .ofExcept fun eventId => .ofExcept fun providerEventId => .ofExcept fun type =>
    .ofExcept fun eventType => .ite trivial (.ofExcept fun e => .ofExcept fun t => ?_)
  refine supplied_free rfl fun inserted => ?_
  cases inserted with
  | none => trivial
  | some id =>
    refine .ofExcept fun field => .ofExcept fun p => ?_
    cases p with
    | none => trivial
    | some p =>
      refine supplied_free rfl fun row => ?_
      cases row with
      | none => trivial
      | some row =>
        refine .ofExcept fun status => .ite trivial (.ite trivial ?_)
        exact .ofExcept fun _ => .ofExcept fun _ => supplied_change (supplied_outbox trivial)

theorem supplied_createRefund (p : Uuid) (m k : String) (amount : ℕ) :
    SuppliedTxn (createRefundTxn p m k amount) [] := by
  refine supplied_free rfl fun existing => ?_
  cases existing with
  | some refund => trivial
  | none =>
    refine supplied_free rfl fun row => ?_
    cases row with
    | none => trivial
    | some row =>
      refine .ite trivial (.ite trivial (supplied_free rfl fun total => .ite trivial ?_))
      refine supplied_uuid4 fun q => ?_
      refine supplied_stmt (fun id' h => ?_) fun r => ?_
      · obtain rfl := Option.some.inj h
        simp
      · cases r with
        | error e => trivial
        | ok refund =>
          refine supplied_free rfl fun _ => supplied_free rfl fun _ => supplied_free rfl fun _ => ?_
          exact supplied_outbox trivial

theorem supplied_recordRefundTransition (q : Uuid) (type : EventType) (new : RefundStatus)
    (provider : Json) (failure : Option String) :
    SuppliedTxn (recordRefundTransition P q type new provider failure) [] := by
  refine supplied_free rfl fun row => ?_
  cases row with
  | none => trivial
  | some row =>
    refine .ite (.ite trivial trivial) ?_
    refine .ofExcept fun _ => .ofExcept fun _ => .ofExcept fun _ => ?_
    exact supplied_free rfl fun _ => supplied_free rfl fun _ => supplied_read rfl

theorem supplied_recordRefundRetry (q : Uuid) (reason : String) :
    SuppliedTxn (recordRefundRetry P q reason) [] := by
  refine .ofExcept fun failure => supplied_free rfl fun row => ?_
  cases row with
  | none => trivial
  | some row => exact supplied_read rfl

theorem supplied_completeSuccessfulRefund (q : Uuid) :
    SuppliedTxn (completeSuccessfulRefund q) [] := by
  refine supplied_free rfl fun refund => ?_
  cases refund with
  | none => trivial
  | some refund =>
    refine supplied_free rfl fun row => ?_
    cases row with
    | none => trivial
    | some row => exact supplied_free rfl fun total => supplied_change (supplied_read rfl)

theorem supplied_restorePaymentAfterFailedRefund (q : Uuid) :
    SuppliedTxn (restorePaymentAfterFailedRefund q) [] := by
  refine supplied_free rfl fun refund => ?_
  cases refund with
  | none => trivial
  | some refund => exact supplied_read rfl

/-- **The environment can answer all transactions.** -/
theorem supplied_body (b : Block) : SuppliedTxn (body P b) [] := by
  cases b with
  | createIdempotentPayment m k h u a c => exact supplied_createIdempotentPayment m k h u a c
  | recordTransition p type new provider failure =>
    exact supplied_recordTransition p type new provider failure
  | recordAwaitingWebhook p provider => exact supplied_recordAwaitingWebhook p provider
  | recordRetry p reason => exact supplied_recordRetry p reason
  | receiveProviderWebhook payload => exact supplied_receiveProviderWebhook payload
  | reconcileOne p status => exact supplied_reconcileOne p status
  | createRefund p m k a => exact supplied_createRefund p m k a
  | recordRefundTransition q type new provider failure =>
    exact supplied_recordRefundTransition q type new provider failure
  | recordRefundRetry q reason => exact supplied_recordRefundRetry q reason
  | completeSuccessfulRefund q => exact supplied_completeSuccessfulRefund q
  | restorePaymentAfterFailedRefund q => exact supplied_restorePaymentAfterFailedRefund q
  | getExistingPayment _ _ | getPayment _ | reconcileSelect | getRefund _
  | selectProviderPaymentId _ => exact supplied_read rfl

end transactions

/-! ### Every schedule -/

theorem exists_ext (pid : ℕ) (w : World) (e : Ext) : ∃ pick r w', ext pid pick w e = some (r, w') := by
  cases e with
  | uuid4 => exact ⟨.newId ⟨0⟩, _, _, rfl⟩
  | redisSet _ _ | redisRelease _ _ => exact ⟨.redis none, _, _, rfl⟩
  | delay _ | sendRetry _ _ => exact ⟨.broker false, _, _, rfl⟩
  | postPayment _ _ | getPayment _ | postRefund _ _ =>
    exact ⟨.http (.response 500 "" (.error .jsonDecodeError)), _, _, rfl⟩

theorem exists_step_of_live {s : State P} (h : Reachable P s)
    (hlive : ∃ p ∈ s.procs, p.status.live = true) :
    ∃ pid pick s', (payflow P).step s (.step pid pick) = some s' :=
  Machine.exists_step (good_of_reachable h) ⟨.nothing⟩ exists_ext
    (fun _ _ _ hp => Machine.orderly_of_reachable orderly_body rfl h hp)
    (fun _ _ _ hp => Machine.supplied_of_reachable supplied_body rfl h hp) hlive

/-- The processes take steps, without new ones, until all have ended. -/
theorem exists_rest {s : State P} (h : Reachable P s) :
    ∃ s', Machine.ReachableBy (payflow P) (fun _ a => ∃ pid pick, a = .step pid pick) s s' ∧
      ∀ p ∈ s'.procs, p.status.live = false := by
  induction Machine.schedules_wellFounded (M := payflow P) |>.apply s with
  | intro s _ ih =>
    by_cases hlive : ∃ p ∈ s.procs, p.status.live = true
    · obtain ⟨pid, pick, s₁, hs⟩ := exists_step_of_live h hlive
      obtain ⟨s', hrun, hrest⟩ := ih s₁ (.own hs) (.step h trivial hs)
      exact ⟨s', Machine.ReachableBy.trans (.step .refl ⟨pid, pick, rfl⟩ hs) hrun, hrest⟩
    · refine ⟨s, .refl, fun p hp => ?_⟩
      rw [← Bool.not_eq_true]
      exact fun htrue => hlive ⟨p, hp, htrue⟩

/-- **The system comes to rest.** From every reachable state: the processes that are there do not
take steps for ever, in whatever order and whichever of them are killed; a state in which none of
them can take a step is one in which all have ended; and such a state can be reached without killing
one. -/
theorem comes_to_rest {s : State P} (h : Reachable P s) :
    (¬ ∃ run : ℕ → State P, run 0 = s ∧
      ∀ n, Machine.Schedules (payflow P) (run (n + 1)) (run n)) ∧
    ((∀ pid pick, (payflow P).step s (.step pid pick) = none) →
      ∀ p ∈ s.procs, p.status.live = false) ∧
    ∃ s', Machine.ReachableBy (payflow P) (fun _ a => ∃ pid pick, a = .step pid pick) s s' ∧
      ∀ p ∈ s'.procs, p.status.live = false := by
  refine ⟨?_, fun hstuck p hp => ?_, exists_rest h⟩
  · rintro ⟨run, -, hrun⟩
    exact (wellFounded_iff_isEmpty_descending_chain.mp Machine.schedules_wellFounded).false ⟨run, hrun⟩
  · rw [← Bool.not_eq_true]
    intro hlive
    obtain ⟨pid, pick, s', hs⟩ := exists_step_of_live h ⟨p, hp, hlive⟩
    rw [hstuck pid pick] at hs
    cases hs

/-- Two deliveries of one task are at work on the payment, and one waits for the other. -/
theorem comes_to_rest_twice : ∃ s : State examplePlatform,
    (∃ p ∈ s.procs, p.status.live = true) ∧
    ∃ s', Machine.ReachableBy (payflow examplePlatform) (fun _ a => ∃ pid pick, a = .step pid pick)
      s s' ∧ ∀ p ∈ s'.procs, p.status.live = false := by
  have h : ((payflow examplePlatform).run (init examplePlatform)
      (createPaymentScript 0 1 ++ [.start (.task 0), .start (.task 0)] ++ quiet 1 5 ++
        quiet 2 4)).map (fun s => s.procs.any fun p => p.status.live) = some true := by
    decide +kernel
  obtain ⟨s, hs, hlive⟩ := Option.map_eq_some_iff.mp h
  obtain ⟨p, hp, hlive⟩ := List.any_eq_true.mp hlive
  exact ⟨s, ⟨p, hp, hlive⟩, (comes_to_rest (.run hs)).2.2⟩

end Payflow.Safety
