import Payflow.Safety.Lifecycle

/-! # The task of a finished payment

An execution of `process_payment` begins with `get_payment`, and ends there if the payment is
`SUCCEEDED`, `REFUNDED` or `FAILED`. A payment that has succeeded can also be `REFUND_PENDING`,
which the guard does not name: the execution then asks the provider for the money again. -/

namespace Payflow.Safety

open Payflow.Lib Payflow.Model Payflow.Spec

variable {P : Platform} {s s' : State P} {p : Uuid} {scenario : Scenario} {retries pid : ℕ}

/-- **The guard.** An execution of `process_payment` reads the payment; it ends if the payment is
`SUCCEEDED` or `REFUNDED`, and asks the provider if it is `REFUND_PENDING`. -/
theorem runTask_processPayment {m : Message} (h : m.task = .processPayment p scenario) :
    ∃ k : Except Exn (Option Payment) → Proc Ans,
      (runTask m).bind (fun r => .pure (.task r)) = .op (Call.txn (Block.getPayment p)) k ∧
      (∀ row : Payment, row.status = .succeeded ∨ row.status = .refunded →
        k (.ok (some row)) = .pure (.task .alreadyCompleted)) ∧
      ∀ row : Payment, row.status = .refundPending → ∃ k',
        k (.ok (some row)) = .op (Call.ext (Ext.postPayment scenario
          ⟨p, row.amountCents, row.currency⟩)) k' := by
  unfold runTask
  rw [h]
  refine ⟨_, rfl, fun row hs => ?_, fun row hs => ?_⟩
  · show Prog.bind (if row.status = .succeeded ∨ row.status = .refunded then _ else _) _ = _
    rw [if_pos hs]
    rfl
  · have hcompleted : ¬ (row.status = .succeeded ∨ row.status = .refunded) := by simp [hs]
    have hfailed : ¬ row.status = .failed := by simp [hs]
    have hcreated : ¬ row.status = .created := by simp [hs]
    show ∃ k', Prog.bind (if row.status = .succeeded ∨ row.status = .refunded then _ else
      if row.status = .failed then _ else if row.status = .created then _ else _) _ = _
    rw [if_neg hcompleted, if_neg hfailed, if_neg hcreated]
    exact ⟨_, rfl⟩

/-- The execution has sent and written nothing, and will not: it has not read the payment yet, or it
has read that the payment is finished, or it is over. -/
inductive Quiet (P : Platform) (p : Uuid) (k : Except Exn (Option Payment) → Proc Ans) :
    Status Write Lock Stmt Block Ext Exn Ans SRes BRes ERes → Prop
  | begun : Quiet P p k (.run (.op (Call.txn (Block.getPayment p)) k))
  | reading (ls : List Lock) (now : ℕ) :
    Quiet P p k (.inTxn (.getPayment p) ⟨getPayment p, [], ls, now⟩ k)
  | read (row : Payment) (ls : List Lock) (now : ℕ) :
    row.status = .succeeded ∨ row.status = .refunded →
    Quiet P p k (.inTxn (.getPayment p) ⟨.pure (some row), [], ls, now⟩ k)
  | ended (a : Ans) : Quiet P p k (.run (.pure a))
  | done (out : Except Exn Ans) : Quiet P p k (.done out)
  | killed : Quiet P p k .killed

/-- The step reads the payment in the status `REFUND_PENDING`. -/
def ReadsRefundPending (pid : ℕ) (p : Uuid) (s : State P) (a : Action (Start P) Pick) : Prop :=
  ∃ pick x ls now k row, a = .step pid pick ∧
    s.procs[pid]? = some ⟨x, .inTxn (.getPayment p) ⟨getPayment p, [], ls, now⟩ k⟩ ∧
    s.db.payment? p = some row ∧ row.status = .refundPending

/-- The process does not stand before an external action, and what it commits is empty. -/
def Harmless (s : State P) (pid : ℕ) : Prop :=
  (∀ x e k, s.procs[pid]? ≠ some ⟨x, .run (.op (.ext e) k)⟩) ∧
    ∀ b now ws, ∀ r : BRes b, Machine.AtCommit s pid b now ws r → ws = []

theorem harmless_of_quiet {x : Start P} {k : Except Exn (Option Payment) → Proc Ans}
    {st : Status Write Lock Stmt Block Ext Exn Ans SRes BRes ERes}
    (hp : s.procs[pid]? = some ⟨x, st⟩) (h : Quiet P p k st) : Harmless s pid := by
  constructor
  · intro y e k' hq
    obtain ⟨rfl, rfl⟩ := Machine.Proc.mk.inj (Option.some.inj (hp.symm.trans hq))
    cases h
  · rintro b now ws r ⟨y, ls, k', hq⟩
    obtain ⟨rfl, rfl⟩ := Machine.Proc.mk.inj (Option.some.inj (hp.symm.trans hq))
    cases h
    rfl

theorem quiet_own {k : Except Exn (Option Payment) → Proc Ans}
    (hk : ∀ row : Payment, row.status = .succeeded ∨ row.status = .refunded →
      k (.ok (some row)) = .pure (.task .alreadyCompleted))
    {x : Start P} {st st' : Status Write Lock Stmt Block Ext Exn Ans SRes BRes ERes} {pick : Pick}
    {w : World} (h : Quiet P p k st)
    (hread : ∀ ls now, st = .inTxn (.getPayment p) ⟨getPayment p, [], ls, now⟩ k →
      ∃ row, s.db.payment? p = some row ∧ (row.status = .succeeded ∨ row.status = .refunded))
    (hs : Machine.advance (payflow P) s pid pick x st = some (s'.db, w, st')) :
    Quiet P p k st' := by
  cases h with
  | begun =>
    simp only [Machine.advance, Option.some.injEq, Prod.mk.injEq] at hs
    obtain ⟨-, -, rfl⟩ := hs
    exact .reading [] s.clock
  | reading ls now =>
    obtain ⟨row, hrow, hst⟩ := hread ls now rfl
    obtain ⟨r, ws', hx, -, rfl⟩ := Machine.advance_stmt hs
    have hx : some (s.db.payment? p, []) = some (r, ws') := hx
    obtain ⟨rfl, rfl⟩ := Prod.mk.inj (Option.some.inj hx)
    rw [hrow]
    exact .read row _ now hst
  | read row ls now hst =>
    simp only [Machine.advance, Option.some.injEq, Prod.mk.injEq] at hs
    obtain ⟨-, -, rfl⟩ := hs
    exact (congrArg (fun q => Quiet P p k (.run q)) (hk row hst)).mpr (.ended _)
  | ended a =>
    simp only [Machine.advance, Option.some.injEq, Prod.mk.injEq] at hs
    obtain ⟨-, -, rfl⟩ := hs
    exact .done _
  | done out => simp [Machine.advance] at hs
  | killed => simp [Machine.advance] at hs

theorem quiet_start {s₀ s₂ : State P} {i : ℕ} {m : Message} (hm : s₀.world.messages[i]? = some m)
    {k : Except Exn (Option Payment) → Proc Ans}
    (hprog : (runTask m).bind (fun r => .pure (.task r)) = .op (Call.txn (Block.getPayment p)) k)
    (hstart : (payflow P).step s₀ (.start (.task i)) = some s₂) :
    ∃ st, s₂.procs[s₀.procs.length]? = some ⟨.task i, st⟩ ∧ Quiet P p k st := by
  refine ⟨_, ?_, .begun⟩
  simp only [Machine.step] at hstart
  split at hstart
  · rename_i q hq
    obtain rfl := Option.some.inj hstart
    have hq : start P s₀.world (.task i) = some q := hq
    simp only [start, hm] at hq
    split_ifs at hq
    obtain rfl := Option.some.inj hq
    rw [hprog]
    exact List.getElem?_concat_length
  · simp at hstart

/-- A step of the system leaves an execution quiet, if it does not read `REFUND_PENDING`. -/
theorem quiet_step {k : Except Exn (Option Payment) → Proc Ans}
    (hk : ∀ row : Payment, row.status = .succeeded ∨ row.status = .refunded →
      k (.ok (some row)) = .pure (.task .alreadyCompleted))
    {x : Start P} {st : Status Write Lock Stmt Block Ext Exn Ans SRes BRes ERes}
    (hp : s.procs[pid]? = some ⟨x, st⟩) (hq : Quiet P p k st)
    (hsettled : ∃ row, s.db.payment? p = some row ∧ row.status ∈ settled)
    {a : Action (Start P) Pick} (hno : ¬ ReadsRefundPending pid p s a)
    (hs : (payflow P).step s a = some s') :
    ∃ st', s'.procs[pid]? = some ⟨x, st'⟩ ∧ Quiet P p k st' := by
  have hlt := Nat.lt_of_lt_of_le (List.getElem?_eq_some_iff.mp hp).1 (Machine.length_procs_le hs)
  obtain ⟨⟨y, st'⟩, hp'⟩ : ∃ q, s'.procs[pid]? = some q := ⟨_, List.getElem?_eq_getElem hlt⟩
  cases Machine.step_process hs hp' with
  | other hp₂ =>
    obtain ⟨rfl, rfl⟩ := Machine.Proc.mk.inj (Option.some.inj (hp.symm.trans hp₂))
    exact ⟨st, hp', hq⟩
  | killed _ hp₂ =>
    obtain ⟨rfl, rfl⟩ := Machine.Proc.mk.inj (Option.some.inj (hp.symm.trans hp₂))
    exact ⟨.killed, hp', .killed⟩
  | started _ hp₂ => simp [hp] at hp₂
  | own ha hp₂ hadv =>
    obtain ⟨rfl, rfl⟩ := Machine.Proc.mk.inj (Option.some.inj (hp.symm.trans hp₂))
    refine ⟨st', hp', quiet_own hk hq (fun ls now he => ?_) hadv⟩
    obtain ⟨row, hrow, hst⟩ := hsettled
    refine ⟨row, hrow, ?_⟩
    have hne : row.status ≠ .refundPending := fun hs' =>
      hno ⟨_, _, ls, now, k, row, ha, he ▸ hp, hrow, hs'⟩
    simp only [settled, List.mem_cons, List.not_mem_nil, or_false] at hst
    rcases hst with hs' | hs' | hs'
    · exact Or.inl hs'
    · exact absurd hs' hne
    · exact Or.inr hs'

/-- An execution that reads `REFUND_PENDING` goes on to ask the provider. -/
theorem asks_of_reads {k : Except Exn (Option Payment) → Proc Ans}
    (hk : ∀ row : Payment, row.status = .refundPending → ∃ k', k (.ok (some row)) =
      .op (Call.ext (Ext.postPayment scenario ⟨p, row.amountCents, row.currency⟩)) k')
    {x : Start P} {st : Status Write Lock Stmt Block Ext Exn Ans SRes BRes ERes}
    (hp : s.procs[pid]? = some ⟨x, st⟩) (hq : Quiet P p k st) {a : Action (Start P) Pick}
    (hreads : ReadsRefundPending pid p s a) (hs : (payflow P).step s a = some s') {pick : Pick}
    {s'' : State P} (hs' : (payflow P).step s' (.step pid pick) = some s'') :
    ∃ json k', s''.procs[pid]? =
      some ⟨x, .run (.op (Call.ext (Ext.postPayment scenario json)) k')⟩ ∧ json.paymentId = p := by
  obtain ⟨pick', y, ls, now, k₁, row, rfl, hp₁, hrow, hst⟩ := hreads
  obtain ⟨rfl, rfl⟩ := Machine.Proc.mk.inj (Option.some.inj (hp.symm.trans hp₁))
  obtain rfl : k₁ = k := by cases hq; rfl
  obtain ⟨x₁, st₁, st', hp₂, hp', hadv⟩ := Machine.step_own hs
  obtain ⟨rfl, rfl⟩ := Machine.Proc.mk.inj (Option.some.inj (hp.symm.trans hp₂))
  obtain ⟨r, ws', hx, -, rfl⟩ := Machine.advance_stmt hadv
  have hx : some (s.db.payment? p, []) = some (r, ws') := hx
  obtain ⟨rfl, rfl⟩ := Prod.mk.inj (Option.some.inj hx)
  obtain ⟨x₂, st₂, st'', hp₃, hp'', hadv'⟩ := Machine.step_own hs'
  obtain ⟨rfl, rfl⟩ := Machine.Proc.mk.inj (Option.some.inj (hp'.symm.trans hp₃))
  rw [hrow] at hadv'
  simp only [Machine.advance, Option.some.injEq, Prod.mk.injEq] at hadv'
  obtain ⟨-, -, rfl⟩ := hadv'
  obtain ⟨k', hk'⟩ := hk row hst
  refine ⟨⟨p, row.amountCents, row.currency⟩, k', hp''.trans ?_, rfl⟩
  exact congrArg (fun q => some (Machine.Proc.mk x (.run q))) hk'

/-- **The task of a finished payment is harmless.** From a state on in which the payment has
succeeded before, an execution of `process_payment` sends and writes nothing in any run in which it
does not read the payment in the status `REFUND_PENDING`; and when it does, it goes on to ask the
provider for the payment again. -/
theorem finished_task_harmless {s₁ s₀ s₂ : State P} {row : Payment} {i : ℕ} {m : Message}
    (h₁ : Reachable P s₁) (hrow : s₁.db.payment? p = some row) (hst : row.status = .succeeded)
    (h₀ : Machine.Reachable (payflow P) s₁ s₀) (hm : s₀.world.messages[i]? = some m)
    (htask : m.task = .processPayment p scenario)
    (hstart : (payflow P).step s₀ (.start (.task i)) = some s₂)
    (hrun : Machine.ReachableBy (payflow P)
      (fun s a => ¬ ReadsRefundPending s₀.procs.length p s a) s₂ s) :
    Harmless s s₀.procs.length ∧
    ∀ a s' pick s'', (payflow P).step s a = some s' →
      ReadsRefundPending s₀.procs.length p s a →
      (payflow P).step s' (.step s₀.procs.length pick) = some s'' →
      ∃ json k', s''.procs[s₀.procs.length]? =
        some ⟨.task i, .run (.op (Call.ext (Ext.postPayment scenario json)) k')⟩ ∧
        json.paymentId = p := by
  obtain ⟨k, hprog, hdone, hpending⟩ := runTask_processPayment htask
  obtain ⟨st, hp, hq⟩ : ∃ st, s.procs[s₀.procs.length]? = some ⟨.task i, st⟩ ∧ Quiet P p k st := by
    induction hrun with
    | refl => exact quiet_start hm hprog hstart
    | step hr hno hs ih =>
      obtain ⟨st, hp, hq⟩ := ih
      have hlater := (h₀.step trivial hstart).trans (hr.imp fun _ _ _ => trivial)
      exact quiet_step hdone hp hq (settled_later h₁ hlater hrow (by simp [hst, settled])) hno hs
  exact ⟨harmless_of_quiet hp hq, fun a s' pick s'' hs hreads hs' =>
    asks_of_reads hpending hp hq hreads hs hs'⟩

/-! ### Examples -/

/-- The step does not read `REFUND_PENDING`: a check for runs. -/
def readsCheck (pid : ℕ) (p : Uuid) (s : State P) : Action (Start P) Pick → Bool
  | .step q _ => q != pid || !(s.db.payment? p).any fun row => row.status = .refundPending
  | _ => true

theorem not_reads_of_check {a : Action (Start P) Pick} (h : readsCheck pid p s a = true) :
    ¬ ReadsRefundPending pid p s a := by
  rintro ⟨pick, x, ls, now, k, row, rfl, -, hrow, hst⟩
  simp [readsCheck, hrow, hst] at h

/-- A payment has just succeeded, and its message is not acknowledged yet. -/
def justSucceeded : List Act :=
  createPaymentScript 0 1 ++ startPaymentScript 1 0 4 ++
    [answer 1 "provider_payment_id" "SUCCEEDED" 6] ++ quiet 1 3 ++ draw 1 [7, 8] ++ quiet 1 1

/-- The process has answered with the result. -/
def answeredTask (s : State P) (pid : ℕ) (r : TaskResult) : Bool :=
  match s.procs[pid]? with
  | some ⟨_, .done (.ok (.task r'))⟩ => r' = r
  | _ => false

/-- The process stands before a request for a payment. -/
def asksPayment (s : State P) (pid : ℕ) : Bool :=
  match s.procs[pid]? with
  | some ⟨_, .run (.op (.ext (.postPayment _ _)) _)⟩ => true
  | _ => false

theorem not_harmless_of_asks (h : asksPayment s pid = true) : ¬ Harmless s pid := by
  unfold asksPayment at h
  split at h
  · rename_i hp
    exact fun hh => hh.1 _ _ _ hp
  · simp at h

/-- The message is delivered again, and the execution finds that the payment has succeeded. -/
theorem finished_task_harmless_again : ∃ s₀ s : State examplePlatform,
    answeredTask s s₀.procs.length .alreadyCompleted = true ∧ Harmless s s₀.procs.length := by
  have h : ((payflow examplePlatform).run (init _) justSucceeded).bind (fun s₀ =>
      ((payflow examplePlatform).step s₀ (.start (.task 0))).bind fun s₂ =>
        ((payflow examplePlatform).runWhen (readsCheck 2 (exampleUuid 1)) s₂
          (quiet 2 4)).map fun s =>
          ((s₀.db.payment? (exampleUuid 1)).map (·.status), (s₀.world.messages[0]?).map (·.task),
            s₀.procs.length, answeredTask s s₀.procs.length .alreadyCompleted)) =
      some (some .succeeded, some (.processPayment (exampleUuid 1) .success), 2, true) := by
    decide +kernel
  obtain ⟨s₀, hs₀, h⟩ := Option.bind_eq_some_iff.mp h
  obtain ⟨s₂, hs₂, h⟩ := Option.bind_eq_some_iff.mp h
  obtain ⟨s, hs, h⟩ := Option.map_eq_some_iff.mp h
  simp only [Prod.mk.injEq, Option.map_eq_some_iff] at h
  obtain ⟨⟨row, hrow, hst⟩, ⟨m, hm, htask⟩, hlen, hdone⟩ := h
  refine ⟨s₀, s, hdone, (finished_task_harmless (.run hs₀) hrow hst .refl hm htask hs₂ ?_).1⟩
  exact .runWhen (fun _ _ hc => hlen ▸ not_reads_of_check hc) .refl hs

/-- **A refund makes the task ask again.** The message is delivered again when a refund of the
payment has been created, and the execution asks the provider for the payment. -/
theorem finished_task_not_harmless : ∃ (s₁ s₀ s₂ s : State examplePlatform) (row : Payment)
    (m : Message), Reachable examplePlatform s₁ ∧ s₁.db.payment? (exampleUuid 1) = some row ∧
      row.status = .succeeded ∧ Machine.Reachable (payflow examplePlatform) s₁ s₀ ∧
      s₀.world.messages[0]? = some m ∧ m.task = .processPayment (exampleUuid 1) .success ∧
      (payflow examplePlatform).step s₀ (.start (.task 0)) = some s₂ ∧
      Machine.Reachable (payflow examplePlatform) s₂ s ∧ ¬ Harmless s s₀.procs.length := by
  have h : ((payflow examplePlatform).run (init _) justSucceeded).bind (fun s₁ =>
      ((payflow examplePlatform).run s₁ (createRefundScript 2 partialRefund 10)).bind
        fun s₀ =>
        ((payflow examplePlatform).step s₀ (.start (.task 0))).bind fun s₂ =>
          ((payflow examplePlatform).run s₂ (quiet 3 3)).map fun s =>
            ((s₁.db.payment? (exampleUuid 1)).map (·.status),
              (s₀.world.messages[0]?).map (·.task), asksPayment s s₀.procs.length)) =
      some (some .succeeded, some (.processPayment (exampleUuid 1) .success), true) := by
    decide +kernel
  obtain ⟨s₁, hs₁, h⟩ := Option.bind_eq_some_iff.mp h
  obtain ⟨s₀, hs₀, h⟩ := Option.bind_eq_some_iff.mp h
  obtain ⟨s₂, hs₂, h⟩ := Option.bind_eq_some_iff.mp h
  obtain ⟨s, hs, h⟩ := Option.map_eq_some_iff.mp h
  simp only [Prod.mk.injEq, Option.map_eq_some_iff] at h
  obtain ⟨⟨row, hrow, hst⟩, ⟨m, hm, htask⟩, hasks⟩ := h
  exact ⟨s₁, s₀, s₂, s, row, m, .run hs₁, hrow, hst, .run hs₀, hm, htask, hs₂, .run hs,
    not_harmless_of_asks hasks⟩

end Payflow.Safety
