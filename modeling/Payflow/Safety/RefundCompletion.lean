import Payflow.Safety.InFlight
import Payflow.Spec.Events
import Payflow.Spec.RefundProtocol

/-! # The completion of refunds

A refund ends in two transactions, and a task that is delivered again looks at the status of the
refund only. The ledger reports the completion of a refund once, and a payment waits for no refund
that has ended, as long as no execution is killed between the two transactions and none records a
success that is recorded already (`Careful`). -/

namespace Payflow.Safety

open Payflow.Lib Payflow.Model Payflow.Spec

/-- The transactions that end the refund. -/
def Ending (q : Uuid) (b : Block) : Prop :=
  b = .completeSuccessfulRefund q ∨ b = .restorePaymentAfterFailedRefund q

/-- What the ledger and the statuses have to do with the transactions that are due: `g` has for each
process the one that it has to call next. -/
structure Tidy (D : Db) (g : ℕ → Option Block) : Prop where
  one : ∀ q i j, g i = some (.completeSuccessfulRefund q) →
    g j = some (.completeSuccessfulRefund q) → i = j
  due : ∀ q i, g i = some (.completeSuccessfulRefund q) →
    (∃ refund, D.refund? q = some refund ∧ refund.status = .succeeded) ∧ completions D q = 0
  succeeded : ∀ q refund, D.refund? q = some refund → refund.status = .succeeded →
    completions D q = 1 ∨ ∃ i, g i = some (.completeSuccessfulRefund q)
  rest : ∀ q, (∀ refund, D.refund? q = some refund → refund.status ≠ .succeeded) →
    completions D q = 0
  pending : ∀ p row, D.payment? p = some row → row.status = .refundPending →
    ∃ q refund, (refundIds D p).getLast? = some q ∧ D.refund? q = some refund ∧
      (InFlight refund ∨ ∃ i b, g i = some b ∧ Ending q b)

section commit

variable {P : Platform} {b : Block} {now : ℕ} {D : Db} {ws : List Write} {r : BRes b}
  {g : ℕ → Option Block} {pid : ℕ} {k : Option Uuid}

theorem refund_after (hi : Inv D) (hreq : Requires b D) (h : Does P b now D ws r) {q : Uuid}
    {refund : Refund} (hq : D.refund? q = some refund) :
    ∃ refund', (store.applyAll D ws).refund? q = some refund' ∧
      refund'.paymentId = refund.paymentId ∧
      (refund'.status = refund.status ∨ RefundMove q b refund.status refund'.status) := by
  obtain ⟨refund', hq', cols, rfl, -⟩ := (keep_of_does hi hreq h).2.refund hq
  refine ⟨_, hq', rfl, ?_⟩
  have hstep := refund_step hreq h q
  rw [hq, hq'] at hstep
  cases hstep with
  | keep he => exact Or.inl he
  | move hm => exact Or.inr hm

theorem succeeded_after (hi : Inv D) (hreq : Requires b D) (h : Does P b now D ws r) {q : Uuid}
    {refund : Refund} (hq : D.refund? q = some refund) (hs : refund.status = .succeeded) :
    ∃ refund', (store.applyAll D ws).refund? q = some refund' ∧ refund'.status = .succeeded := by
  obtain ⟨refund', hq', -, he | hm⟩ := refund_after hi hreq h hq
  · exact ⟨refund', hq', he.trans hs⟩
  · rw [hs] at hm
    generalize refund'.status = st at hm
    cases hm with
    | transition hv _ => simp [validRefundTransitions] at hv

theorem followUp_complete {q : Uuid} (h : followUp b = some (.completeSuccessfulRefund q)) :
    ∃ type provider failure, b = .recordRefundTransition q type .succeeded provider failure := by
  cases b with
  | recordRefundTransition q' type new provider failure =>
    cases new with
    | succeeded =>
      obtain rfl := Block.completeSuccessfulRefund.inj (Option.some.inj h)
      exact ⟨type, provider, failure, rfl⟩
    | failed => simp [followUp] at h
    | _ => simp [followUp] at h
  | _ => simp [followUp] at h

theorem followUp_ending {q : Uuid} (h : Ending q b) : followUp b = none := by
  rcases h with rfl | rfl <;> rfl

/-- The transaction that ends the refund ends the wait of its payment, if the refund is the last one
of the payment. -/
theorem released_of_ending (hi : Inv D) (hreq : Requires b D) (h : Does P b now D ws r) {q p : Uuid}
    (hb : Ending q b) {refund : Refund} (hq : D.refund? q = some refund)
    (hp : refund.paymentId = p) (hlast : (refundIds D p).getLast? = some q) {row row' : Payment}
    (hrow : D.payment? p = some row) (hs : row.status = .refundPending)
    (hrow' : (store.applyAll D ws).payment? p = some row') : row'.status ≠ .refundPending := by
  rcases hb with rfl | rfl
  · obtain ⟨refund₁, row₁, total, event, outbox, hq₁, hrow₁, -, -, rfl⟩ := h
    obtain rfl := Option.some.inj (hq.symm.trans hq₁)
    rw [hp, hrow] at hrow₁
    obtain rfl := Option.some.inj hrow₁
    obtain rfl := payment_id hrow
    obtain rfl := Option.some.inj (hrow'.symm.trans (payment?_update_self hrow _))
    show statusAfterRefund total row.amountCents ≠ _
    unfold statusAfterRefund
    split_ifs <;> simp
  · rcases h with ⟨rfl, D₀, hi₀, hle, refund₀, hq₀, hrow₀⟩ | ⟨refund₁, row₁, hq₁, hrow₁, -, rfl⟩
    · -- the payment did not wait when it was looked at, so it waits for a later refund
      exfalso
      obtain ⟨refund₁, hq₁, cols, rfl, -⟩ := hle.refund hq₀
      obtain rfl := Option.some.inj (hq.symm.trans hq₁)
      have hp : refund₀.paymentId = p := hp
      obtain ⟨row₀, hp₀⟩ := Option.isSome_iff_exists.mp (payment_of_refund hi₀ hq₀)
      have hwait := hle.pending p row₀ row (hp ▸ hp₀) hrow hs
      have hlt := hwait.resolve_left (hrow₀ row₀ hp₀)
      obtain ⟨new, hnew⟩ := refundIds_grown hle.toGrown p
      have hmem : q ∈ refundIds D₀ p := (mem_refundIds hi₀).mpr ⟨refund₀, hq₀, hp⟩
      have hne : new ≠ [] := by
        rintro rfl
        have hlen := congrArg List.length hnew
        simp only [refundIds, List.length_map, List.append_nil] at hlen
        omega
      have hnodup := nodup_refundIds hi p
      rw [hnew] at hlast hnodup
      rw [List.getLast?_append_of_ne_nil _ hne] at hlast
      exact (List.nodup_append'.mp hnodup).2.2 hmem (List.mem_of_getLast? hlast)
    · obtain rfl := Option.some.inj (hq.symm.trans hq₁)
      rw [hp, hrow] at hrow₁
      obtain rfl := Option.some.inj hrow₁
      obtain rfl := payment_id hrow
      obtain rfl := Option.some.inj (hrow'.symm.trans (payment?_update_self hrow _))
      simp

/-- The last refund of a payment that waits after a commit: it is new, or it was the last one of the
payment when the payment waited before. -/
theorem last_before (hi : Inv D) (hreq : Requires b D) (h : Does P b now D ws r) {p : Uuid}
    {row' : Payment} (hp' : (store.applyAll D ws).payment? p = some row')
    (hs' : row'.status = .refundPending) :
    (∃ q refund', (refundIds (store.applyAll D ws) p).getLast? = some q ∧
      (store.applyAll D ws).refund? q = some refund' ∧ InFlight refund') ∨
    (refundIds (store.applyAll D ws) p = refundIds D p ∧
      ∃ row, D.payment? p = some row ∧ row.status = .refundPending) := by
  have hi' := (keep_of_does hi hreq h).1
  have hstep := payment_step hreq h p
  rw [hp'] at hstep
  generalize hp : D.payment? p = before at hstep
  cases before with
  | none =>
    cases hstep with
    | new => simp [newPayment] at hs'
  | some row =>
    by_cases hs : row.status = .refundPending
    · refine Or.inr ⟨?_, row, rfl, hs⟩
      rw [refundIds_applyAll]
      rcases newRefunds_of_does h with hnew | ⟨refund, row₁, hnew, hp₁, hs₁, -⟩
      · simp [hnew]
      · have hne : refund.paymentId ≠ p := by
          rintro rfl
          obtain rfl := Option.some.inj (hp.symm.trans hp₁)
          simp [hs] at hs₁
        simp [hnew, hne]
    · -- the payment has just begun to wait, with a new refund
      rcases pending_of_does hreq h hp hp' hs' with hs₁ | ⟨id, hids⟩
      · exact absurd hs₁ hs
      have hmem : id ∈ refundIds (store.applyAll D ws) p := by simp [hids]
      obtain ⟨refund', hq', hpid⟩ := (mem_refundIds hi').mp hmem
      refine Or.inl ⟨id, refund', by simp [hids], hq', ?_⟩
      have hrefund := refund_step hreq h id
      rw [hq'] at hrefund
      generalize hq : D.refund? id = old at hrefund
      cases old with
      | none =>
        cases hrefund with
        | new => exact Or.inl rfl
      | some refund =>
        obtain ⟨refund₁, hq₁, hpid₁, -⟩ := refund_after hi hreq h hq
        obtain rfl := Option.some.inj (hq₁.symm.trans hq')
        have hold : id ∈ refundIds D p := (mem_refundIds hi).mpr ⟨refund, hq, hpid₁ ▸ hpid⟩
        have hnodup := nodup_refundIds hi' p
        rw [hids] at hnodup
        exact absurd (by simp) ((List.nodup_append'.mp hnodup).2.2 hold)

/-- **A commit** keeps the ledger in order, unless it records a success that is recorded already. -/
theorem Tidy.commit (ht : Tidy D g) (hi : Inv D) (hreq : Requires b D) (h : Does P b now D ws r)
    (hallow : (refundProtocol k).allow (g pid) (.txn b))
    (hC : ∀ q type provider failure, b = .recordRefundTransition q type .succeeded provider failure →
      ∀ refund, D.refund? q = some refund → refund.status ≠ .succeeded) :
    Tidy (store.applyAll D ws) (Function.update g pid (followUp b)) := by
  have hcount := completions_of_does hreq h
  have hcalled : ∀ b', g pid = some b' → b' = b := by
    intro b' hg
    rw [hg] at hallow
    exact (Call.txn.inj hallow).symm
  have hdue : ∀ q, Ending q b → g pid = some b := by
    intro q hb
    cases hg : g pid with
    | none =>
      rw [hg] at hallow
      rcases hb with rfl | rfl <;> exact hallow.elim
    | some b' => rw [hcalled b' hg]
  have hcases : ∀ i b', Function.update g pid (followUp b) i = some b' →
      (i ≠ pid ∧ g i = some b') ∨ (i = pid ∧ followUp b = some b') := by
    intro i b' hg
    by_cases hi : i = pid
    · subst hi
      rw [Function.update_self] at hg
      exact Or.inr ⟨rfl, hg⟩
    · rw [Function.update_of_ne hi] at hg
      exact Or.inl ⟨hi, hg⟩
  have hkeep : ∀ i b', g i = some b' → b' ≠ b →
      Function.update g pid (followUp b) i = some b' := by
    intro i b' hg hne
    have hi : i ≠ pid := fun hi => hne (hcalled b' (hi ▸ hg))
    rwa [Function.update_of_ne hi]
  refine ⟨?one, ?due, ?succeeded, ?rest, ?pending⟩
  case one =>
    have hnew : ∀ q i, g i = some (.completeSuccessfulRefund q) →
        followUp b ≠ some (.completeSuccessfulRefund q) := by
      intro q i hg hf
      obtain ⟨type, provider, failure, rfl⟩ := followUp_complete hf
      obtain ⟨⟨refund, hq, hs⟩, -⟩ := ht.due q i hg
      exact hC q _ _ _ rfl refund hq hs
    intro q i j hi' hj'
    rcases hcases i _ hi' with ⟨-, hgi⟩ | ⟨hip, hfi⟩
    · rcases hcases j _ hj' with ⟨-, hgj⟩ | ⟨-, hfj⟩
      · exact ht.one q i j hgi hgj
      · exact absurd hfj (hnew q i hgi)
    · rcases hcases j _ hj' with ⟨-, hgj⟩ | ⟨hjp, -⟩
      · exact absurd hfi (hnew q j hgj)
      · rw [hip, hjp]
  case due =>
    intro q i hg
    rcases hcases i _ hg with ⟨hne, hg⟩ | ⟨rfl, hf⟩
    · obtain ⟨⟨refund, hq, hs⟩, hzero⟩ := ht.due q i hg
      refine ⟨succeeded_after hi hreq h hq hs, ?_⟩
      have hb : b ≠ .completeSuccessfulRefund q := fun hb =>
        hne (ht.one q i pid hg (hb ▸ hdue q (Or.inl hb)))
      rw [hcount, hzero, completionsOf_eq hb]
    · obtain ⟨type, provider, failure, rfl⟩ := followUp_complete hf
      refine ⟨status_of_recordRefundTransition (Or.inl rfl) h (Le.refl _), ?_⟩
      rw [hcount, ht.rest q (hC q _ _ _ rfl)]
      rfl
  case succeeded =>
    intro q refund' hq' hs'
    have hstep := refund_step hreq h q
    rw [hq'] at hstep
    generalize hq : D.refund? q = before at hstep
    cases hstep with
    | new => simp [newRefund] at hs'
    | keep he =>
      rcases ht.succeeded q _ hq (he ▸ hs') with hone | ⟨i, hg⟩
      · left
        have hb : b ≠ .completeSuccessfulRefund q := by
          intro hb
          have hzero := (ht.due q pid (hb ▸ hdue q (Or.inl hb))).2
          omega
        rw [hcount, hone, completionsOf_eq hb]
      · by_cases hb : b = .completeSuccessfulRefund q
        · left
          rw [hcount, (ht.due q i hg).2, hb]
          simp [completionsOf]
        · exact Or.inr ⟨i, hkeep i _ hg (Ne.symm hb)⟩
    | move hm =>
      rw [hs'] at hm
      generalize hst : RefundStatus.succeeded = st at hm
      cases hm with
      | transition hv _ =>
        subst hst
        exact Or.inr ⟨pid, Function.update_self _ _ _⟩
  case rest =>
    intro q hq'
    have hq : ∀ refund, D.refund? q = some refund → refund.status ≠ .succeeded := by
      intro refund hq hs
      obtain ⟨refund', hq₁, hs'⟩ := succeeded_after hi hreq h hq hs
      exact hq' refund' hq₁ hs'
    have hb : b ≠ .completeSuccessfulRefund q := by
      intro hb
      obtain ⟨⟨refund, hq₁, hs⟩, -⟩ := ht.due q pid (hb ▸ hdue q (Or.inl hb))
      exact hq refund hq₁ hs
    rw [hcount, ht.rest q hq, completionsOf_eq hb]
  case pending =>
    intro p row' hp' hs'
    rcases last_before hi hreq h hp' hs' with
      ⟨q, refund', hlast, hq', hf⟩ | ⟨hids, row, hp, hs⟩
    · exact ⟨q, refund', hlast, hq', Or.inl hf⟩
    obtain ⟨q, refund, hlast, hq, hwait⟩ := ht.pending p row hp hs
    obtain ⟨refund₀, hq₀, hpid⟩ := (mem_refundIds hi).mp (List.mem_of_getLast? hlast)
    obtain rfl := Option.some.inj (hq.symm.trans hq₀)
    obtain ⟨refund', hq', -, hmove⟩ := refund_after hi hreq h hq
    refine ⟨q, refund', hids ▸ hlast, hq', ?_⟩
    rcases hwait with hf | ⟨i, b', hg, hb'⟩
    · rcases hmove with he | hm
      · exact Or.inl (by unfold InFlight at *; rwa [he])
      · generalize hst : refund.status = st at hm
        generalize hst' : refund'.status = st' at hm
        cases hm with
        | transition hv _ =>
          -- a last status makes its transaction follow
          cases st' with
          | created => exact Or.inl (Or.inl hst')
          | processing => exact Or.inl (Or.inr hst')
          | succeeded => exact Or.inr ⟨pid, _, Function.update_self _ _ _, Or.inl rfl⟩
          | failed => exact Or.inr ⟨pid, _, Function.update_self _ _ _, Or.inr rfl⟩
    · by_cases hbb : b' = b
      · subst hbb
        exact absurd hs' (released_of_ending hi hreq h hb' hq hpid hlast hp hs hp')
      · exact Or.inr ⟨i, b', hkeep i b' hg hbb, hb'⟩

end commit

/-! ### Runs -/

section runs

variable {P : Platform}

/-- An execution stands between the two transactions that end the refund: it has recorded the last
status, and has not yet committed the transaction that follows. -/
def Between (s : State P) (q : Uuid) (pid : ℕ) : Prop :=
  ∃ x st b k, s.procs[pid]? = some ⟨x, st⟩ ∧ st.erase = .run (.op (.txn b) k) ∧ Ending q b

/-- No execution is killed between the two transactions, and no success is recorded twice. -/
def Careful (s : State P) (ev : Event Block Ext (Start P)) : Prop :=
  (∀ pid, ev = .kill pid → ∀ q, ¬ Between s q pid) ∧
  ∀ pid q type provider failure,
    ev = .commit pid (.recordRefundTransition q type .succeeded provider failure) →
      ∀ refund, s.db.refund? q = some refund → refund.status ≠ .succeeded

/-- No execution and no message of a task of the refund remains. -/
def Finished (s : State P) (q : Uuid) : Prop :=
  ∀ i m scenario, s.world.messages[i]? = some m → m.task = .processRefund q scenario →
    m.acked = true ∧ ∀ p ∈ s.procs, p.origin = .task i → p.status.live = false

/-- A transaction is due only in an execution of a task of its refund. -/
def Owned (w : World) (procs : List (Machine.Proc (payflow P))) (g : ℕ → Option Block) : Prop :=
  ∀ pid b, g pid = some b → ∃ p q, procs[pid]? = some p ∧ p.status.live = true ∧
    refundRole w p.origin = some (some q) ∧ Ending q b

/-- What holds between transactions. -/
structure Completing (s : State P) (g : ℕ → Option Block) : Prop where
  tidy : Tidy s.db g
  owned : Owned s.world s.procs g

theorem Owned.set {w w' : World} {procs : List (Machine.Proc (payflow P))} {g : ℕ → Option Block}
    (ho : Owned w procs g) (hw : ∀ x q, refundRole (P := P) w x = some q → refundRole w' x = some q)
    {pid : ℕ} {p p' : Machine.Proc (payflow P)} (hp : procs[pid]? = some p) {due : Option Block}
    (hdue : ∀ b, due = some b → ∃ q, p'.status.live = true ∧
      refundRole w' p'.origin = some (some q) ∧
      Ending q b) : Owned w' (procs.set pid p') (Function.update g pid due) := by
  intro i b hg
  have hlt := (List.getElem?_eq_some_iff.mp hp).1
  by_cases hi : i = pid
  · subst hi
    rw [Function.update_self] at hg
    obtain ⟨q, hlive, hrole, hb⟩ := hdue b hg
    exact ⟨p', q, by simp [hlt], hlive, hrole, hb⟩
  · rw [Function.update_of_ne hi] at hg
    obtain ⟨p₁, q, hp₁, hlive, hrole, hb⟩ := ho i b hg
    exact ⟨p₁, q, by rwa [List.getElem?_set_ne (Ne.symm hi)], hlive, hw _ _ hrole, hb⟩

theorem Owned.stay {w w' : World} {procs : List (Machine.Proc (payflow P))} {g : ℕ → Option Block}
    (ho : Owned w procs g) (hw : ∀ x q, refundRole (P := P) w x = some q → refundRole w' x = some q)
    {pid : ℕ} {p p' : Machine.Proc (payflow P)} (hp : procs[pid]? = some p) (hg : g pid = none) :
    Owned w' (procs.set pid p') g := by
  have hset : Owned w' (procs.set pid p') (Function.update g pid none) := ho.set hw hp (by simp)
  rwa [← hg, Function.update_eq_self] at hset

/-- A process for which a transaction is due stands between the two. -/
theorem between_of_due {s : State P} {g : ℕ → Option Block}
    (hF : Machine.Followed (refundDiscipline P) s g) (ho : Owned s.world s.procs g) {pid : ℕ}
    {b : Block} (hg : g pid = some b) :
    ∃ x st q, s.procs[pid]? = some ⟨x, st⟩ ∧ st.live = true ∧
      refundRole s.world x = some (some q) ∧ Ending q b ∧ Between s q pid := by
  obtain ⟨⟨x, st⟩, q, hp, hlive, hrole, hb⟩ := ho pid b hg
  refine ⟨x, st, q, hp, hlive, hrole, hb, ?_⟩
  obtain ⟨i, -, hagrees⟩ := hF pid x st hp
  rw [hg] at hagrees
  have hnext : ∀ p : Proc Ans, Ends i (some b) p → ∃ k, p = .op (.txn b) k := by
    intro p hends
    cases p with
    | pure a => exact absurd hends (by simp [Ends, Prog.Follows])
    | raise e => exact absurd hends (by simp [Ends, Prog.Follows])
    | op o k =>
      obtain ⟨rfl, -⟩ := hends
      exact ⟨k, rfl⟩
  cases st with
  | run p =>
    obtain ⟨k, rfl⟩ := hnext p hagrees
    exact ⟨x, _, b, k, hp, rfl, hb⟩
  | inTxn b' t k =>
    obtain ⟨k', hk⟩ := hnext _ hagrees
    exact ⟨x, _, b, k', hp, congrArg _ hk, hb⟩
  | done out => simp [Status.live] at hlive
  | killed => simp [Status.live] at hlive

theorem followUp_some {b b' : Block} (h : followUp b = some b') :
    ∃ q, Ending q b' ∧ ∀ i, mayDo i (.txn b) → i = some q := by
  cases b with
  | recordRefundTransition q type new provider failure =>
    cases new with
    | succeeded => exact ⟨q, Or.inl (Option.some.inj h).symm, fun i hi => hi⟩
    | failed => exact ⟨q, Or.inr (Option.some.inj h).symm, fun i hi => hi⟩
    | _ => simp [followUp] at h
  | _ => simp [followUp] at h

/-- **A step between transactions** that meets the condition keeps what holds between them. -/
theorem completing_step {s s' : State P} {g g' : ℕ → Option Block} {ev : Event Block Ext (Start P)}
    (hg : Completing s g) (hF : Machine.Followed (refundDiscipline P) s g) (hC : Careful s ev)
    (hs : Machine.Guided (refundDiscipline P) rely (contract P) s g ev s' g') :
    Completing s' g' := by
  have hlawful := refund_lawful P
  obtain ⟨htidy, howned⟩ := hg
  cases hs with
  | start hp =>
    have hnone : g s.procs.length = none := by
      cases hdue : g s.procs.length with
      | none => rfl
      | some b =>
        obtain ⟨p, q, hp, -⟩ := howned _ b hdue
        simp at hp
    have hupdate : Function.update g s.procs.length (refundDiscipline P).first = g := by
      show Function.update g s.procs.length none = g
      rw [← hnone, Function.update_eq_self]
    rw [hupdate]
    refine ⟨htidy, fun pid b hdue => ?_⟩
    obtain ⟨p, q, hp, hrest⟩ := howned pid b hdue
    exact ⟨p, q, by rw [List.getElem?_append_left (List.getElem?_eq_some_iff.mp hp).1, hp], hrest⟩
  | @commit pid x b k now ws i r hp hi hallow hnow hinv hpre hpost =>
    refine ⟨?_, ?_⟩
    · exact htidy.commit hinv hpre hpost hallow fun q type provider failure hb refund hq =>
        hC.2 pid q type provider failure (hb ▸ rfl) refund hq
    · refine howned.set (fun _ _ hrole => hrole) hp fun b' hb' => ?_
      have hb' : followUp b = some b' := hb'
      obtain ⟨q, hend, hmay⟩ := followUp_some hb'
      cases hdue : g pid with
      | none =>
        rw [hdue] at hallow
        obtain rfl := hmay i hallow
        exact ⟨q, rfl, hi, hend⟩
      | some b₀ =>
        -- a transaction that ends a refund makes nothing follow
        rw [hdue] at hallow
        obtain rfl := Call.txn.inj hallow
        obtain ⟨-, q₀, -, -, -, hend₀⟩ := howned pid b hdue
        rw [followUp_ending hend₀] at hb'
        simp at hb'
  | @rollback pid x b k D₀ e i hp hi hallow hle hinv hpre hfail =>
    have hnone : g pid = none := by
      cases hdue : g pid with
      | none => rfl
      | some b₀ =>
        rw [hdue] at hallow
        obtain rfl := Call.txn.inj hallow
        obtain ⟨-, q₀, -, -, -, rfl | rfl⟩ := howned pid b hdue
        · exact hfail.elim
        · exact hfail.elim
    have hupdate : Function.update g pid ((refundProtocol i).next (g pid) (.txn b)
        (.error e : Except Exn (BRes b))) = g := by
      show Function.update g pid none = g
      rw [← hnone, Function.update_eq_self]
    refine hupdate.symm ▸ ⟨htidy, howned.stay (fun _ _ hrole => hrole) hp hnone⟩
  | @ext pid pick x e k w i r hp hi hallow hx =>
    have hnone : g pid = none := by
      cases hdue : g pid with
      | none => rfl
      | some b₀ =>
        rw [hdue] at hallow
        exact absurd hallow (by simp [refundDiscipline, refundProtocol])
    have hupdate : Function.update g pid ((refundProtocol i).next (g pid) (.ext e) r) = g := by
      show Function.update g pid none = g
      rw [← hnone, Function.update_eq_self]
    refine hupdate.symm ▸ ⟨htidy, howned.stay (fun _ _ => hlawful.ext hx) hp hnone⟩
  | @finishOk pid x a i hp hi hret =>
    exact ⟨htidy, howned.stay (fun _ _ => hlawful.finish x (.ok a)) hp hret⟩
  | @finishError pid x e i hp hi hraise =>
    exact ⟨htidy, howned.stay (fun _ _ => hlawful.finish x (.error e)) hp hraise⟩
  | @kill pid x st hp hlive =>
    have hnone : g pid = none := by
      cases hdue : g pid with
      | none => rfl
      | some b =>
        obtain ⟨-, -, q, -, -, -, -, hbetween⟩ := between_of_due hF howned hdue
        exact absurd hbetween (hC.1 pid rfl q)
    exact ⟨htidy, howned.stay (fun _ _ hrole => hrole) hp hnone⟩
  | tick => exact ⟨htidy, howned⟩

theorem completing_init : Completing (init P) fun _ => none := by
  refine ⟨⟨?_, ?_, ?_, ?_, ?_⟩, ?_⟩
  · simp
  · simp
  · simp [init, Db.refund?, Db.empty]
  · simp [init, completions, Db.empty]
  · simp [init, Db.payment?, Db.empty]
  · simp [Owned]

theorem between_erase {s : State P} {q : Uuid} {pid : ℕ}
    (h : Between (Machine.erase (payflow P) s) q pid) : Between s q pid := by
  obtain ⟨x, st, b, k, hp, hst, hb⟩ := h
  simp only [Machine.erase, List.getElem?_map, Option.map_eq_some_iff] at hp
  obtain ⟨⟨y, st'⟩, hp, he⟩ := hp
  obtain ⟨rfl, rfl⟩ := Machine.Proc.mk.inj he
  refine ⟨y, st', b, k, hp, ?_, hb⟩
  cases st' <;> exact hst

/-- **Refunds are completed.** In every run in which no execution is killed between the two
transactions that end a refund and no success is recorded twice, a refund whose executions are all
over is completed in the ledger once if it is `SUCCEEDED`; and if it has ended, its payment is not
`REFUND_PENDING`, unless another refund of the payment is in flight or about to end. -/
theorem refund_completed {s : State P}
    (h : Machine.ReachableBy (payflow P) (Machine.OnEvents (payflow P) Careful) (init P) s) {q : Uuid}
    {refund : Refund} (hq : s.db.refund? q = some refund) (hfin : Finished s q) :
    (refund.status = .succeeded → completions s.db q = 1) ∧
    (refund.status = .succeeded ∨ refund.status = .failed →
      (∀ q' refund', s.db.refund? q' = some refund' →
        refund'.paymentId = refund.paymentId → q' ≠ q →
        ¬ InFlight refund' ∧ ∀ pid, ¬ Between s q' pid) →
      ∀ row, s.db.payment? refund.paymentId = some row → row.status ≠ .refundPending) := by
  have hinv := (h.good (fulfils P) (good_init P)).inv
  obtain ⟨g, hF, htidy, howned⟩ := h.guided (fulfils P) (refund_lawful P) (J := Completing)
    (good_init P) rfl completing_init fun hg hF hC hs => completing_step hg hF hC hs
  -- nothing is due in an execution that is over
  have hnot : ∀ i b, g i = some b → ¬ Ending q b := by
    intro i b hg hb
    obtain ⟨x, st, q', hp, hlive, hrole, hb', -⟩ := between_of_due hF howned hg
    obtain rfl : q' = q := by
      rcases hb with rfl | rfl <;> rcases hb' with hb' | hb' <;> simp_all
    simp only [Machine.erase, List.getElem?_map, Option.map_eq_some_iff] at hp
    obtain ⟨p, hp, he⟩ := hp
    obtain ⟨rfl, rfl⟩ := Machine.Proc.mk.inj he
    rw [Status.erase_live] at hlive
    generalize hx : p.origin = x at hrole
    cases x with
    | task j =>
      obtain ⟨t, ht, hr⟩ := Option.map_eq_some_iff.mp hrole
      obtain ⟨m, hm, rfl⟩ := Option.map_eq_some_iff.mp ht
      cases htask : m.task with
      | processPayment p' scenario => simp [htask, refundOf] at hr
      | processRefund q₀ scenario =>
        rw [htask] at hr
        obtain rfl := Option.some.inj hr
        have hdead := (hfin j m scenario hm htask).2 p (List.mem_of_getElem? hp) hx
        rw [hdead] at hlive
        simp at hlive
    | _ => simp [refundRole] at hrole
  constructor
  · intro hs
    rcases htidy.succeeded q refund hq hs with hone | ⟨i, hg⟩
    · exact hone
    · exact absurd (Or.inl rfl) (hnot i _ hg)
  · intro hs hothers row hp hpending
    obtain ⟨q', refund', hlast, hq', hwait⟩ := htidy.pending _ row hp hpending
    obtain ⟨refund₁, hq₁, hpid⟩ := (mem_refundIds hinv).mp (List.mem_of_getLast? hlast)
    obtain rfl := Option.some.inj (hq₁.symm.trans hq')
    by_cases hqq : q' = q
    · subst hqq
      obtain rfl := Option.some.inj (hq.symm.trans hq₁)
      rcases hwait with hf | ⟨i, b, hg, hb⟩
      · rcases hs with hs | hs <;> simp [InFlight, hs] at hf
      · exact hnot i b hg hb
    · obtain ⟨hf, hbetween⟩ := hothers q' refund₁ hq₁ hpid hqq
      rcases hwait with hf' | ⟨i, b, hg, hb⟩
      · exact hf hf'
      · obtain ⟨x, st, q₂, -, -, -, hb₂, hbtw⟩ := between_of_due hF howned hg
        obtain rfl : q₂ = q' := by
          rcases hb with rfl | rfl <;> rcases hb₂ with hb₂ | hb₂ <;> simp_all
        exact hbetween i (between_erase hbtw)

end runs

/-- Enough for `Careful`: nothing is killed, and no success is recorded twice. -/
def carefulCheck {P : Platform} (s : State P) (a : Action (Start P) Pick) : Bool :=
  match Machine.event (payflow P) s a with
  | some (.kill _) => false
  | some (.commit _ (.recordRefundTransition q _ .succeeded _ _)) =>
    (s.db.refund? q).all fun refund => refund.status ≠ .succeeded
  | _ => true

theorem careful_of_check {P : Platform} {s : State P} {a : Action (Start P) Pick}
    (h : carefulCheck s a = true) : Machine.OnEvents (payflow P) Careful s a := by
  intro ev hev
  unfold carefulCheck at h
  rw [hev] at h
  constructor
  · rintro pid rfl
    simp at h
  · rintro pid q type provider failure rfl refund hq
    rw [Machine.erase_db] at hq
    simpa [hq] using h

/-- No process and no message is left. -/
def idle {P : Platform} (s : State P) : Bool :=
  s.world.messages.all (·.acked) && s.procs.all fun p => !p.status.live

theorem finished_of_idle {P : Platform} {s : State P} (h : idle s = true) (q : Uuid) :
    Finished s q := by
  simp only [idle, Bool.and_eq_true, List.all_eq_true, Bool.not_eq_true'] at h
  intro i m scenario hm _
  exact ⟨h.1 m (List.mem_of_getElem? hm), fun p hp _ => h.2 p hp⟩

/-- A refund that goes through. -/
theorem refund_completed_oneRefund : ∃ s : State examplePlatform,
    (s.db.refund? (exampleUuid 10)).map (·.status) = some .succeeded ∧
      completions s.db (exampleUuid 10) = 1 ∧
      ∀ row, s.db.payment? (exampleUuid 1) = some row → row.status ≠ .refundPending := by
  have h : ((payflow examplePlatform).runWhen carefulCheck (init _) (onePayment ++ oneRefund)).map
      (fun s => (idle s, s.db.refunds.map (fun r => (r.id, r.paymentId, r.status)))) =
      some (true, [(exampleUuid 10, exampleUuid 1, .succeeded)]) := by decide +kernel
  obtain ⟨s, hs, h⟩ := Option.map_eq_some_iff.mp h
  obtain ⟨hidle, hrows⟩ := Prod.mk.inj h
  obtain ⟨refund, hrefund, hrow⟩ : ∃ refund, s.db.refunds = [refund] ∧
      (refund.id, refund.paymentId, refund.status) =
        (exampleUuid 10, exampleUuid 1, RefundStatus.succeeded) := by
    simpa [List.map_eq_singleton_iff] using hrows
  obtain ⟨hid, hpid, hst⟩ : refund.id = exampleUuid 10 ∧ refund.paymentId = exampleUuid 1 ∧
      refund.status = .succeeded := by simpa using hrow
  have hq : s.db.refund? (exampleUuid 10) = some refund := by simp [Db.refund?, hrefund, hid]
  obtain ⟨hone, hwait⟩ := refund_completed
    (.runWhen (fun s a => careful_of_check) .refl hs) hq (finished_of_idle hidle _)
  refine ⟨s, by rw [hq, Option.map_some, hst], hone hst, fun row hp => ?_⟩
  refine hwait (Or.inl hst) (fun q' refund' hq' _ hne => ?_) row (hpid ▸ hp)
  have hmem := (find?_key hq').1
  rw [hrefund, List.mem_singleton] at hmem
  subst hmem
  exact absurd (refund_id hq') (by rw [hid]; exact Ne.symm hne)

/-- An execution is killed after it has recorded the success; the message is delivered again, and
the second execution finds nothing to do. -/
def killedBetween : List Act :=
  onePayment ++ createRefundScript 2 partialRefund 10 ++
    startRefundScript 3 1 14 ++ succeedRefundScript 3 16 ++ [.kill 3, .start (.task 1)] ++ quiet 4 4

/-- The refund is `SUCCEEDED` and all its executions are over, but the ledger does not report its
completion, and its payment is still `REFUND_PENDING`. -/
theorem refund_not_completed : ∃ s : State examplePlatform, Reachable examplePlatform s ∧
    ∃ refund row, s.db.refund? (exampleUuid 10) = some refund ∧ refund.status = .succeeded ∧
      Finished s (exampleUuid 10) ∧ completions s.db (exampleUuid 10) = 0 ∧
      (∀ q' refund', s.db.refund? q' = some refund' → q' ≠ exampleUuid 10 → ¬ InFlight refund') ∧
      s.db.payment? refund.paymentId = some row ∧ row.status = .refundPending := by
  have h : ((payflow examplePlatform).run (init _) killedBetween).map (fun s =>
      (idle s, completions s.db (exampleUuid 10), s.db.refunds.all (fun r => r.status = .succeeded),
        (s.db.refund? (exampleUuid 10)).map (fun r => r.paymentId),
        (s.db.payment? (exampleUuid 1)).map (·.status))) =
      some (true, 0, true, some (exampleUuid 1), some .refundPending) := by decide +kernel
  obtain ⟨s, hs, h⟩ := Option.map_eq_some_iff.mp h
  simp only [Prod.mk.injEq, Option.map_eq_some_iff, List.all_eq_true, decide_eq_true_eq] at h
  obtain ⟨hidle, hzero, hall, ⟨refund, hq, hpid⟩, row, hp, hst⟩ := h
  refine ⟨s, .run hs, refund, row, hq, hall refund (find?_key hq).1,
    finished_of_idle hidle _, hzero,
    fun q' refund' hq' _ hf => ?_, hpid ▸ hp, hst⟩
  have hs' := hall refund' (find?_key hq').1
  simp [InFlight, hs'] at hf

end Payflow.Safety
