import Payflow.Safety.Ledger
import Payflow.Safety.Lifecycle

/-! # Every change of a status has an outbox row

A transaction that changes the status of a payment or of a refund inserts a row of `outbox_events`
that names it, and one that rolls back inserts none. One transaction forgets its row: the one that
undoes a failed refund (`Undoes`). -/

namespace Payflow.Safety

open Payflow.Lib Payflow.Model Payflow.Spec

variable {P : Platform}

/-- Every payment and every refund whose status the two databases differ in is named by a row. -/
def Announced (D D' : Db) (new : List OutboxEvent) : Prop :=
  (∀ p row row', D.payment? p = some row → D'.payment? p = some row' → row'.status ≠ row.status →
    ∃ o ∈ new, names "payment_id" p o = true) ∧
  ∀ q refund refund', D.refund? q = some refund → D'.refund? q = some refund' →
    refund'.status ≠ refund.status → ∃ o ∈ new, names "refund_id" q o = true

theorem refund_named {b : Block} {now : ℕ} {D : Db} {ws : List Write} {r : BRes b}
    (hreq : Requires b D) (h : Does P b now D ws r) {q : Uuid} {refund refund' : Refund}
    (hq : D.refund? q = some refund) (hq' : (store.applyAll D ws).refund? q = some refund')
    (hst : refund'.status ≠ refund.status) :
    ∃ o ∈ ws.filterMap newOutboxEvent?, names "refund_id" q o = true := by
  have hstep := refund_step hreq h q
  rw [hq, hq'] at hstep
  cases hstep with
  | keep he => exact absurd he hst
  | move hm =>
    generalize hbefore : refund.status = before at hm
    generalize hafter : refund'.status = after at hm
    cases hm with
    | transition hv hmoves =>
      obtain ⟨row, hrow, ⟨-, rfl⟩ | ⟨-, prov, event, outbox, rfl⟩⟩ := h
      · have hsame : some refund' = some refund := hq'.symm.trans hq
        exact absurd (congrArg (·.status) (Option.some.inj hsame)) hst
      · obtain rfl := refund_id hrow
        exact ⟨_, List.mem_singleton_self _, names_aggregate⟩

/-- A commit announces what it changes, unless it releases a payment. -/
theorem announced_of_does {b : Block} {now : ℕ} {D : Db} {ws : List Write} {r : BRes b}
    (hreq : Requires b D) (h : Does P b now D ws r)
    (hno : ∀ q refund, b = .restorePaymentAfterFailedRefund q →
      D.refund? q = some refund → ws = []) :
    Announced D (store.applyAll D ws) (ws.filterMap newOutboxEvent?) := by
  refine ⟨fun p row row' hp hp' hst => ?_, fun q refund refund' hq hq' hst =>
    refund_named hreq h hq hq' hst⟩
  have hb := booked_of_does h p
  rw [hp, hp'] at hb
  generalize (ws.filterMap newPaymentEvent?).filter _ = es at hb
  generalize hos : ws.filterMap newOutboxEvent? = os at hb
  cases hb with
  | untouched he => exact absurd (Option.some.inj he) hst
  | noted he => exact absurd he hst
  | moved _ _ hname => exact ⟨_, List.mem_singleton_self _, hname⟩
  | released hbq hq _ _ _ =>
    obtain rfl := hno _ _ hbq hq
    have hsame : some row' = some row := hp'.symm.trans hp
    exact absurd (congrArg (·.status) (Option.some.inj hsame)) hst

/-- The step commits a transaction. -/
def Commits (s : State P) (a : Action (Start P) Pick) : Prop :=
  ∃ pid pick b now ws, ∃ r : BRes b, a = .step pid pick ∧ Machine.AtCommit s pid b now ws r

/-- **Outbox completeness.** In every reachable state, every step appends its rows to
`outbox_events`: none, unless it commits a transaction; and they name every payment and every refund
whose status the step changes, if and only if the step does not undo a failed refund. -/
theorem outbox_complete {s s' : State P} {a : Action (Start P) Pick} (h : Reachable P s)
    (hs : (payflow P).step s a = some s') :
    ∃ new, s'.db.outboxEvents = s.db.outboxEvents ++ new ∧ (¬ Commits s a → new = []) ∧
      (Announced s.db s'.db new ↔ ∀ p, ¬ Undoes p s a) := by
  obtain ⟨new, hnew, hroll, hann⟩ : ∃ new, s'.db.outboxEvents = s.db.outboxEvents ++ new ∧
      (¬ Commits s a → new = []) ∧ ((∀ p, ¬ Undoes p s a) → Announced s.db s'.db new) := by
    rcases step_commit h hs with
      hdb | ⟨pid, pick, b, now, ws, r, rfl, hcommit, hreq, hdoes, hdb⟩
    · refine ⟨[], by rw [hdb, List.append_nil], fun _ => rfl, fun _ => ?_⟩
      rw [hdb]
      refine ⟨fun p row row' hp hp' hst => ?_, fun q refund refund' hq hq' hst => ?_⟩
      · obtain rfl := Option.some.inj (hp.symm.trans hp')
        exact absurd rfl hst
      · obtain rfl := Option.some.inj (hq.symm.trans hq')
        exact absurd rfl hst
    · refine ⟨ws.filterMap newOutboxEvent?, by rw [hdb, outboxEvents_applyAll], fun hno => ?_,
        fun hno => ?_⟩
      · exact absurd ⟨pid, pick, b, now, ws, r, rfl, hcommit⟩ hno
      · rw [hdb]
        refine announced_of_does hreq hdoes fun q refund hb hq => ?_
        subst hb
        by_contra hws
        exact hno refund.paymentId ⟨pid, pick, q, now, ws, r, refund, rfl, hcommit, hws, hq, rfl⟩
  refine ⟨new, hnew, hroll, fun hall p hno => ?_, hann⟩
  -- nothing is inserted with the release
  obtain ⟨row, row', cols, hrow, hst, hrow', hst', hdb⟩ := undoes_step h hs hno
  obtain ⟨o, ho, -⟩ := hall.1 p row row' hrow hrow' (by rw [hst, hst']; simp)
  have hsame : s'.db.outboxEvents = s.db.outboxEvents := by rw [hdb]; rfl
  rw [hnew] at hsame
  have hempty : new = [] := List.append_right_eq_self.mp hsame
  simp [hempty] at ho

/-- The commit of a payment's first transition. -/
theorem outbox_complete_startPayment : ∃ s s' : State examplePlatform,
    (s.db.outboxEvents.length = 0 ∧ s'.db.outboxEvents.length = 1) ∧
    ∃ new, s'.db.outboxEvents = s.db.outboxEvents ++ new ∧
      (¬ Commits s (.step 1 .nothing) → new = []) ∧
      (Announced s.db s'.db new ↔ ∀ p, ¬ Undoes p s (.step 1 .nothing)) := by
  have h : ((payflow examplePlatform).run (init _) startPayment).bind (fun s =>
      ((payflow examplePlatform).step s (.step 1 .nothing)).map fun s' =>
        (s.db.outboxEvents.length, s'.db.outboxEvents.length)) = some (0, 1) := by decide +kernel
  obtain ⟨s, hs, h⟩ := Option.bind_eq_some_iff.mp h
  obtain ⟨s', hs', h⟩ := Option.map_eq_some_iff.mp h
  exact ⟨s, s', Prod.mk.inj h, outbox_complete (.run hs) hs'⟩

/-- The commit that releases a payment after a failed refund inserts no row. -/
theorem outbox_not_complete : ∃ (s s' : State examplePlatform) (row row' : Payment),
    Reachable examplePlatform s ∧ (payflow examplePlatform).step s (.step 3 .nothing) = some s' ∧
      s.db.payment? (exampleUuid 1) = some row ∧ s'.db.payment? (exampleUuid 1) = some row' ∧
      row'.status ≠ row.status ∧ s'.db.outboxEvents.length = s.db.outboxEvents.length := by
  have h : ((payflow examplePlatform).run (init _) (onePayment ++ failedRefund)).bind (fun s =>
      ((payflow examplePlatform).step s (.step 3 .nothing)).map fun s' =>
        ((s.db.payment? (exampleUuid 1)).map (·.status),
          (s'.db.payment? (exampleUuid 1)).map (·.status),
          decide (s'.db.outboxEvents.length = s.db.outboxEvents.length))) =
      some (some .refundPending, some .succeeded, true) := by decide +kernel
  obtain ⟨s, hs, h⟩ := Option.bind_eq_some_iff.mp h
  obtain ⟨s', hs', h⟩ := Option.map_eq_some_iff.mp h
  simp only [Prod.mk.injEq, Option.map_eq_some_iff, decide_eq_true_eq] at h
  obtain ⟨⟨row, hrow, hst⟩, ⟨row', hrow', hst'⟩, hlen⟩ := h
  refine ⟨s, s', row, row', .run hs, hs', hrow, hrow', ?_, hlen⟩
  rw [hst, hst']
  simp

end Payflow.Safety
