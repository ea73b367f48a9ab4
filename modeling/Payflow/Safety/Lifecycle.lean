import Payflow.Spec.Runs

/-! # The lifecycle of a payment

A payment that has succeeded stays `SUCCEEDED`, `REFUND_PENDING` or `REFUNDED` (`settled_step`), and
every payment with a refund is one of these. Its status only moves along the table of
`record_transition` (`permitted_step`), with one exception: `complete_successful_refund` looks at no
status, and brings a payment that is `SUCCEEDED` again to `REFUNDED`. -/

namespace Payflow.Safety

open Payflow.Lib Payflow.Model Payflow.Spec

variable {P : Platform} {b : Block} {now : ℕ} {D : Db} {ws : List Write} {r : BRes b}

/-! ### Success -/

/-- The statuses of a payment that has succeeded. -/
def settled : List PaymentStatus := [.succeeded, .refundPending, .refunded]

theorem statusAfterRefund_settled (total amount : ℕ) :
    statusAfterRefund total amount ∈ settled := by
  unfold statusAfterRefund
  split_ifs <;> simp [settled]

theorem PaymentMove.settled {p : Uuid} {st st' : PaymentStatus} (h : PaymentMove D p b st st')
    (hs : st ∈ settled) : st' ∈ settled := by
  cases h with
  | transition hv hm => cases st <;> cases st' <;> simp_all [Safety.settled, validTransitions]
  | webhook ht => simp [Safety.settled] at hs
  | reconcile ht => simp [Safety.settled] at hs
  | refund => simp [Safety.settled]
  | complete => exact statusAfterRefund_settled _ _
  | restore => simp [Safety.settled]

theorem settled_step (hreq : Requires b D) (h : Does P b now D ws r) {p : Uuid} {row : Payment}
    (hp : D.payment? p = some row) (hs : row.status ∈ settled) :
    ∃ row', (store.applyAll D ws).payment? p = some row' ∧ row'.status ∈ settled := by
  have hstep := payment_step hreq h p
  rw [hp] at hstep
  generalize (store.applyAll D ws).payment? p = after at hstep
  cases hstep with
  | keep he => exact ⟨_, rfl, he ▸ hs⟩
  | move hm => exact ⟨_, rfl, PaymentMove.settled hm hs⟩

/-- Every refund is one of a payment that has succeeded. -/
def RefundsSettled (D : Db) : Prop :=
  ∀ q refund, D.refund? q = some refund →
    ∃ row, D.payment? refund.paymentId = some row ∧ row.status ∈ settled

theorem refundsSettled_step (hi : Inv D) (hreq : Requires b D) (h : Does P b now D ws r)
    (hr : RefundsSettled D) : RefundsSettled (store.applyAll D ws) := by
  intro q refund' hq'
  have hle := (keep_of_sound hi (sound_of_does hreq h)).2
  have hold : ∀ row, D.refund? q = some row →
      ∃ row, (store.applyAll D ws).payment? refund'.paymentId = some row ∧
        row.status ∈ settled := by
    intro refund hq
    obtain ⟨refund₁, hq₁, cols, rfl, -⟩ := hle.refund hq
    obtain rfl := Option.some.inj (hq₁.symm.trans hq')
    obtain ⟨row, hp, hs⟩ := hr q refund hq
    exact settled_step hreq h hp hs
  have hstep := refund_step hreq h q
  rw [hq'] at hstep
  generalize hq : D.refund? q = before at hstep
  cases hstep with
  | new _ _ hp hs _ _ => exact settled_step hreq h hp (by simp [hs, settled])
  | keep _ => exact hold _ hq
  | move _ => exact hold _ hq

theorem settled_later {s s' : State P} (h : Reachable P s)
    (h' : Machine.Reachable (payflow P) s s') {p : Uuid} {row : Payment}
    (hp : s.db.payment? p = some row) (hs : row.status ∈ settled) :
    ∃ row', s'.db.payment? p = some row' ∧ row'.status ∈ settled :=
  db_invariant_from (I := fun D => ∃ row, D.payment? p = some row ∧ row.status ∈ settled)
    (good_of_reachable h) ⟨row, hp, hs⟩
    (fun _ hreq h _ ⟨_, hp, hs⟩ => settled_step hreq h hp hs)
    (C := fun _ _ => True) (h'.imp fun _ _ _ _ _ _ _ _ => trivial)

/-- **Success is irrevocable.** From a reachable state on, a payment that is `SUCCEEDED` is always
`SUCCEEDED`, `REFUND_PENDING` or `REFUNDED`, and so is every payment that has a refund. -/
theorem succeeded_irrevocable {s s' : State P} (h : Reachable P s)
    (h' : Machine.Reachable (payflow P) s s') :
    (∀ p row, s.db.payment? p = some row → row.status = .succeeded →
      ∃ row', s'.db.payment? p = some row' ∧
        row'.status ∈ [PaymentStatus.succeeded, .refundPending, .refunded]) ∧
    ∀ refund ∈ s'.db.refunds, ∃ row, s'.db.payment? refund.paymentId = some row ∧
      row.status ∈ [PaymentStatus.succeeded, .refundPending, .refunded] := by
  have htrue : Machine.ReachableBy (payflow P)
      (Machine.OnEvents (payflow P) (OnCommits fun _ _ => True)) s s' :=
    h'.imp fun _ _ _ _ _ _ _ _ => trivial
  have hrefunds : RefundsSettled s.db := db_invariant (by simp [RefundsSettled, Db.refund?, Db.empty])
    (fun hi hreq h _ hr => refundsSettled_step hi hreq h hr) (reachableWhen_true h)
  constructor
  · intro p row hp hs
    exact settled_later h h' hp (by simp [hs, settled])
  · intro refund hmem
    have hg := (h'.good (fulfils P) (good_of_reachable h)).inv
    have hend : RefundsSettled s'.db := db_invariant_from (good_of_reachable h) hrefunds
      (fun hi hreq h _ hr => refundsSettled_step hi hreq h hr) htrue
    exact hend refund.id refund (find?_key_of_mem hg.refund_ids hmem)

/-- A payment that has succeeded, before and after a refund. -/
theorem succeeded_irrevocable_oneRefund : ∃ s s' : State examplePlatform,
    (s.db.payments.map (·.status) = [.succeeded] ∧ s'.db.refunds.map (·.amountCents) = [200]) ∧
      (∀ p row, s.db.payment? p = some row → row.status = .succeeded →
        ∃ row', s'.db.payment? p = some row' ∧
          row'.status ∈ [PaymentStatus.succeeded, .refundPending, .refunded]) ∧
      ∀ refund ∈ s'.db.refunds, ∃ row, s'.db.payment? refund.paymentId = some row ∧
        row.status ∈ [PaymentStatus.succeeded, .refundPending, .refunded] := by
  have h : ((payflow examplePlatform).run (init _) onePayment).bind (fun s =>
      ((payflow examplePlatform).run s oneRefund).map fun s' =>
        (s.db.payments.map (·.status), s'.db.refunds.map (·.amountCents))) =
      some ([.succeeded], [200]) := by decide +kernel
  obtain ⟨s, hs, h⟩ := Option.bind_eq_some_iff.mp h
  obtain ⟨s', hs', h⟩ := Option.map_eq_some_iff.mp h
  exact ⟨s, s', Prod.mk.inj h, succeeded_irrevocable (.run hs) (.run hs')⟩

/-! ### The table -/

/-- Not a completion on a payment that is `SUCCEEDED` while its refunds that have succeeded
reach its amount. -/
def NoOverwrite (D : Db) (b : Block) : Prop :=
  ∀ q refund row, b = .completeSuccessfulRefund q → D.refund? q = some refund →
    D.payment? refund.paymentId = some row → row.status = .succeeded →
      D.refundTotal [.succeeded] row.id < row.amountCents

theorem permitted_move (hr : RefundsSettled D) (hC : NoOverwrite D b) {p : Uuid}
    {st st' : PaymentStatus} (h : PaymentMove D p b st st') :
    st' = st ∨ st' ∈ validTransitions st := by
  cases h with
  | transition hv hm => exact Or.inr hv
  | webhook ht => rcases ht with rfl | rfl <;> simp [validTransitions]
  | reconcile ht => rcases ht with rfl | rfl <;> simp [validTransitions]
  | refund => simp [validTransitions]
  | restore => simp [validTransitions]
  | @complete q refund row total hq hp hrow hle hfull =>
    obtain ⟨row₁, hrow₁, hs⟩ := hr q refund hq
    rw [hp] at hrow₁
    obtain rfl := Option.some.inj (hrow.symm.trans hrow₁)
    have hid := payment_id hrow
    unfold statusAfterRefund
    simp only [settled, List.mem_cons, List.not_mem_nil, or_false] at hs
    rcases hs with hs | hs | hs
    · -- the case that the condition excludes
      have hlt := hC q refund row rfl hq (hp ▸ hrow) hs
      rw [hid] at hlt
      rw [if_neg (by omega)]
      exact Or.inl hs.symm
    · rw [hs]
      split_ifs <;> simp [validTransitions]
    · rw [if_pos (hfull hs)]
      exact Or.inl hs.symm

/-- **Payments move along the table.** In every run each step that meets the condition keeps the
status of a payment or moves it as `valid_transitions` permits. -/
theorem status_permitted {s s' : State P} {a : Action (Start P) Pick} (h : Reachable P s)
    (hC : Machine.OnEvents (payflow P) (OnCommits NoOverwrite) s a)
    (hs : (payflow P).step s a = some s') {p : Uuid} {row row' : Payment}
    (hp : s.db.payment? p = some row) (hp' : s'.db.payment? p = some row') :
    row'.status = row.status ∨ row'.status ∈ validTransitions row.status := by
  have hr : RefundsSettled s.db := db_invariant (by simp [RefundsSettled, Db.refund?, Db.empty])
    (fun hi hreq h _ hr => refundsSettled_step hi hreq h hr) (reachableWhen_true h)
  rcases step_db h hC hs with hdb | ⟨b, now, ws, r, hreq, hdoes, hc, hdb⟩
  · rw [hdb, hp] at hp'
    exact Or.inl (congrArg (·.status) (Option.some.inj hp').symm)
  · have hstep := payment_step hreq hdoes p
    rw [← hdb, hp, hp'] at hstep
    cases hstep with
    | keep he => exact Or.inl he
    | move hm => exact permitted_move hr hc hm

/-- A payment that begins to be processed: the writes of its first transition are made. -/
def startPayment : List Act :=
  createPaymentScript 0 1 ++ [.start (.task 0)] ++ quiet 1 6 ++ draw 1 [4, 5]

/-- The first move of a payment. -/
theorem status_permitted_startPayment : ∃ s s' : State examplePlatform, ∃ row row',
    s.db.payment? (exampleUuid 1) = some row ∧ s'.db.payment? (exampleUuid 1) = some row' ∧
      (row'.status = row.status ∨ row'.status ∈ validTransitions row.status) := by
  have h : ((payflow examplePlatform).run (init _) startPayment).bind (fun s =>
      ((payflow examplePlatform).step s (.step 1 .nothing)).map fun s' =>
        (commitCheck (fun _ b => !(b matches .completeSuccessfulRefund _)) s (.step 1 .nothing),
          (s.db.payment? (exampleUuid 1)).isSome, (s'.db.payment? (exampleUuid 1)).isSome)) =
      some (true, true, true) := by decide +kernel
  obtain ⟨s, hs, h⟩ := Option.bind_eq_some_iff.mp h
  obtain ⟨s', hs', h⟩ := Option.map_eq_some_iff.mp h
  simp only [Prod.mk.injEq, Option.isSome_iff_exists] at h
  obtain ⟨hc, ⟨row, hrow⟩, row', hrow'⟩ := h
  refine ⟨s, s', row, row', hrow, hrow', status_permitted (.run hs) ?_ hs' hrow hrow'⟩
  refine onCommits_of_check (fun D b hb => ?_) hc
  rintro q refund row rfl
  simp at hb

/-- A payment goes from `SUCCEEDED` to `REFUNDED`: a late answer to its task has brought it back to
`SUCCEEDED`, and the refund that is on its way is completed. -/
theorem status_not_permitted : ∃ (s s' : State examplePlatform) (a : Act) (row row' : Payment),
    Reachable examplePlatform s ∧ (payflow examplePlatform).step s a = some s' ∧
      s.db.payment? (exampleUuid 1) = some row ∧ s'.db.payment? (exampleUuid 1) = some row' ∧
      row'.status ≠ row.status ∧ row'.status ∉ validTransitions row.status := by
  have h : ((payflow examplePlatform).run (init _) (staleDelivery ++ succeedRefundScript 4 19 ++
      quiet 4 5 ++ draw 4 [22, 23])).bind (fun s =>
      ((payflow examplePlatform).step s (.step 4 .nothing)).map fun s' =>
        ((s.db.payment? (exampleUuid 1)).map (·.status),
          (s'.db.payment? (exampleUuid 1)).map (·.status))) =
      some (some .succeeded, some .refunded) := by decide +kernel
  obtain ⟨s, hs, h⟩ := Option.bind_eq_some_iff.mp h
  obtain ⟨s', hs', h⟩ := Option.map_eq_some_iff.mp h
  simp only [Prod.mk.injEq, Option.map_eq_some_iff] at h
  obtain ⟨⟨row, hrow, hst⟩, row', hrow', hst'⟩ := h
  refine ⟨s, s', _, row, row', .run hs, hs', hrow, hrow', ?_, ?_⟩ <;> rw [hst, hst'] <;> decide

end Payflow.Safety
