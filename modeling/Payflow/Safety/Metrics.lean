import Payflow.Spec.MetricsPage
import Payflow.Safety.FullRefund
import Payflow.Safety.PaymentRecord
import Payflow.Safety.RefundLedger
import Payflow.Safety.Publication
import Payflow.Safety.Replica

/-! # What the metrics say

A scraper reads on the page of `business_metrics` what the six statements have found. They see the
database at six moments, while payments, refunds and publishers go on. -/

namespace Payflow.Safety

open Payflow.Lib Payflow.Model Payflow.Spec

/-! ### One page -/

/-- What a scraper has read of a page. -/
structure Scraped where
  payments : PaymentStatus → ℕ
  paymentSum : ℕ
  refunds : RefundStatus → ℕ
  refundSum : ℕ
  paymentRetries : ℕ
  refundRetries : ℕ
  refundedAmount : ℕ
  outbox : OutboxStatus → ℕ
  outboxSum : ℕ

/-- The series of the page, by their names and labels. -/
def Scraped.of (xs : List Sample) : Scraped where
  payments st := valueOf xs paymentsTotal.toList (statusLabel st.text)
  paymentSum := sumOf xs paymentsTotal.toList
  refunds st := valueOf xs refundsTotal.toList (statusLabel st.text)
  refundSum := sumOf xs refundsTotal.toList
  paymentRetries := valueOf xs paymentRetriesTotal.toList []
  refundRetries := valueOf xs refundRetriesTotal.toList []
  refundedAmount := valueOf xs refundedAmountTotal.toList []
  outbox st := valueOf xs outboxEventsTotal.toList (statusLabel st.text)
  outboxSum := sumOf xs outboxEventsTotal.toList

/-- What the statements have found. -/
def Scraped.found (D₁ D₂ D₃ D₄ D₅ : Db) (outbox : List OutboxEvent) : Scraped where
  payments st := D₁.payments.countP fun row => row.status = st
  paymentSum := D₁.payments.length
  refunds st := D₂.refunds.countP fun row => row.status = st
  refundSum := D₂.refunds.length
  paymentRetries := (D₃.payments.map (·.retryCount)).sum
  refundRetries := (D₄.refunds.map (·.retryCount)).sum
  refundedAmount := total (fun row => row.status = .succeeded) (·.amountCents) D₅.refunds
  outbox st := outbox.countP fun row => row.status = st
  outboxSum := outbox.length

section page

variable {D₁ D₂ D₃ D₄ D₅ : Db} {outbox : List OutboxEvent}

theorem scraped_samplesOf : Scraped.of (samplesOf (businessCounts D₁ D₂ D₃ D₄ D₅ outbox)) =
    .found D₁ D₂ D₃ D₄ D₅ outbox := by
  have h := distinct_familiesOf D₁ D₂ D₃ D₄ D₅ outbox
  have hsum : ∀ {α : Type} (col : α → ℕ) (rows : List α),
      total (fun _ => true) col rows = (rows.map col).sum := by
    intro α col rows
    unfold total
    rw [List.filter_true]
  have hpayments : statusFamily paymentsTotal PaymentStatus.text
      (countByStatus PaymentStatus.values (·.status) D₁.payments) ∈
        familiesOf (businessCounts D₁ D₂ D₃ D₄ D₅ outbox) := by simp [familiesOf, businessCounts]
  have hrefunds : statusFamily refundsTotal RefundStatus.text
      (countByStatus RefundStatus.values (·.status) D₂.refunds) ∈
        familiesOf (businessCounts D₁ D₂ D₃ D₄ D₅ outbox) := by simp [familiesOf, businessCounts]
  have houtbox : statusFamily outboxEventsTotal OutboxStatus.text
      (countByStatus OutboxStatus.values (·.status) outbox) ∈
        familiesOf (businessCounts D₁ D₂ D₃ D₄ D₅ outbox) := by simp [familiesOf, businessCounts]
  unfold Scraped.of Scraped.found
  congr 1
  · funext st
    exact valueOf_status h hpayments paymentText_inj paymentValues_nodup (mem_paymentValues st)
  · exact sumOf_status h hpayments paymentValues_nodup mem_paymentValues
  · funext st
    exact valueOf_status h hrefunds refundText_inj refundValues_nodup (mem_refundValues st)
  · exact sumOf_status h hrefunds refundValues_nodup mem_refundValues
  · rw [← hsum]
    exact valueOf_total h (by simp [familiesOf, businessCounts])
  · rw [← hsum]
    exact valueOf_total h (by simp [familiesOf, businessCounts])
  · exact valueOf_total h (by simp [familiesOf, businessCounts])
  · funext st
    exact valueOf_status h houtbox outboxText_inj outboxValues_nodup (mem_outboxValues st)
  · exact sumOf_status h houtbox outboxValues_nodup mem_outboxValues

/-- **A page is read back**: each series is there once, and they have what the statements found. -/
theorem page_read_back (D₁ D₂ D₃ D₄ D₅ : Db) (outbox : List OutboxEvent) :
    ∃ xs, readExposition (businessMetrics D₁ D₂ D₃ D₄ D₅ outbox).toList = some xs ∧
      (xs.map Sample.series).Nodup ∧ Scraped.of xs = .found D₁ D₂ D₃ D₄ D₅ outbox :=
  ⟨_, readExposition_businessMetrics D₁ D₂ D₃ D₄ D₅ outbox,
    (distinct_familiesOf D₁ D₂ D₃ D₄ D₅ outbox).nodup, scraped_samplesOf⟩

end page

/-! ### A database and a later one -/

/-- A later version of a payment: its retries only become more, and it stays `REFUNDED`. -/
def CountedPayment (p q : Payment) : Prop :=
  p.retryCount ≤ q.retryCount ∧ (p.status = .refunded → q.status = .refunded)

/-- A later version of a refund: its retries only become more. -/
def CountedRefund (r q : Refund) : Prop := RefundLe r q ∧ r.retryCount ≤ q.retryCount

/-- What is counted in a later database. -/
structure Retained (D D' : Db) : Prop where
  payments : Grows CountedPayment D.payments D'.payments
  refunds : Grows CountedRefund D.refunds D'.refunds

theorem CountedPayment.refl (p : Payment) : CountedPayment p p := ⟨Nat.le_refl _, id⟩

theorem CountedPayment.trans (p q r : Payment) (h : CountedPayment p q) (h' : CountedPayment q r) :
    CountedPayment p r :=
  ⟨Nat.le_trans h.1 h'.1, fun hs => h'.2 (h.2 hs)⟩

theorem CountedRefund.refl (r : Refund) : CountedRefund r r := ⟨.refl r, Nat.le_refl _⟩

theorem CountedRefund.trans (r q t : Refund) (h : CountedRefund r q) (h' : CountedRefund q t) :
    CountedRefund r t :=
  ⟨h.1.trans _ _ _ h'.1, Nat.le_trans h.2 h'.2⟩

theorem Retained.refl (D : Db) : Retained D D :=
  ⟨.refl CountedPayment.refl _, .refl CountedRefund.refl _⟩

theorem Retained.trans {D₁ D₂ D₃ : Db} (h : Retained D₁ D₂) (h' : Retained D₂ D₃) : Retained D₁ D₃ :=
  ⟨h.payments.trans CountedPayment.trans h'.payments,
    h.refunds.trans CountedRefund.trans h'.refunds⟩

section commit

variable {P : Platform} {b : Block} {now : ℕ} {D : Db} {ws : List Write} {r : BRes b}

/-- **A commit** takes nothing away that is counted. -/
theorem retained_of_does (hi : Inv D) (hreq : Requires b D) (h : Does P b now D ws r) :
    Retained D (store.applyAll D ws) := by
  obtain ⟨hi', hle⟩ := keep_of_does hi hreq h
  constructor
  · refine hle.payments.imp_of_mem fun p hp q hq hpq => ?_
    have hrow : D.payment? p.id = some p := find?_key_of_mem hi.payment_ids hp
    have hrow' : (store.applyAll D ws).payment? p.id = some q :=
      hpq.id_eq ▸ find?_key_of_mem hi'.payment_ids hq
    have hretry := retryChange_of_does hreq h p.id
    have hchange := payment_step hreq h p.id
    rw [hrow, hrow'] at hretry hchange
    generalize ((ws.filterMap newPaymentEvent?).filter fun e => e.paymentId = p.id) = es at hretry
    constructor
    · cases hretry with
      | same he _ => exact Nat.le_of_eq (Option.some.inj he).symm
      | retried he _ _ => omega
    · intro hs
      cases hchange with
      | keep he => exact he.trans hs
      | move hm => exact PaymentMove.refunded hm hs
  · refine hle.refunds.imp_of_mem fun p hp q hq hpq => ⟨hpq, ?_⟩
    have hrow : D.refund? p.id = some p := find?_key_of_mem hi.refund_ids hp
    have hrow' : (store.applyAll D ws).refund? p.id = some q :=
      hpq.id_eq ▸ find?_key_of_mem hi'.refund_ids hq
    have hbooked := refundBooked_of_does hreq h p.id
    rw [hrow, hrow'] at hbooked
    generalize ((ws.filterMap newRefundEvent?).filter fun e => e.refundId = p.id) = es at hbooked
    cases hbooked with
    | untouched => exact Nat.le_refl _
    | moved _ _ _ _ he _ => omega
    | retried _ _ _ _ _ he _ => omega

/-- The payments whose status speaks of a refund have one. -/
structure Refunding (D : Db) : Prop where
  pending : ∀ p ∈ D.payments, p.status = .refundPending → ∃ q ∈ D.refunds, q.paymentId = p.id
  refunded : ∀ p ∈ D.payments, p.status = .refunded →
    ∃ q ∈ D.refunds, q.paymentId = p.id ∧ q.status = .succeeded

theorem refundLe_succeeded {q q' : Refund} (h : RefundLe q q') (hs : q.status = .succeeded) :
    q'.status = .succeeded := by
  obtain ⟨cols, rfl, hle⟩ := h
  rcases hle with he | he | ⟨he, -⟩
  · exact he.symm.trans hs
  · rw [hs] at he
    cases he
  · rw [hs] at he
    cases he

theorem refunding_step (hi : Inv D) (hreq : Requires b D) (h : Does P b now D ws r)
    (hd : Refunding D) : Refunding (store.applyAll D ws) := by
  obtain ⟨hi', hle⟩ := keep_of_does hi hreq h
  have hlater : ∀ q ∈ D.refunds, ∃ q' ∈ (store.applyAll D ws).refunds,
      q'.paymentId = q.paymentId ∧ (q.status = .succeeded → q'.status = .succeeded) := by
    intro q hq
    obtain ⟨q', hq', hqq⟩ := hle.refunds.exists_mem hq
    refine ⟨q', hq', ?_, refundLe_succeeded hqq⟩
    obtain ⟨cols, rfl, -⟩ := hqq
    rfl
  constructor
  · intro p hp hs
    have hrow : (store.applyAll D ws).payment? p.id = some p := find?_key_of_mem hi'.payment_ids hp
    cases hbefore : D.payment? p.id with
    | none =>
      -- a new payment is `CREATED`
      have hchange := payment_step hreq h p.id
      rw [hrow, hbefore] at hchange
      generalize p.id = id at hchange
      cases hchange with
      | new hb hkey hc => cases hs
    | some row =>
      rcases pending_of_does hreq h hbefore hrow hs with hs₀ | ⟨q, hq⟩
      · obtain ⟨hmem, hid⟩ := find?_key hbefore
        obtain ⟨q, hq, hpay⟩ := hd.pending row hmem hs₀
        obtain ⟨q', hq', hpay', -⟩ := hlater q hq
        exact ⟨q', hq', hpay'.trans (hpay.trans hid)⟩
      · have hmem : q ∈ refundIds (store.applyAll D ws) p.id := by
          rw [hq]
          exact List.mem_append_right _ List.mem_cons_self
        obtain ⟨refund, hrefund, hpay⟩ := (mem_refundIds hi').mp hmem
        exact ⟨refund, (find?_key hrefund).1, hpay⟩
  · intro p hp hs
    have hrow : (store.applyAll D ws).payment? p.id = some p := find?_key_of_mem hi'.payment_ids hp
    have hchange := payment_step hreq h p.id
    rw [hrow] at hchange
    generalize hbefore : D.payment? p.id = before at hchange
    have hold : ∀ q ∈ D.refunds, q.paymentId = p.id → q.status = .succeeded →
        ∃ q ∈ (store.applyAll D ws).refunds, q.paymentId = p.id ∧ q.status = .succeeded := by
      intro q hq hpay hs₀
      obtain ⟨q', hq', hpay', hs'⟩ := hlater q hq
      exact ⟨q', hq', hpay'.trans hpay, hs' hs₀⟩
    generalize p.id = id at *
    cases hchange with
    | new hb hkey hc => cases hs
    | @keep row _ he =>
      obtain ⟨hmem, hid⟩ := find?_key hbefore
      obtain ⟨q, hq, hpay, hs₀⟩ := hd.refunded row hmem (he.symm.trans hs)
      exact hold q hq (hpay.trans hid) hs₀
    | @move row _ hm =>
      generalize row.status = st₀, p.status = st at hm hs
      cases hm with
      | @complete q refund _ _ hq hpay _ _ _ =>
        obtain ⟨refund', hrefund, hs₀⟩ := hreq
        obtain rfl : refund = refund' := Option.some.inj (hq.symm.trans hrefund)
        exact hold refund (find?_key hq).1 hpay hs₀
      | transition _ hm => simp [hs, paymentMoves] at hm
      | webhook ht => simp [hs] at ht
      | reconcile ht => simp [hs] at ht
      | refund => cases hs
      | restore _ _ => cases hs

theorem length_read (views : List RefundView) (o : OutboxEvent) :
    (RefundView.read views o).length ≤ views.length + 1 := by
  have hset : ∀ q status, (setWhere (fun v : RefundView => v.refundId = q)
      (fun v => { v with status := status }) views).length = views.length := by
    intro q status
    unfold setWhere
    rw [List.length_map]
  unfold RefundView.read
  split
  · split
    · rw [List.length_append, List.length_singleton]
    · omega
  all_goals first | omega | (split <;> first | omega | (rw [hset]; omega))

theorem length_foldl_read : ∀ (es : List OutboxEvent) (views : List RefundView),
    (es.foldl RefundView.read views).length ≤ views.length + es.length
  | [], views => Nat.le_refl _
  | o :: es, views => by
    have hone := length_read views o
    have hrest := length_foldl_read es (RefundView.read views o)
    rw [List.foldl_cons, List.length_cons]
    omega

/-- Every refund has been told of. -/
def Told (D : Db) : Prop := D.refunds.length ≤ D.outboxEvents.length

theorem told_step (hi : Inv D) (hreq : Requires b D) (h : Does P b now D ws r) (ht : Told D) :
    Told (store.applyAll D ws) := by
  have hlen := congrArg List.length (read_of_does hi hreq h)
  have hle := length_foldl_read (ws.filterMap newOutboxEvent?) (D.refunds.map Refund.view)
  unfold Told at *
  rw [hlen, List.length_map, List.length_map] at hle
  rw [outboxEvents_applyAll, List.length_append]
  omega

end commit

/-! ### What holds of one database -/

section database

variable {D : Db}

/-- Payments that are `REFUNDED` have refunds that have succeeded. -/
theorem refunded_le (hi : Inv D) (hd : Refunding D) :
    D.payments.countP (fun p => p.status = .refunded) ≤
      D.refunds.countP fun q => q.status = .succeeded := by
  refine countP_le_of_key (fun p : Payment => p.id) (fun q : Refund => q.paymentId)
    hi.payment_ids fun p hp hs => ?_
  obtain ⟨q, hq, hpay, hs'⟩ := hd.refunded p hp (of_decide_eq_true hs)
  exact ⟨q, hq, decide_eq_true hs', hpay⟩

theorem refunding_le (hi : Inv D) (hd : Refunding D) :
    D.payments.countP (fun p => p.status = .refundPending) +
      D.payments.countP (fun p => p.status = .refunded) ≤ D.refunds.length := by
  have hdisjoint : ∀ p : Payment, decide (p.status = .refundPending) = true →
      decide (p.status = .refunded) = false := by
    intro p hp
    rw [of_decide_eq_true hp]
    rfl
  rw [← countP_or hdisjoint, ← List.countP_true]
  refine countP_le_of_key (fun p : Payment => p.id) (fun q : Refund => q.paymentId)
    hi.payment_ids fun p hp hs => ?_
  rcases (Bool.or_eq_true _ _).mp hs with hs | hs
  · obtain ⟨q, hq, hpay⟩ := hd.pending p hp (of_decide_eq_true hs)
    exact ⟨q, hq, rfl, hpay⟩
  · obtain ⟨q, hq, hpay, -⟩ := hd.refunded p hp (of_decide_eq_true hs)
    exact ⟨q, hq, rfl, hpay⟩

theorem succeeded_le (hpos : Positive D) : D.refunds.countP (fun q => q.status = .succeeded) ≤
    total (fun q => q.status = .succeeded) (·.amountCents) D.refunds := by
  unfold Positive at hpos
  generalize D.refunds = l at *
  induction l with
  | nil => exact Nat.le_refl _
  | cons q l ih =>
    have hq := hpos q List.mem_cons_self
    have hl := ih fun q hq => hpos q (List.mem_cons_of_mem _ hq)
    rw [List.countP_cons, total_cons]
    split_ifs <;> omega

end database

/-! ### The pages of a run -/

section run

variable {P : Platform} {C : OutboxState P → OutboxAction P → Prop} {s s' : OutboxState P}

/-- What holds of the database in every state. -/
structure Countable (D : Db) : Prop where
  inv : Inv D
  positive : Positive D
  refunding : Refunding D
  told : Told D

theorem countable_step {b : Block} {now : ℕ} {D : Db} {ws : List Write} {r : BRes b} (hi : Inv D)
    (hreq : Requires b D) (h : Does P b now D ws r) (hD : Countable D) :
    Countable (store.applyAll D ws) :=
  ⟨(keep_of_does hi hreq h).1, positive_step h hD.positive, refunding_step hi hreq h hD.refunding,
    told_step hi hreq h hD.told⟩

theorem countable_of_reachable {s : State P} (h : Reachable P s) : Countable s.db := by
  refine db_invariant (I := Countable) ?_ (fun hi hreq h _ hD => countable_step hi hreq h hD)
    (reachableWhen_true h)
  have hnone : ∀ {α : Type} {p : α → Prop}, ∀ a ∈ ([] : List α), p a :=
    fun _ ha => absurd ha List.not_mem_nil
  exact ⟨(good_init P).inv, hnone, ⟨hnone, hnone⟩, Nat.le_refl _⟩

/-- **A step** takes nothing away that is counted. -/
theorem retained_step (h : OutboxOk s) {a : OutboxAction P} (hs : s.step a = some s') :
    Retained s.app.db s'.app.db := by
  rcases outbox_step_cases hs with ⟨b, app, rfl, happ, rfl⟩ | ⟨batchSize, rfl, rfl⟩ |
    ⟨i, b, p, p', es, ns, rfl, hp, hmoves, rfl⟩
  · rcases step_commit h.app happ with hdb | ⟨pid, pick, b, now, ws, r, -, -, hreq, hdoes, hdb⟩
    · rw [show app.db = s.app.db from hdb]
      exact .refl _
    · rw [show app.db = store.applyAll s.app.db ws from hdb]
      exact retained_of_does (inv_of_reachable h.app) hreq hdoes
  · exact .refl _
  · exact .refl _

theorem retained_run (h : OutboxReachable P C s) (hs : Reaches OutboxState.step C s s') :
    Retained s.app.db s'.app.db := by
  induction hs with
  | refl => exact .refl _
  | step hreach _ hstep ih =>
    exact ih.trans (retained_step (outboxOk_of_reachable (h.trans hreach)) hstep)

/-- The rows of the outbox stay, and the published ones stay published. -/
theorem outbox_retained (h : OutboxReachable P C s) (hs : Reaches OutboxState.step C s s') :
    s.rows.length ≤ s'.rows.length ∧ s.rows.countP (fun row => row.status = .published) ≤
      s'.rows.countP fun row => row.status = .published := by
  have hok := outboxOk_of_reachable h
  obtain ⟨hok', hB, hsame⟩ := published_run hok (hs.imp fun _ _ _ => trivial)
  have hids : (s.rows.map (·.id)).Nodup := by
    have he : s.rows.map (·.id) = s.app.db.outboxEvents.map (·.id) := by
      unfold OutboxState.rows
      rw [List.map_map]
      exact List.map_congr_left fun row _ => marked_id s.marks row
    rw [he]
    exact hok.ids
  constructor
  · rw [← List.countP_true]
    refine countP_le_of_key (·.id) (·.id) hids fun row hrow _ => ?_
    obtain ⟨base, hbase, rfl⟩ := List.mem_map.mp hrow
    exact ⟨_, List.mem_map_of_mem (hB hbase), rfl, by rw [marked_id, marked_id]⟩
  · refine countP_le_of_key (·.id) (·.id) hids fun row hrow hst => ?_
    obtain ⟨base, hbase, rfl⟩ := List.mem_map.mp hrow
    have he := hsame base hbase (of_decide_eq_true hst)
    exact ⟨_, List.mem_map_of_mem (hB hbase), by rwa [he], by rw [he]⟩

/-- The states that the six statements of a call of `business_metrics` see. -/
structure Scrape (C : OutboxState P → OutboxAction P → Prop) (m : Fin 6 → OutboxState P) :
    Prop where
  reachable : OutboxReachable P C (m 0)
  next : ∀ i : Fin 5, Reaches OutboxState.step C (m i.castSucc) (m i.succ)

/-- The page that it returns. -/
def page (m : Fin 6 → OutboxState P) : String :=
  businessMetrics (m 0).app.db (m 1).app.db (m 2).app.db (m 3).app.db (m 4).app.db (m 5).rows

/-- What a page says of payments, refunds and the outbox goes together. -/
structure Coherent (x : Scraped) : Prop where
  refunded : x.payments .refunded ≤ x.refunds .succeeded
  refunding : x.payments .refundPending + x.payments .refunded ≤ x.refundSum
  amount : x.refunds .succeeded ≤ x.refundedAmount
  told : x.refundSum ≤ x.outboxSum

/-- What a later page says: nothing that is counted here goes back. -/
structure Rises (x y : Scraped) : Prop where
  payments : x.paymentSum ≤ y.paymentSum
  refunded : x.payments .refunded ≤ y.payments .refunded
  refunds : x.refundSum ≤ y.refundSum
  succeeded : x.refunds .succeeded ≤ y.refunds .succeeded
  failed : x.refunds .failed ≤ y.refunds .failed
  paymentRetries : x.paymentRetries ≤ y.paymentRetries
  refundRetries : x.refundRetries ≤ y.refundRetries
  amount : x.refundedAmount ≤ y.refundedAmount
  outbox : x.outboxSum ≤ y.outboxSum
  published : x.outbox .published ≤ y.outbox .published

theorem Scrape.reaches {m : Fin 6 → OutboxState P} (h : Scrape C m) : ∀ {i j : Fin 6}, i ≤ j →
    Reaches OutboxState.step C (m i) (m j) := by
  have hsteps : ∀ (n : ℕ) (i j : Fin 6), i.val + n = j.val →
      Reaches OutboxState.step C (m i) (m j) := by
    intro n
    induction n with
    | zero =>
      intro i j hij
      rw [Fin.ext hij]
      exact .refl
    | succ n ih =>
      intro i j hij
      have hk : i.val + n < 5 := by omega
      have hlast := h.next ⟨i.val + n, hk⟩
      have hj : Fin.succ ⟨i.val + n, hk⟩ = j := Fin.ext hij
      rw [hj] at hlast
      exact (ih i (Fin.castSucc ⟨i.val + n, hk⟩) rfl).trans hlast
  intro i j hij
  exact hsteps (j.val - i.val) i j (by have := Fin.le_def.mp hij; omega)

theorem Scrape.reachable_at {m : Fin 6 → OutboxState P} (h : Scrape C m) (i : Fin 6) :
    OutboxReachable P C (m i) :=
  h.reachable.trans (h.reaches (Fin.zero_le i))

theorem scraped_page (m : Fin 6 → OutboxState P) : ∃ xs, readExposition (page m).toList = some xs ∧
    Scraped.of xs = .found (m 0).app.db (m 1).app.db (m 2).app.db (m 3).app.db (m 4).app.db
      (m 5).rows :=
  ⟨_, readExposition_businessMetrics _ _ _ _ _ _, scraped_samplesOf⟩

theorem coherent_page {m : Fin 6 → OutboxState P} (h : Scrape C m) :
    Coherent (.found (m 0).app.db (m 1).app.db (m 2).app.db (m 3).app.db (m 4).app.db
      (m 5).rows) := by
  have hcountable : ∀ i, Countable (m i).app.db := fun i =>
    countable_of_reachable (outboxOk_of_reachable (h.reachable_at i)).app
  have h₀₁ := retained_run h.reachable (h.reaches (j := 1) (by decide))
  have h₁₄ := retained_run (h.reachable_at 1) (h.reaches (j := 4) (by decide))
  have h₁₅ := (outbox_retained (h.reachable_at 1) (h.reaches (j := 5) (by decide))).1
  have hsucceeded : ∀ a b, CountedRefund a b → decide (a.status = .succeeded) = true →
      decide (b.status = .succeeded) = true := fun a b hab hs =>
    decide_eq_true (refundLe_succeeded hab.1 (of_decide_eq_true hs))
  constructor
  · exact Nat.le_trans (refunded_le (hcountable 0).inv (hcountable 0).refunding)
      (h₀₁.refunds.countP_le hsucceeded)
  · exact Nat.le_trans (refunding_le (hcountable 0).inv (hcountable 0).refunding)
      h₀₁.refunds.length_le
  · exact Nat.le_trans (h₁₄.refunds.countP_le hsucceeded) (succeeded_le (hcountable 4).positive)
  · have htold : (m 1).app.db.refunds.length ≤ (m 1).rows.length := by
      unfold OutboxState.rows
      rw [List.length_map]
      exact (hcountable 1).told
    exact Nat.le_trans htold h₁₅

theorem rises_pages {m m' : Fin 6 → OutboxState P} (h : Scrape C m)
    (hlater : ∀ i, Reaches OutboxState.step C (m i) (m' i)) :
    Rises (.found (m 0).app.db (m 1).app.db (m 2).app.db (m 3).app.db (m 4).app.db (m 5).rows)
      (.found (m' 0).app.db (m' 1).app.db (m' 2).app.db (m' 3).app.db (m' 4).app.db
        (m' 5).rows) := by
  have hretained : ∀ i, Retained (m i).app.db (m' i).app.db := fun i =>
    retained_run (h.reachable_at i) (hlater i)
  obtain ⟨houtbox, hpublished⟩ := outbox_retained (h.reachable_at 5) (hlater 5)
  have hended : ∀ st, st = .succeeded ∨ st = .failed → ∀ a b, CountedRefund a b →
      decide (a.status = st) = true → decide (b.status = st) = true := by
    rintro st hst a b ⟨⟨cols, rfl, hle⟩, -⟩ hs
    have hs : a.status = st := of_decide_eq_true hs
    rw [hs] at hle
    refine decide_eq_true ?_
    rcases hle with he | he | ⟨he, -⟩
    · exact he.symm
    · rcases hst with rfl | rfl <;> cases he
    · rcases hst with rfl | rfl <;> cases he
  constructor
  · exact (hretained 0).payments.length_le
  · exact (hretained 0).payments.countP_le fun a b hab hs =>
      decide_eq_true (hab.2 (of_decide_eq_true hs))
  · exact (hretained 1).refunds.length_le
  · exact (hretained 1).refunds.countP_le (hended _ (Or.inl rfl))
  · exact (hretained 1).refunds.countP_le (hended _ (Or.inr rfl))
  · exact (hretained 2).payments.sum_map_le fun a b hab => hab.1
  · exact (hretained 3).refunds.sum_map_le fun a b hab => hab.2
  · refine (hretained 4).refunds.total_le fun a b hab hs => ⟨hended _ (Or.inl rfl) a b hab hs, ?_⟩
    obtain ⟨⟨cols, rfl, -⟩, -⟩ := hab
    rfl
  · exact houtbox
  · exact hpublished

/-- **The pages of a run.** Whatever goes on between the statements, what a page says goes together,
and from one page to a later one nothing that is counted goes back. -/
theorem pages_of_run {m m' : Fin 6 → OutboxState P} (h : Scrape C m)
    (hlater : ∀ i, Reaches OutboxState.step C (m i) (m' i)) :
    ∃ xs xs', readExposition (page m).toList = some xs ∧
      readExposition (page m').toList = some xs' ∧
        Coherent (Scraped.of xs) ∧ Rises (Scraped.of xs) (Scraped.of xs') := by
  obtain ⟨xs, hxs, hfound⟩ := scraped_page m
  obtain ⟨xs', hxs', hfound'⟩ := scraped_page m'
  refine ⟨xs, xs', hxs, hxs', ?_, ?_⟩
  · rw [hfound]
    exact coherent_page h
  · rw [hfound, hfound']
    exact rises_pages h hlater

end run

/-- The first statement sees a payment, and the others its refund as well; when the next page is made,
the refund has succeeded. -/
theorem pages_of_run_oneRefund : ∃ m m' : Fin 6 → OutboxState examplePlatform,
    ((m 0).app.db.refunds.map (·.status), (m 1).app.db.refunds.map (·.status),
      (m' 1).app.db.refunds.map (·.status)) = ([], [.created], [.succeeded]) ∧
    ∃ xs xs', readExposition (page m).toList = some xs ∧
      readExposition (page m').toList = some xs' ∧
        Coherent (Scraped.of xs) ∧ Rises (Scraped.of xs) (Scraped.of xs') := by
  have h : (runSteps OutboxState.step (fun _ _ => true) (.init examplePlatform)
      (appScript onePayment)).bind (fun s =>
        (runSteps OutboxState.step (fun _ _ => true) s
          (appScript (createRefundScript 2 partialRefund 10))).bind fun s' =>
        (runSteps OutboxState.step (fun _ _ => true) s' (appScript
          (startRefundScript 3 1 14 ++ succeedRefundScript 3 16 ++ completeScript 3 19))).map
          fun s'' => (s.app.db.refunds.map (·.status), s'.app.db.refunds.map (·.status),
            s''.app.db.refunds.map (·.status))) = some ([], [.created], [.succeeded]) := by
    decide +kernel
  obtain ⟨s, hs, h⟩ := Option.bind_eq_some_iff.mp h
  obtain ⟨s', hs', h⟩ := Option.bind_eq_some_iff.mp h
  obtain ⟨s'', hs'', h⟩ := Option.map_eq_some_iff.mp h
  have hfirst : Reaches OutboxState.step (fun _ _ => True) s s' :=
    .runSteps (fun _ _ _ => trivial) .refl hs'
  have hsecond : Reaches OutboxState.step (fun _ _ => True) s' s'' :=
    .runSteps (fun _ _ _ => trivial) .refl hs''
  let m : Fin 6 → OutboxState examplePlatform := fun i => if i.val = 0 then s else s'
  have hscrape : Scrape (fun _ _ => True) m := by
    refine ⟨.runSteps (fun _ _ _ => trivial) .refl hs, fun i => ?_⟩
    have hsucc : m i.succ = s' := if_neg (Nat.succ_ne_zero _)
    rw [hsucc]
    show Reaches OutboxState.step _ (if i.val = 0 then s else s') s'
    split_ifs
    · exact hfirst
    · exact .refl
  have hlater : ∀ i, Reaches OutboxState.step (fun _ _ => True) (m i) s'' := by
    intro i
    show Reaches OutboxState.step _ (if i.val = 0 then s else s') s''
    split_ifs
    · exact hfirst.trans hsecond
    · exact hsecond
  exact ⟨m, fun _ => s'', h, pages_of_run hscrape hlater⟩

end Payflow.Safety
