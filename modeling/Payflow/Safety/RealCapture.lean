import Payflow.Network.Exchange
import Payflow.Spec.JsonReader

/-! # A payment that has succeeded points at its capture

The id of a record and the status of a payment are written by different transactions, for
different requests with different records. Every record that has ended is a capture or none
is, since all messages of a payment have the same scenario; so whichever id is in the row, it
is that of a capture. -/

namespace Payflow.Safety

open Payflow.Lib Payflow.Model Payflow.Spec Payflow.Network

variable {P : Platform} {n : Net P}

/-- The row of a payment points at its capture by the provider. -/
def PointsAtCapture (P : Platform) (S : Provider) (row : Payment) : Prop :=
  ∃ id r, row.providerPaymentId = some id ∧ S.payment? id = some r ∧ r.status = .succeeded ∧
    r.paymentId = row.id ∧ r.amountCents = row.amountCents ∧ r.currency = P.upper row.currency

theorem pointsAtCapture_of_inv {v : View} (h : v.Inv P) {p : Uuid} {row : Payment}
    (hrow : v.db.payment? p = some row) (hs : row.status ∈ settled) :
    PointsAtCapture P v.provider row := by
  obtain ⟨-, id, hid, r, hr, hp, hst⟩ := (h.rows p row hrow).captured hs
  obtain ⟨row', hrow', hamount, hcurrency⟩ := (h.records id r hr).row
  -- the record's payment is the row
  have hsame : v.db.payment? r.paymentId = some row := by
    rw [hp, payment_id hrow]
    exact hrow
  obtain rfl := Option.some.inj (hrow'.symm.trans hsame)
  exact ⟨id, r, hid, hr, hst, hp, hamount, hcurrency⟩

/-- **A payment that has succeeded points at a capture**, and no transaction finds a payment that is
to be refunded without an id at the provider. -/
theorem points_at_capture (hP : PlatformLaws P) (h : NetReachable n) :
    (∀ row ∈ n.app.db.payments,
      (row.status ∈ [PaymentStatus.succeeded, .refundPending, .refunded] →
        PointsAtCapture P n.provider row ∧ row.failureCode = none) ∧
      (row.status = .failed → row.failureCode ≠ none)) ∧
    (∀ (pid : ℕ) x p m key amount t k,
      n.app.procs[pid]? = some ⟨x, .inTxn (.createRefund p m key amount) t k⟩ →
        t.rest ≠ .raise (.httpException 409 (.str "Payment has no provider payment ID"))) ∧
    ∀ (pid : ℕ) x p t k payment,
      n.app.procs[pid]? = some ⟨x, .inTxn (.selectProviderPaymentId p) t k⟩ →
        t.rest = .pure payment → payment.bind (·.providerPaymentId) ≠ none := by
  have hok := netOk_of_reachable hP h
  refine ⟨fun row hmem => ?_, fun pid x p m key amount t k hp hrest => ?_,
    fun pid x p t k payment hp hrest => ?_⟩
  · have hrow : (view n).db.payment? row.id = some row :=
      find?_key_of_mem hok.inv.db.payment_ids hmem
    have hrowOk := hok.inv.rows row.id row hrow
    exact ⟨fun hs => ⟨pointsAtCapture_of_inv hok.inv hrow hs, (hrowOk.captured hs).1⟩,
      hrowOk.failed⟩
  · have hends := (Logic.StatusSafe.ends (hok.safe _ (List.mem_of_getElem? hp))).2 _ hrest
    exact hends rfl
  · have hends := (Logic.StatusSafe.ends (hok.safe _ (List.mem_of_getElem? hp))).1 _ hrest
    obtain ⟨row, id, rfl, hid⟩ := hends payment rfl
    simp [hid]

/-- What is used of the platform holds of the one of the examples. -/
theorem examplePlatform_laws : PlatformLaws examplePlatform where
  jsonLoads eventId p id json h := by
    have hload := loadsBytes_webhookText eventId p id
    simp only [examplePlatform, hload, Except.ok.injEq] at h
    exact h.symm
  parseUuid _ _ h := uuidIn_text h

/-- A payment of 500 cents whose result the provider delivers by webhook. -/
def webhookPayment : List (NetAction examplePlatform) :=
  (createPaymentWith { examplePayment with xTestScenario := .delayedWebhook } 0 1 ++
      startPaymentScript 1 0 4).map .app ++
    [.send 1, .receive 0 "provider_1" "", .respond 0] ++
    (quiet 1 3 ++ draw 1 [6] ++ quiet 1 1).map .app ++ [.deliver 0 "event_1"] ++
    (quiet 2 1 ++ draw 2 [7] ++ quiet 2 2 ++ draw 2 [8, 9] ++ quiet 2 2).map .app

theorem points_at_capture_webhookPayment : ∃ (n : Net examplePlatform) (row : Payment),
    n.app.db.payment? (exampleUuid 1) = some row ∧ row.status = .succeeded ∧
      n.app.db.webhookEvents.map (·.providerEventId) = ["event_1"] ∧
      PointsAtCapture examplePlatform n.provider row := by
  have h : (runSteps Net.step (fun _ _ => true) (Net.init examplePlatform) webhookPayment).map
      (fun n => ((n.app.db.payment? (exampleUuid 1)).map (·.status),
        n.app.db.webhookEvents.map (·.providerEventId))) =
      some (some .succeeded, ["event_1"]) := by
    decide +kernel
  obtain ⟨n, hs, h⟩ := Option.map_eq_some_iff.mp h
  obtain ⟨h, hevents⟩ := Prod.mk.inj h
  obtain ⟨row, hrow, hst⟩ := Option.map_eq_some_iff.mp h
  have hreach : NetReachable n := Reaches.runSteps (fun _ _ _ => trivial) .refl hs
  obtain ⟨hmem, -⟩ := find?_key hrow
  have hrows := (points_at_capture examplePlatform_laws hreach).1 row hmem
  exact ⟨n, row, hrow, hst, hevents, (hrows.1 (by simp [hst])).1⟩

end Payflow.Safety
