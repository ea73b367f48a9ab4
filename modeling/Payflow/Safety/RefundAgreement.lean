import Payflow.Network.Attempts
import Payflow.Safety.RealCapture

/-! # A refund and its records agree

Each attempt of `process_refund` is a new refund for the provider, and an attempt whose answer is
lost may have moved the money all the same; a later attempt can then be refused, which fails the
refund. A refund that is `SUCCEEDED` has one record with success, and one that is `FAILED` has none,
under the same terms as for payments. -/

namespace Payflow.Safety

open Payflow.Lib Payflow.Model Payflow.Spec Payflow.Network

variable {P : Platform} {n : Net P} {S S' : Provider} {id : String} {hd : Handler}

/-- The records with which the money of the refund was moved. -/
def payouts (S : Provider) (q : Uuid) : List ProviderRefund :=
  S.refunds.filter fun r => r.refundId = q ∧ r.status = .succeeded

/-- The requests for refunds. -/
def refundKind (P : Platform) : Kind P ProviderRefund where
  toRecords := refundRecords
  rows := Provider.refunds
  key := (·.providerRefundId)
  object := (·.refundId)
  key_set _ _ := rfl
  object_set _ _ := rfl
  wants
    | .postRefund scenario request =>
      if scenario = .declined ∨ scenario = .serverError then none else some request.refundId
    | _ => none
  admits S
    | .postRefund _ request => request.valid && (refuseProviderRefund P S request).isNone
    | _ => false
  failed D q := (D.refund? q).any fun refund => refund.status = .failed
  givesUp
    | .recordRefundTransition q _ .failed .null _ => some q
    | _ => none

/-- The rest of the handler of a payment request makes no record of a refund. -/
theorem finishProviderPayment_refunds {scenario : Scenario} {p : Uuid}
    (h : finishProviderPayment S id p scenario = (S', hd)) : S'.refunds = S.refunds := by
  cases scenario <;> obtain ⟨rfl, -⟩ := Prod.mk.inj h <;> rfl

theorem createProviderPayment_refunds {text : String} {scenario : Scenario}
    {request : PaymentBody} (h : handle P S id text (.postPayment scenario request) = some (S', hd)) :
    S'.refunds = S.refunds := by
  simp only [handle] at h
  split_ifs at h
  · obtain ⟨rfl, -⟩ := Prod.mk.inj (Option.some.inj h)
    rfl
  · have h := Option.some.inj h
    unfold createProviderPayment at h
    dsimp only at h
    split_ifs at h
    · obtain ⟨rfl, -⟩ := Prod.mk.inj h
      rfl
    · have hrefunds := finishProviderPayment_refunds h
      exact hrefunds

theorem finishProviderRefund_rows {scenario : RefundScenario} {request : RefundBody}
    (h : finishProviderRefund S id request scenario = (S', hd)) :
    (∀ k, hd ≠ .asleep k) ∧
      ((scenario = .serverError ∧ S'.refunds = S.refunds) ∨
        ∃ st, S'.refunds = setWhere (fun r => r.providerRefundId = id)
            (refundRecords.set st) S.refunds ∧
          (st = .succeeded → scenario ≠ .declined ∧ scenario ≠ .serverError) ∧
          accepted (.handled hd) = true) := by
  have hset : ∀ st, (S.setRefund id st).refunds =
      setWhere (fun r => r.providerRefundId = id) (refundRecords.set st) S.refunds := by
    intro st
    simp [Provider.setRefund, setWhere, refundRecords]
  cases scenario <;> obtain ⟨rfl, rfl⟩ := Prod.mk.inj h
  case serverError => exact ⟨by simp, Or.inl ⟨rfl, rfl⟩⟩
  case declined => exact ⟨by simp, Or.inr ⟨.failed, hset _, by simp, rfl⟩⟩
  all_goals exact ⟨by simp, Or.inr ⟨.succeeded, hset _, by simp, rfl⟩⟩

/-- A refund that the provider has declined has no record with success. -/
theorem not_paidOut {x : Uuid} {id : String} (hok : NetOk n)
    (hkeys : (n.provider.refunds.map (·.providerRefundId)).Nodup)
    (hr : HasRefund n.provider x id .failed) (k : String) :
    ¬ (refundKind P).Counts n.provider (attempts n) x k := by
  have hr : HasRefund (view n).provider x id .failed := hr
  rintro (⟨r, hmem, rfl, rfl, hst⟩ | ⟨e, hmem, hwants⟩)
  · have hfind : n.provider.refund? r.providerRefundId = some r := find?_key_of_mem hkeys hmem
    have hst : r.status = .succeeded := hst
    -- both records ended as the scenario of the task says
    obtain ⟨i, sc, ht, hiff⟩ := (hok.inv.refundRecords _ r hfind).scenario (by simp [hst])
    have := hiff.mpr ((hok.inv.refundEnded hr (by simp) ht).mp rfl)
    simp [hst] at this
  · obtain ⟨c, hc, he⟩ := List.mem_map.mp hmem
    obtain ⟨rfl, -⟩ := Prod.mk.inj he
    obtain ⟨i, hi⟩ := List.getElem?_of_mem hc
    have hallow := (hok.calls i c hi).allowed
    generalize c.request = e at hallow hwants
    cases e with
    | postRefund scenario request =>
      simp only [refundKind] at hwants
      split_ifs at hwants with hs
      obtain rfl := Option.some.inj hwants
      obtain ⟨⟨j, ht⟩, -⟩ := hallow
      exact hs (Or.inl ((hok.inv.refundEnded hr (by simp) ht).mp rfl))
    | _ => simp [refundKind] at hwants

theorem refundKind_begins {text : String} {e : Ext}
    (h : handle P S id text e = some (S', hd)) : (refundKind P).Begins S S' id e hd := by
  cases e with
  | postPayment scenario request =>
    exact .idle (createProviderPayment_refunds h) fun k _ => rfl
  | getPayment id' =>
    obtain ⟨rfl, rfl⟩ := Prod.mk.inj (Option.some.inj h)
    exact .idle rfl fun k hk => by simp at hk
  | postRefund scenario request =>
    simp only [handle] at h
    split_ifs at h with hvalid hunused
    · obtain ⟨rfl, rfl⟩ := Prod.mk.inj (Option.some.inj h)
      exact .idle rfl fun k hk => by simp at hk
    have hnew : id ∉ S.refunds.map (·.providerRefundId) :=
      not_mem_map_of_find? (unused_iff.mp hunused).2
    have h := Option.some.inj h
    unfold createProviderRefund at h
    split at h
    · obtain ⟨rfl, rfl⟩ := Prod.mk.inj h
      exact .idle rfl fun k hk => by simp at hk
    rename_i hrefuse
    have hadmits : (request.valid && (refuseProviderRefund P S request).isNone) = true := by
      rw [hrefuse]
      simpa using hvalid
    generalize hr : (⟨id, request.refundId, request.providerPaymentId, request.amountCents,
      P.upper request.currency, .processing⟩ : ProviderRefund) = r at h
    have hid : r.providerRefundId = id := by rw [← hr]
    have hq : r.refundId = request.refundId := by rw [← hr]
    have hrunning : r.status ≠ .succeeded := by simp [← hr]
    dsimp only at h
    split_ifs at h with hsleep
    · obtain ⟨rfl, rfl⟩ := Prod.mk.inj h
      exact .record r rfl hid hnew hadmits (fun k hk => (Handler.asleep.inj hk).symm)
        fun he => absurd he hrunning
    · obtain ⟨hawake, ⟨-, hS⟩ | ⟨st, hS, hdone, hacc⟩⟩ := finishProviderRefund_rows h
      · exact .record r hS hid hnew hadmits (fun k hk => absurd hk (hawake k))
          fun he => absurd he hrunning
      · refine .record (refundRecords.set st r) ?_ hid hnew hadmits
          (fun k hk => absurd hk (hawake k)) fun he => ⟨?_, hacc⟩
        · exact hS.trans (setWhere_append hnew hid)
        · obtain ⟨h₁, h₂⟩ := hdone he
          show (if scenario = .declined ∨ scenario = .serverError then none
            else some request.refundId) = some r.refundId
          rw [if_neg (by simp [h₁, h₂]), hq]
  | _ => simp [handle] at h

theorem refundKind_finishes {e : Ext} (hkeys : (S.refunds.map (·.providerRefundId)).Nodup)
    (hsleep : Asleep S id e) (h : wakeHandler S id e = some (S', hd)) :
    (refundKind P).Finishes S S' id e hd := by
  cases e with
  | postPayment scenario request =>
    have h := Option.some.inj h
    refine .idle (finishProviderPayment_refunds h) rfl ?_
    cases scenario <;> obtain ⟨-, rfl⟩ := Prod.mk.inj h <;> simp
  | postRefund scenario request =>
    obtain ⟨-, r, hr, hq, -⟩ := hsleep
    obtain ⟨hmem, hid⟩ := find?_key hr
    obtain ⟨hawake, ⟨rfl, hS⟩ | ⟨st, hS, hdone, hacc⟩⟩ :=
      finishProviderRefund_rows (Option.some.inj h)
    · exact .idle hS (by simp [refundKind]) hawake
    · refine .record st hS (fun hst r' hr' hid' => ?_) hacc hawake
      obtain rfl := eq_of_key hkeys hr' hmem (hid'.trans hid.symm)
      obtain ⟨h₁, h₂⟩ := hdone hst
      show (if scenario = .declined ∨ scenario = .serverError then none
        else some request.refundId) = some r'.refundId
      rw [if_neg (by simp [h₁, h₂]), hq]
  | _ => simp [wakeHandler] at h

theorem refundKind_fails {b : Block} {now : ℕ} {ws : List Write} {r : BRes b} {x : Uuid}
    (hok : NetOk n) (hcall : Callable (view n) b) (hreq : Requires b n.app.db)
    (hdoes : Does P b now n.app.db ws r)
    (hkeys : (n.provider.refunds.map (·.providerRefundId)).Nodup)
    (hx : (refundKind P).failed (store.applyAll n.app.db ws) x = true) :
    (refundKind P).failed n.app.db x = true ∨ (refundKind P).givesUp b = some x ∨
      ∀ k, ¬ (refundKind P).Counts n.provider (attempts n) x k := by
  obtain ⟨refund', hq', hst⟩ := (Option.any_eq_true _ _).mp hx
  have hst : refund'.status = .failed := of_decide_eq_true hst
  have hsame : ∀ {refund : Refund}, n.app.db.refund? x = some refund → refund.status = .failed →
      (refundKind P).failed n.app.db x = true := by
    intro refund hq hst
    exact (Option.any_eq_true _ _).mpr ⟨refund, hq, decide_eq_true hst⟩
  have hstep := refund_step hreq hdoes x
  rw [hq'] at hstep
  generalize n.app.db.refund? x = before at hstep hsame
  cases hstep with
  | new => simp [newRefund] at hst
  | keep he => exact Or.inl (hsame rfl (he.symm.trans hst))
  | move hm =>
    rw [hst] at hm
    refine Or.inr ?_
    cases hm with
    | transition =>
      have hcall : BackedRefund (view n) x _ .failed := hcall
      rcases hcall with rfl | ⟨id, hr⟩
      · exact Or.inl rfl
      · exact Or.inr (not_paidOut hok hkeys hr)

theorem refundKind_lawful (P : Platform) : (refundKind P).Lawful where
  webhooks _ _ := rfl
  begins := refundKind_begins
  finishes := refundKind_finishes
  fails hok hcall hreq hdoes hkeys hx := refundKind_fails hok hcall hreq hdoes hkeys hx

/-- **A refund that is `SUCCEEDED` has one record with success, of its amount, and one that is
`FAILED` has none**, while no request for it is taken up after one that was accepted, and it is not
given up when one was. -/
theorem refund_agreed (hP : PlatformLaws P)
    (h : Reaches Net.step (fun n a => (refundKind P).careful n a = true) (Net.init P) n)
    {q : Uuid} {refund : Refund} (hq : n.app.db.refund? q = some refund) :
    (refund.status = .succeeded →
      ∃ r, payouts n.provider q = [r] ∧ r.amountCents = refund.amountCents) ∧
    (refund.status = .failed → payouts n.provider q = []) := by
  have hsingle := (refundKind_lawful P).single_of_reaches hP rfl h
  have hok := netOk_of_reachable hP (h.imp fun _ _ _ => trivial)
  refine ⟨fun hst => ?_, fun hst =>
    hsingle.done_failed ((Option.any_eq_true _ _).mpr ⟨refund, hq, decide_eq_true hst⟩)⟩
  obtain ⟨id, r, hr, hrq, hrst⟩ := hok.inv.refundRows q refund hq hst
  have hmem : r ∈ payouts n.provider q :=
    List.mem_filter.mpr ⟨(find?_key hr).1, decide_eq_true ⟨hrq, hrst⟩⟩
  have hle : (payouts n.provider q).length ≤ 1 := hsingle.length_done q
  obtain ⟨r', hone⟩ := List.length_eq_one_iff.mp
    (Nat.le_antisymm hle (List.length_pos_of_mem hmem))
  rw [hone] at hmem ⊢
  obtain rfl := List.mem_singleton.mp hmem
  -- the record has the amount of the refund's row
  obtain ⟨refund', hq', hamount⟩ := (hok.inv.refundRecords id r hr).row
  rw [hrq] at hq'
  obtain rfl := Option.some.inj (hq.symm.trans hq')
  exact ⟨r, rfl, hamount⟩

/-- A payment of 500 cents that the provider has captured. -/
def capturedPayment : List (NetAction examplePlatform) :=
  (createPaymentScript 0 1 ++ startPaymentScript 1 0 4).map .app ++
    [.send 1, .receive 0 "provider_1" "", .respond 0] ++
    (quiet 1 3 ++ draw 1 [7, 8] ++ quiet 1 2).map .app

/-- A retry of its refund is recorded and sent. -/
def retryRefundScript : List Act :=
  quiet 3 2 ++ draw 3 [16] ++ quiet 3 1 ++ [.step 3 (.broker true)] ++ quiet 3 1

/-- Its refund of 200 cents: the first request is lost, and the retry succeeds. -/
def retriedRefund : List (NetAction examplePlatform) :=
  capturedPayment ++
    (createRefundScript 2 partialRefund 10 ++ startRefundScript 3 1 14).map .app ++
    [.send 3, .fail 1 .networkError] ++ retryRefundScript.map .app ++
    .app (.start (.task 2)) :: (quiet 4 6).map .app ++
    [.send 4, .receive 2 "refund_1" "", .respond 2] ++
    (quiet 4 3 ++ draw 4 [17, 18] ++ quiet 4 1 ++ completeScript 4 19).map .app

/-- A refund that succeeds at the second attempt. -/
theorem refund_agreed_retriedRefund : ∃ (n : Net examplePlatform) (refund : Refund),
    n.app.db.refund? (exampleUuid 10) = some refund ∧ refund.status = .succeeded ∧
      refund.retryCount = 1 ∧
      ∃ r, payouts n.provider (exampleUuid 10) = [r] ∧ r.amountCents = refund.amountCents := by
  have h : (runSteps Net.step (fun n a => (refundKind _).careful n a) (Net.init examplePlatform)
      retriedRefund).map
      (fun n => (n.app.db.refund? (exampleUuid 10)).map fun refund =>
        (refund.status, refund.retryCount)) = some (some (.succeeded, 1)) := by
    decide +kernel
  obtain ⟨n, hs, h⟩ := Option.map_eq_some_iff.mp h
  obtain ⟨refund, hq, h⟩ := Option.map_eq_some_iff.mp h
  obtain ⟨hst, hcount⟩ := Prod.mk.inj h
  exact ⟨n, refund, hq, hst, hcount, (refund_agreed examplePlatform_laws
    (.runSteps (fun _ _ hc => hc) .refl hs) hq).1 hst⟩

/-- Its refund of all 500 cents with the scenario `timeout`: the client gives up, the handler ends,
and the second attempt is refused, since nothing is left to refund. -/
def refusedRefund : List (NetAction examplePlatform) :=
  capturedPayment ++
    (createRefundScript 2 { wholeRefund with
      xTestScenario := .timeout } 10 ++ startRefundScript 3 1 14).map .app ++
    [.send 3, .receive 1 "refund_1" "", .fail 1 .timeoutException] ++
    retryRefundScript.map .app ++ [.wake 1, .app (.start (.task 2))] ++ (quiet 4 6).map .app ++
    [.send 4, .receive 2 "refund_2" "", .respond 2] ++
    (quiet 4 3 ++ draw 4 [17, 18] ++ quiet 4 6).map .app

/-- A refund is `FAILED`, and its money has been moved. -/
theorem refund_agreed_fails : ∃ n : Net examplePlatform, NetReachable n ∧ nothingLeft n = true ∧
    (n.app.db.refund? (exampleUuid 10)).map (·.status) = some .failed ∧
    (payouts n.provider (exampleUuid 10)).map (·.amountCents) = [500] := by
  have h : (runSteps Net.step (fun _ _ => true) (Net.init examplePlatform) refusedRefund).map
      (fun n => (nothingLeft n, (n.app.db.refund? (exampleUuid 10)).map (·.status),
        (payouts n.provider (exampleUuid 10)).map (·.amountCents))) =
      some (true, some .failed, [500]) := by decide +kernel
  obtain ⟨n, hs, h⟩ := Option.map_eq_some_iff.mp h
  simp only [Prod.mk.injEq] at h
  exact ⟨n, Reaches.runSteps (fun _ _ _ => trivial) .refl hs, h.1, h.2.1, h.2.2⟩

end Payflow.Safety
