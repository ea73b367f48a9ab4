import Payflow.Network.Attempts
import Payflow.Safety.RealCapture

/-! # A customer is charged as the payment says

Each attempt of `process_payment` is a new charge for the provider, and an attempt whose answer is
lost may have charged all the same. A payment is charged once if no attempt reaches the provider
after one that was accepted, and it is not charged when it is `FAILED` if none was accepted before
it was given up, nor is one afterwards. -/

namespace Payflow.Safety

open Payflow.Lib Payflow.Model Payflow.Spec Payflow.Network

variable {P : Platform} {n : Net P} {S S' : Provider} {id : String} {hd : Handler}

/-- The records with which the payment was charged. -/
def charges (S : Provider) (p : Uuid) : List ProviderPayment :=
  S.payments.filter fun r => r.paymentId = p ∧ r.status = .succeeded

/-- The requests for payments. -/
def paymentKind (P : Platform) : Kind P ProviderPayment where
  toRecords := paymentRecords
  rows := Provider.payments
  key := (·.providerPaymentId)
  object := (·.paymentId)
  key_set _ _ := rfl
  object_set _ _ := rfl
  wants
    | .postPayment scenario request =>
      if scenario = .declined ∨ scenario = .serverError then none else some request.paymentId
    | _ => none
  admits _
    | .postPayment _ request => request.valid
    | _ => false
  failed D p := (D.payment? p).any fun row => row.status = .failed
  givesUp
    | .recordTransition p _ .failed .null _ => some p
    | _ => none

theorem createProviderRefund_payments {text : String} {scenario : RefundScenario}
    {request : RefundBody} (h : handle P S id text (.postRefund scenario request) = some (S', hd)) :
    S'.payments = S.payments := by
  simp only [handle] at h
  split_ifs at h
  · obtain ⟨rfl, rfl⟩ := Prod.mk.inj (Option.some.inj h)
    rfl
  · have h := Option.some.inj h
    unfold createProviderRefund at h
    split at h
    · obtain ⟨rfl, rfl⟩ := Prod.mk.inj h
      rfl
    · dsimp only at h
      split_ifs at h
      · obtain ⟨rfl, rfl⟩ := Prod.mk.inj h
        rfl
      · cases scenario <;> obtain ⟨rfl, rfl⟩ := Prod.mk.inj h <;> rfl

theorem finishProviderPayment_rows {scenario : Scenario} {p : Uuid}
    (h : finishProviderPayment S id p scenario = (S', hd)) :
    (∀ k, hd ≠ .asleep k) ∧
      ((scenario = .serverError ∧ S'.payments = S.payments) ∨
        ∃ st, S'.payments = setWhere (fun r => r.providerPaymentId = id)
            (paymentRecords.set st) S.payments ∧
          (st = .succeeded → scenario ≠ .declined ∧ scenario ≠ .serverError) ∧
          accepted (.handled hd) = true) := by
  have hset : ∀ st, (S.setPayment id st).payments =
      setWhere (fun r => r.providerPaymentId = id) (paymentRecords.set st) S.payments := by
    intro st
    simp [Provider.setPayment, setWhere, paymentRecords]
  cases scenario <;> obtain ⟨rfl, rfl⟩ := Prod.mk.inj h
  case serverError => exact ⟨by simp, Or.inl ⟨rfl, rfl⟩⟩
  case declined => exact ⟨by simp, Or.inr ⟨.failed, hset _, by simp, rfl⟩⟩
  all_goals exact ⟨by simp, Or.inr ⟨.succeeded, hset _, by simp, rfl⟩⟩

theorem not_charged {x : Uuid} {id : String} (hok : NetOk n)
    (hkeys : (n.provider.payments.map (·.providerPaymentId)).Nodup)
    (hr : HasRecord n.provider x id .failed) (k : String) :
    ¬ (paymentKind P).Counts n.provider (attempts n) x k := by
  rintro (⟨r, hmem, rfl, hx, hst⟩ | ⟨e, hmem, hwants⟩)
  · have hfind : n.provider.payment? r.providerPaymentId = some r := find?_key_of_mem hkeys hmem
    have hdone : HasRecord (view n).provider x r.providerPaymentId .succeeded := ⟨r, hfind, hx, hst⟩
    exact hok.inv.agree hdone hr
  · obtain ⟨c, hc, he⟩ := List.mem_map.mp hmem
    obtain ⟨rfl, -⟩ := Prod.mk.inj he
    obtain ⟨i, hi⟩ := List.getElem?_of_mem hc
    have hallow := (hok.calls i c hi).allowed
    generalize c.request = e at hallow hwants
    cases e with
    | postPayment scenario request =>
      simp only [paymentKind] at hwants
      split_ifs at hwants with hs
      obtain rfl := Option.some.inj hwants
      obtain ⟨⟨j, ht⟩, -⟩ := hallow
      have hr : HasRecord (view n).provider request.paymentId id .failed := hr
      exact hs (Or.inl ((hok.inv.ended hr (by simp) ht).mp rfl))
    | _ => simp [paymentKind] at hwants

theorem paymentKind_begins {text : String} {e : Ext}
    (h : handle P S id text e = some (S', hd)) : (paymentKind P).Begins S S' id e hd := by
  cases e with
  | postPayment scenario request =>
    simp only [handle] at h
    split_ifs at h with hvalid hunused
    · obtain ⟨rfl, rfl⟩ := Prod.mk.inj (Option.some.inj h)
      exact .idle rfl fun k hk => by simp at hk
    have hvalid : request.valid = true := by simpa using hvalid
    have hnew : id ∉ S.payments.map (·.providerPaymentId) :=
      not_mem_map_of_find? (unused_iff.mp hunused).1
    have h := Option.some.inj h
    unfold createProviderPayment at h
    generalize hr : (⟨id, request.paymentId, request.amountCents, P.upper request.currency,
      .processing⟩ : ProviderPayment) = r at h
    have hid : r.providerPaymentId = id := by rw [← hr]
    have hp : r.paymentId = request.paymentId := by rw [← hr]
    have hrunning : r.status ≠ .succeeded := by simp [← hr]
    dsimp only at h
    split_ifs at h with hsleep
    · obtain ⟨rfl, rfl⟩ := Prod.mk.inj h
      exact .record r rfl hid hnew hvalid (fun k hk => (Handler.asleep.inj hk).symm)
        fun he => absurd he hrunning
    · obtain ⟨hawake, ⟨-, hS⟩ | ⟨st, hS, hdone, hacc⟩⟩ := finishProviderPayment_rows h
      · exact .record r hS hid hnew hvalid (fun k hk => absurd hk (hawake k))
          fun he => absurd he hrunning
      · refine .record (paymentRecords.set st r) ?_ hid hnew hvalid
          (fun k hk => absurd hk (hawake k)) fun he => ⟨?_, hacc⟩
        · exact hS.trans (setWhere_append hnew hid)
        · obtain ⟨h₁, h₂⟩ := hdone he
          show (if scenario = .declined ∨ scenario = .serverError then none
            else some request.paymentId) = some r.paymentId
          rw [if_neg (by simp [h₁, h₂]), hp]
  | getPayment id' =>
    obtain ⟨rfl, rfl⟩ := Prod.mk.inj (Option.some.inj h)
    exact .idle rfl fun k hk => by simp at hk
  | postRefund scenario request =>
    exact .idle (createProviderRefund_payments h) fun k _ => rfl
  | _ => simp [handle] at h

theorem paymentKind_finishes {e : Ext} (hkeys : (S.payments.map (·.providerPaymentId)).Nodup)
    (hsleep : Asleep S id e) (h : wakeHandler S id e = some (S', hd)) :
    (paymentKind P).Finishes S S' id e hd := by
  cases e with
  | postPayment scenario request =>
    obtain ⟨-, r, hr, hp, -⟩ := hsleep
    obtain ⟨hmem, hid⟩ := find?_key hr
    obtain ⟨hawake, ⟨rfl, hS⟩ | ⟨st, hS, hdone, hacc⟩⟩ :=
      finishProviderPayment_rows (Option.some.inj h)
    · exact .idle hS (by simp [paymentKind]) hawake
    · refine .record st hS (fun hst r' hr' hid' => ?_) hacc hawake
      obtain rfl := eq_of_key hkeys hr' hmem (hid'.trans hid.symm)
      obtain ⟨h₁, h₂⟩ := hdone hst
      show (if scenario = .declined ∨ scenario = .serverError then none
        else some request.paymentId) = some r'.paymentId
      rw [if_neg (by simp [h₁, h₂]), hp]
  | postRefund scenario request =>
    have h := Option.some.inj h
    cases scenario <;> obtain ⟨rfl, rfl⟩ := Prod.mk.inj h <;> exact .idle rfl rfl (by simp)
  | _ => simp [wakeHandler] at h

theorem paymentKind_fails {b : Block} {now : ℕ} {ws : List Write} {r : BRes b} {x : Uuid}
    (hok : NetOk n) (hcall : Callable (view n) b) (hdoes : Does P b now n.app.db ws r)
    (hkeys : (n.provider.payments.map (·.providerPaymentId)).Nodup)
    (hx : (paymentKind P).failed (store.applyAll n.app.db ws) x = true) :
    (paymentKind P).failed n.app.db x = true ∨ (paymentKind P).givesUp b = some x ∨
      ∀ k, ¬ (paymentKind P).Counts n.provider (attempts n) x k := by
  obtain ⟨row', hrow', hst⟩ := (Option.any_eq_true _ _).mp hx
  have hst : row'.status = .failed := of_decide_eq_true hst
  have hsame : ∀ {row : Payment}, n.app.db.payment? x = some row → row.status = .failed →
      (paymentKind P).failed n.app.db x = true := by
    intro row hrow hst
    exact (Option.any_eq_true _ _).mpr ⟨row, hrow, decide_eq_true hst⟩
  have hstep := row_step hdoes x
  rw [hrow'] at hstep
  generalize hp : n.app.db.payment? x = before at hstep hsame
  generalize hafter : some row' = after at hstep
  cases hstep with
  | same => exact Or.inl (hsame hafter.symm hst)
  | new =>
    obtain rfl := Option.some.inj hafter
    simp [newPayment] at hst
  | @set row cols hset =>
    obtain rfl := Option.some.inj hafter
    obtain rfl := payment_id hp
    refine Or.inr ?_
    cases hset with
    | @transition type new provider failure =>
      obtain rfl : new = .failed := hst
      obtain ⟨-, rfl | ⟨id, -, hr⟩⟩ := hcall
      · exact Or.inl rfl
      · exact Or.inr (not_charged hok hkeys hr)
    | awaiting hs | retry hs =>
      have hst : row.status = .failed := hst
      simp [hs] at hst
    | webhook hs hfield hq hstatus =>
      obtain ⟨eventId, p, id, rfl, -⟩ := hcall
      obtain rfl := Except.ok.inj hstatus
      simp [webhookStatus, Json.isStr] at hst
    | @reconcile status hs =>
      obtain rfl : status = .failed := hst
      obtain ⟨id, hr⟩ := hcall.2
      exact Or.inr (not_charged hok hkeys hr)
    | refund => simp at hst
    | @complete q refund total =>
      have hst : statusAfterRefund total row.amountCents = .failed := hst
      unfold statusAfterRefund at hst
      split_ifs at hst
    | restore => simp at hst

theorem paymentKind_lawful (P : Platform) : (paymentKind P).Lawful where
  webhooks _ _ := rfl
  begins := paymentKind_begins
  finishes := paymentKind_finishes
  fails hok hcall _ hdoes hkeys hx := paymentKind_fails hok hcall hdoes hkeys hx

/-- **A payment is charged once, and not if it is `FAILED`**, while no request for it is taken up
after one that was accepted, and it is not given up when one was. -/
theorem charged_once (hP : PlatformLaws P)
    (h : Reaches Net.step (fun n a => (paymentKind P).careful n a = true) (Net.init P) n)
    (p : Uuid) : (charges n.provider p).length ≤ 1 ∧
      ∀ row, n.app.db.payment? p = some row → row.status = .failed → charges n.provider p = [] := by
  have hsingle := (paymentKind_lawful P).single_of_reaches hP rfl h
  refine ⟨hsingle.length_done p, fun row hrow hst => ?_⟩
  exact hsingle.done_failed ((Option.any_eq_true _ _).mpr ⟨row, hrow, decide_eq_true hst⟩)

/-- A retry of the payment is recorded and sent. -/
def retryScript (pid n : ℕ) : List Act :=
  quiet pid 3 ++ draw pid [n] ++ quiet pid 1 ++ [.step pid (.broker true)] ++ quiet pid 1

/-- The first request is lost, and the retry is charged. -/
def retriedPayment : List (NetAction examplePlatform) :=
  (createPaymentScript 0 1 ++ startPaymentScript 1 0 4).map .app ++
    [.send 1, .fail 0 .networkError] ++
    (retryScript 1 6).map .app ++ .app (.start (.task 1)) :: (quiet 2 3).map .app ++
    [.send 2, .receive 1 "provider_1" "", .respond 1] ++
    (quiet 2 3 ++ draw 2 [7, 8] ++ quiet 2 2).map .app

/-- A payment that is charged at the second attempt. -/
theorem charged_once_retriedPayment : ∃ (n : Net examplePlatform) (row : Payment),
    n.app.db.payment? (exampleUuid 1) = some row ∧ row.status = .succeeded ∧ row.retryCount = 1 ∧
      (charges n.provider (exampleUuid 1)).map (·.amountCents) = [500] ∧
      (charges n.provider (exampleUuid 1)).length ≤ 1 := by
  have h : (runSteps Net.step (fun n a => (paymentKind _).careful n a) (Net.init examplePlatform)
      retriedPayment).map
      (fun n => ((n.app.db.payment? (exampleUuid 1)).map fun row => (row.status, row.retryCount),
        (charges n.provider (exampleUuid 1)).map (·.amountCents))) =
      some (some (.succeeded, 1), [500]) := by
    decide +kernel
  obtain ⟨n, hs, h⟩ := Option.map_eq_some_iff.mp h
  obtain ⟨h, hcharges⟩ := Prod.mk.inj h
  obtain ⟨row, hrow, h⟩ := Option.map_eq_some_iff.mp h
  obtain ⟨hst, hcount⟩ := Prod.mk.inj h
  have hone := charged_once examplePlatform_laws (.runSteps (fun _ _ hc => hc) .refl hs)
    (exampleUuid 1)
  exact ⟨n, row, hrow, hst, hcount, hcharges, hone.1⟩

/-- An attempt whose client gives up while the handler sleeps. -/
def lostAttempt (i : ℕ) (id : String) (before after : List Act) : List (NetAction examplePlatform) :=
  .app (.start (.task i)) :: before.map .app ++
    [.send (i + 1), .receive i id "", .fail i .timeoutException] ++ after.map .app

/-- The client gives up four times, and then the handlers end. -/
def fourTimeouts : List (NetAction examplePlatform) :=
  (createPaymentWith { examplePayment with xTestScenario := .timeout } 0 1).map .app ++
  lostAttempt 0 "provider_1" (quiet 1 6 ++ draw 1 [4, 5] ++ quiet 1 1) (retryScript 1 6) ++
  lostAttempt 1 "provider_2" (quiet 2 3) (retryScript 2 7) ++
  lostAttempt 2 "provider_3" (quiet 3 3) (retryScript 3 8) ++
  lostAttempt 3 "provider_4" (quiet 4 3)
    (quiet 4 3 ++ draw 4 [9] ++ quiet 4 4 ++ draw 4 [10, 11] ++ quiet 4 2) ++
  [.wake 0, .wake 1, .wake 2, .wake 3]

/-- The retries of a payment are used up, and every attempt has charged it. -/
theorem charged_once_fails : ∃ n : Net examplePlatform, NetReachable n ∧ nothingLeft n = true ∧
    (n.app.db.payment? (exampleUuid 1)).map (·.status) = some .failed ∧
    (charges n.provider (exampleUuid 1)).length = 4 := by
  have h : (runSteps Net.step (fun _ _ => true) (Net.init examplePlatform) fourTimeouts).map
      (fun n => (nothingLeft n, (n.app.db.payment? (exampleUuid 1)).map (·.status),
        (charges n.provider (exampleUuid 1)).length)) = some (true, some .failed, 4) := by
    decide +kernel
  obtain ⟨n, hs, h⟩ := Option.map_eq_some_iff.mp h
  simp only [Prod.mk.injEq] at h
  exact ⟨n, Reaches.runSteps (fun _ _ _ => trivial) .refl hs, h.1, h.2.1, h.2.2⟩

end Payflow.Safety
