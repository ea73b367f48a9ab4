import Payflow.Network.View

/-! # The handlers of the provider

What the handlers do to the records, and that they respond as the logic of captures says: a record
ends once, as the scenario of its request says. -/

namespace Payflow.Network

open Payflow.Lib Payflow.Model Payflow.Spec Payflow.Safety

variable {P : Platform} {v : View} {S : Provider} {id : String}

/-! ### Records -/

theorem payment?_append (h : S.payment? id = none) {r : ProviderPayment}
    (hid : r.providerPaymentId = id) (id' : String) :
    ({ S with payments := S.payments ++ [r] } : Provider).payment? id' =
      if id' = id then some r else S.payment? id' :=
  find?_append_key ProviderPayment.providerPaymentId h hid id'

theorem refund?_append (h : S.refund? id = none) {r : ProviderRefund}
    (hid : r.providerRefundId = id) (id' : String) :
    ({ S with refunds := S.refunds ++ [r] } : Provider).refund? id' =
      if id' = id then some r else S.refund? id' :=
  find?_append_key ProviderRefund.providerRefundId h hid id'

theorem payment?_ended {r : ProviderPayment} (h : S.payment? id = some r) (st : ProviderStatus)
    (id' : String) : (S.setPayment id st).payment? id' =
      if id' = id then some { r with status := st } else S.payment? id' := by
  have hset := find?_setWhere_key ProviderPayment.providerPaymentId
    (f := fun r => { r with status := st }) h (fun _ => rfl) id'
  simp only [setWhere, decide_eq_true_eq] at hset
  exact hset

theorem refund?_ended {r : ProviderRefund} (h : S.refund? id = some r) (st : ProviderStatus)
    (id' : String) : (S.setRefund id st).refund? id' =
      if id' = id then some { r with status := st } else S.refund? id' := by
  have hset := find?_setWhere_key ProviderRefund.providerRefundId
    (f := fun r => { r with status := st }) h (fun _ => rfl) id'
  simp only [setWhere, decide_eq_true_eq] at hset
  exact hset

/-- The provider's records change so that none is lost, and all are right. -/
theorem inv_provider (hinv : v.Inv P) (hle : RecordsLe v.provider S) (hle' : RefundsLe v.provider S)
    (hrec : ∀ id r, S.payment? id = some r → RecordOk P v r)
    (hrec' : ∀ id r, S.refund? id = some r → RefundRecordOk v r) :
    View.Inv P { v with provider := S } ∧ v.Le { v with provider := S } := by
  have hv : v.Le { v with provider := S } := .provider hle hle'
  refine ⟨⟨hinv.db, hinv.refunds, fun p row hrow => (hinv.rows p row hrow).mono hle,
    fun q refund hq hs => ?_, fun id r hr => (hrec id r hr).mono hv,
    fun id r hr => (hrec' id r hr).mono hv, hinv.scenarios, hinv.refundScenarios⟩, hv⟩
  obtain ⟨id, hr⟩ := hinv.refundRows q refund hq hs
  exact ⟨id, hr.mono hle' (by simp)⟩

theorem inv_same (hinv : v.Inv P) (hS : ∀ id, S.payment? id = v.provider.payment? id)
    (hS' : ∀ id, S.refund? id = v.provider.refund? id) :
    View.Inv P { v with provider := S } ∧ v.Le { v with provider := S } :=
  inv_provider hinv (.same hS) (.same hS')
    (fun id r hr => hinv.records id r ((hS id).symm.trans hr))
    fun id r hr => hinv.refundRecords id r ((hS' id).symm.trans hr)

theorem inv_record (hinv : v.Inv P) {r : ProviderPayment}
    (hS : ∀ id', S.payment? id' = if id' = id then some r else v.provider.payment? id')
    (hS' : ∀ id', S.refund? id' = v.provider.refund? id')
    (hold : ∀ r₀, v.provider.payment? id = some r₀ → paymentRecords.Le r₀ r)
    (hr : RecordOk P v r) :
    View.Inv P { v with provider := S } ∧ v.Le { v with provider := S } := by
  refine inv_provider hinv (.set hS hold) (.same hS') (fun id' r' hr' => ?_)
    fun id' r' hr' => hinv.refundRecords id' r' ((hS' id').symm.trans hr')
  rw [hS] at hr'
  split_ifs at hr' with he
  · exact Option.some.inj hr' ▸ hr
  · exact hinv.records id' r' hr'

theorem inv_refundRecord (hinv : v.Inv P) {r : ProviderRefund}
    (hS : ∀ id', S.payment? id' = v.provider.payment? id')
    (hS' : ∀ id', S.refund? id' = if id' = id then some r else v.provider.refund? id')
    (hold : ∀ r₀, v.provider.refund? id = some r₀ → refundRecords.Le r₀ r)
    (hr : RefundRecordOk v r) :
    View.Inv P { v with provider := S } ∧ v.Le { v with provider := S } := by
  refine inv_provider hinv (.same hS) (.set hS' hold)
    (fun id' r' hr' => hinv.records id' r' ((hS id').symm.trans hr')) fun id' r' hr' => ?_
  rw [hS'] at hr'
  split_ifs at hr' with he
  · exact Option.some.inj hr' ▸ hr
  · exact hinv.refundRecords id' r' hr'

/-- The handler of the request sleeps on the record under the id. -/
def Asleep (S : Provider) (id : String) : Ext → Prop
  | .postPayment scenario json => scenario ≠ .declined ∧
    ∃ r, S.payment? id = some r ∧ r.paymentId = json.paymentId ∧ r.status = .processing
  | .postRefund scenario json => scenario ≠ .declined ∧
    ∃ r, S.refund? id = some r ∧ r.refundId = json.refundId ∧ r.status = .processing
  | _ => False

/-- The records under the id are the same. -/
def SameAt (S S' : Provider) (id : String) : Prop :=
  S'.payment? id = S.payment? id ∧ S'.refund? id = S.refund? id

theorem Asleep.congr {S' : Provider} {e : Ext} (h : Asleep S id e) (hS : SameAt S S' id) :
    Asleep S' id e := by
  cases e with
  | postPayment scenario json =>
    unfold Asleep
    rw [hS.1]
    exact h
  | postRefund scenario json =>
    unfold Asleep
    rw [hS.2]
    exact h
  | _ => exact h

theorem Asleep.used {e : Ext} (h : Asleep S id e) : S.unused id = false := by
  cases e with
  | postPayment scenario json =>
    obtain ⟨-, r, hr, -⟩ := h
    simp [Provider.unused, hr]
  | postRefund scenario json =>
    obtain ⟨-, r, hr, -⟩ := h
    simp [Provider.unused, hr]
  | _ => exact h.elim

theorem unused_iff : S.unused id = true ↔ S.payment? id = none ∧ S.refund? id = none := by
  simp [Provider.unused]

/-! ### The end of a handler -/

theorem accepted_error {Q : Json → Prop} {r : Response} (h : 400 ≤ r.statusCode) :
    Accepted Q (.response r.statusCode r.text r.json) := by
  intro statusCode text json hout hcode
  obtain ⟨rfl, -, -⟩ := HttpOutcome.response.inj hout
  omega

theorem reply_paymentResponse {p : Uuid} {status message : String} {st : ProviderStatus}
    (hr : HasRecord v.provider p id st)
    (hst : (st = .succeeded ∧ (status = "SUCCEEDED" ∨ status = "PROCESSING")) ∨
      (st = .failed ∧ status = "FAILED")) :
    Accepted (PaymentReply v p) (.response (paymentResponse id p status message).statusCode
      (paymentResponse id p status message).text (paymentResponse id p status message).json) := by
  intro statusCode text json hout _
  obtain ⟨-, -, hjson⟩ := HttpOutcome.response.inj hout
  obtain rfl := Except.ok.inj hjson
  exact ⟨id, status, st, rfl, rfl, hr, hst⟩

theorem reply_refundResponse {json : RefundBody} {message : String} {st : ProviderStatus}
    (hr : HasRefund v.provider json.refundId id st) (hst : st ≠ .processing) :
    Accepted (RefundReply v json.refundId)
      (.response (refundResponse id json st.text message).statusCode
        (refundResponse id json st.text message).text
        (refundResponse id json st.text message).json) := by
  intro statusCode text reply hout _
  obtain ⟨-, -, hjson⟩ := HttpOutcome.response.inj hout
  obtain rfl := Except.ok.inj hjson
  exact ⟨id, st, rfl, hst, hr⟩

/-- What a handler leaves behind: the webhooks it sends report a record with success. -/
def Notified (S S' : Provider) : Prop :=
  ∀ w ∈ S'.webhooks, w ∈ S.webhooks ∨ HasRecord S' w.paymentId w.providerPaymentId .succeeded

/-- What is true when a handler has ended. -/
structure Finished (P : Platform) (v : View) (e : Ext) (id : String) (S : Provider)
    (hd : Handler) : Prop where
  inv : View.Inv P { v with provider := S }
  le : v.Le { v with provider := S }
  reply : ∃ res, hd = .ended res ∧
    Replies { v with provider := S } (.response res.statusCode res.text res.json) e
  notified : Notified v.provider S
  others : ∀ id', id' ≠ id → SameAt v.provider S id'

/-- A handler that ends with an error leaves the records as they are. -/
theorem finished_error {e : Ext} {r : Response} (hinv : v.Inv P) (h : 400 ≤ r.statusCode) :
    Finished P v e id v.provider (.ended r) := by
  obtain ⟨hinv', hle⟩ := inv_same (S := v.provider) hinv (fun _ => rfl) fun _ => rfl
  refine ⟨hinv', hle, ⟨_, rfl, ?_⟩, fun w hw => Or.inl hw, fun _ _ => ⟨rfl, rfl⟩⟩
  cases e with
  | postPayment scenario json | getPayment id | postRefund scenario json => exact accepted_error h
  | _ => trivial

/-- **The handler of a payment request ends.** -/
theorem finish_ok {scenario : Scenario} {json : PaymentBody} {r : ProviderPayment} {hd : Handler}
    (hinv : v.Inv P) (hallow : Allowed v (.postPayment scenario json))
    (hr : v.provider.payment? id = some r) (hp : r.paymentId = json.paymentId)
    (hst : r.status = .processing)
    (h : finishProviderPayment v.provider id json.paymentId scenario = (S, hd)) :
    Finished P v (.postPayment scenario json) id S hd := by
  -- the provider after the record has ended, and a webhook is sent or not
  have hend : ∀ {st status message S}, (st = .failed ↔ scenario = .declined) →
      ((st = .succeeded ∧ (status = "SUCCEEDED" ∨ status = "PROCESSING")) ∨
        (st = .failed ∧ status = "FAILED")) →
      S.payments = (v.provider.setPayment id st).payments → S.refunds = v.provider.refunds →
      (∀ w ∈ S.webhooks, w ∈ v.provider.webhooks ∨
        (st = .succeeded ∧ w.paymentId = json.paymentId ∧ w.providerPaymentId = id)) →
      Finished P v (.postPayment scenario json) id S
        (.ended (paymentResponse id json.paymentId status message)) := by
    intro st status message S hiff hreply hS hS' hw
    have hfind : ∀ id', S.payment? id' =
        if id' = id then some { r with status := st } else v.provider.payment? id' := fun id' => by
      rw [← payment?_ended hr]
      unfold Provider.payment?
      rw [hS]
    have hsame : ∀ id', S.refund? id' = v.provider.refund? id' := fun id' => by
      unfold Provider.refund?
      rw [hS']
    obtain ⟨i, ht⟩ := hallow.1
    obtain ⟨hinv', hle⟩ := inv_record hinv hfind hsame (fun r₀ hr₀ => by
        obtain rfl := Option.some.inj (hr.symm.trans hr₀)
        exact Records.le_set (K := paymentRecords) hst st)
      ⟨(hinv.records id r hr).row, fun _ => ⟨i, scenario, hp ▸ ht, hiff⟩⟩
    have hrec : HasRecord S json.paymentId id st :=
      ⟨{ r with status := st }, by rw [hfind, if_pos rfl], hp, rfl⟩
    refine ⟨hinv', hle, ⟨_, rfl, reply_paymentResponse hrec hreply⟩, fun w hmem => ?_,
      fun id' he => ⟨by rw [hfind, if_neg he], hsame id'⟩⟩
    rcases hw w hmem with hold | ⟨rfl, hpay, hid⟩
    · exact Or.inl hold
    · exact Or.inr (by rw [hpay, hid]; exact hrec)
  have hwebhook : ∀ {dup : Bool},
      ∀ w ∈ v.provider.webhooks ++ [⟨json.paymentId, id, dup, .waiting⟩],
      w ∈ v.provider.webhooks ∨
        (ProviderStatus.succeeded = .succeeded ∧ w.paymentId = json.paymentId ∧
          w.providerPaymentId = id) := by
    intro dup w hmem
    rcases List.mem_append.mp hmem with hmem | hmem
    · exact Or.inl hmem
    · obtain rfl := List.mem_singleton.mp hmem
      exact Or.inr ⟨rfl, rfl, rfl⟩
  cases scenario with
  | serverError =>
    obtain ⟨rfl, rfl⟩ := Prod.mk.inj h
    exact finished_error hinv (by simp [errorResponse])
  | declined =>
    obtain ⟨rfl, rfl⟩ := Prod.mk.inj h
    exact hend (by simp) (Or.inr ⟨rfl, rfl⟩) rfl rfl fun w hw => Or.inl hw
  | lostWebhook =>
    obtain ⟨rfl, rfl⟩ := Prod.mk.inj h
    exact hend (by simp) (Or.inl ⟨rfl, Or.inr rfl⟩) rfl rfl fun w hw => Or.inl hw
  | delayedWebhook | duplicateWebhook =>
    obtain ⟨rfl, rfl⟩ := Prod.mk.inj h
    exact hend (by simp) (Or.inl ⟨rfl, Or.inr rfl⟩) rfl rfl hwebhook
  | success | timeout | delayedSuccess =>
    obtain ⟨rfl, rfl⟩ := Prod.mk.inj h
    exact hend (by simp) (Or.inl ⟨rfl, Or.inl rfl⟩) rfl rfl fun w hw => Or.inl hw

/-- **The handler of a refund request ends.** -/
theorem finishRefund_ok {scenario : RefundScenario} {json : RefundBody} {r : ProviderRefund}
    {hd : Handler} (hinv : v.Inv P) (hallow : Allowed v (.postRefund scenario json))
    (hr : v.provider.refund? id = some r) (hq : r.refundId = json.refundId)
    (hst : r.status = .processing)
    (h : finishProviderRefund v.provider id json scenario = (S, hd)) :
    Finished P v (.postRefund scenario json) id S hd := by
  have hend : ∀ {st : ProviderStatus} {message}, st ≠ .processing →
      (st = .failed ↔ scenario = .declined) →
      Finished P v (.postRefund scenario json) id (v.provider.setRefund id st)
        (.ended (refundResponse id json st.text message)) := by
    intro st message hne hiff
    have hfind := refund?_ended hr st
    obtain ⟨i, ht⟩ := hallow.1
    obtain ⟨hinv', hle⟩ := inv_refundRecord hinv (S := v.provider.setRefund id st) (fun _ => rfl)
      hfind (fun r₀ hr₀ => by
        obtain rfl := Option.some.inj (hr.symm.trans hr₀)
        exact Records.le_set (K := refundRecords) hst st)
      ⟨(hinv.refundRecords id r hr).row, fun _ => ⟨i, scenario, hq ▸ ht, hiff⟩⟩
    have hrec : HasRefund (v.provider.setRefund id st) json.refundId id st :=
      ⟨{ r with status := st }, by rw [hfind, if_pos rfl], hq, rfl⟩
    exact ⟨hinv', hle, ⟨_, rfl, reply_refundResponse hrec hne⟩, fun w hw => Or.inl hw,
      fun id' he => ⟨rfl, by rw [hfind, if_neg he]⟩⟩
  cases scenario with
  | serverError =>
    obtain ⟨rfl, rfl⟩ := Prod.mk.inj h
    exact finished_error hinv (by simp [errorResponse])
  | declined =>
    obtain ⟨rfl, rfl⟩ := Prod.mk.inj h
    exact hend (by simp) (by simp)
  | success | timeout =>
    obtain ⟨rfl, rfl⟩ := Prod.mk.inj h
    exact hend (by simp) (by simp)

/-- **A handler that has slept ends.** -/
theorem wake_ok {e : Ext} {hd : Handler} (hinv : v.Inv P) (hallow : Allowed v e)
    (hsleep : Asleep v.provider id e) (h : wakeHandler v.provider id e = some (S, hd)) :
    Finished P v e id S hd := by
  cases e with
  | postPayment scenario json =>
    obtain ⟨-, r, hr, hp, hst⟩ := hsleep
    exact finish_ok hinv hallow hr hp hst (Option.some.inj h)
  | postRefund scenario json =>
    obtain ⟨-, r, hr, hq, hst⟩ := hsleep
    exact finishRefund_ok hinv hallow hr hq hst (Option.some.inj h)
  | _ => simp [wakeHandler] at h

/-! ### The beginning of a handler -/

/-- What is true when a handler has begun. -/
structure Begun (P : Platform) (v : View) (e : Ext) (id : String) (S : Provider)
    (hd : Handler) : Prop where
  inv : View.Inv P { v with provider := S }
  le : v.Le { v with provider := S }
  reply : ∀ res, hd = .ended res →
    Replies { v with provider := S } (.response res.statusCode res.text res.json) e
  asleep : ∀ id', hd = .asleep id' → id' = id ∧ v.provider.unused id = true ∧ Asleep S id e
  notified : Notified v.provider S
  kept : ∀ id' e', Asleep v.provider id' e' → Asleep S id' e'

theorem Finished.begun {e : Ext} {hd : Handler} (h : Finished P v e id S hd)
    (hkept : SameAt v.provider S id) : Begun P v e id S hd := by
  obtain ⟨res, rfl, hreply⟩ := h.reply
  refine ⟨h.inv, h.le, fun res' he => ?_, fun _ he => by simp at he, h.notified,
    fun id' e' hs => hs.congr ?_⟩
  · obtain rfl := Handler.ended.inj he
    exact hreply
  · by_cases he : id' = id
    · exact he ▸ hkept
    · exact h.others id' he

/-- A handler has made its record, in the provider `S₁`, and then sleeps or ends. -/
theorem begun_record {e : Ext} {hd : Handler} {S₁ : Provider} (hid : v.provider.unused id = true)
    (hinv : View.Inv P { v with provider := S₁ }) (hle : v.Le { v with provider := S₁ })
    (hweb : S₁.webhooks = v.provider.webhooks)
    (hothers : ∀ id', id' ≠ id → SameAt v.provider S₁ id')
    (hd' : (S = S₁ ∧ hd = .asleep id ∧ Asleep S₁ id e) ∨
      Finished P { v with provider := S₁ } e id S hd) : Begun P v e id S hd := by
  -- whoever sleeps has another record
  have hne : ∀ {id' e'}, Asleep v.provider id' e' → id' ≠ id := by
    rintro id' e' hs rfl
    simp [hs.used] at hid
  rcases hd' with ⟨rfl, rfl, hsleep⟩ | hfin
  · refine ⟨hinv, hle, fun res hres => by simp at hres, fun id' he => ?_,
      fun w hw => Or.inl (hweb ▸ hw), fun id' e' hs => hs.congr (hothers id' (hne hs))⟩
    exact ⟨(Handler.asleep.inj he).symm, hid, hsleep⟩
  · obtain ⟨res, rfl, hreply⟩ := hfin.reply
    refine ⟨hfin.inv, hle.trans hfin.le, fun res' he => ?_, fun _ he => by simp at he,
      fun w hw => ?_, fun id' e' hs => ?_⟩
    · obtain rfl := Handler.ended.inj he
      exact hreply
    · rcases hfin.notified w hw with hw | hw
      · exact Or.inl (hweb ▸ hw)
      · exact Or.inr hw
    · exact (hs.congr (hothers id' (hne hs))).congr (hfin.others id' (hne hs))

theorem createProviderPayment_ok {scenario : Scenario} {json : PaymentBody} {hd : Handler}
    (hinv : v.Inv P) (hallow : Allowed v (.postPayment scenario json))
    (hid : v.provider.unused id = true)
    (h : createProviderPayment P v.provider id scenario json = (S, hd)) :
    Begun P v (.postPayment scenario json) id S hd := by
  unfold createProviderPayment at h
  obtain ⟨hnone, -⟩ := unused_iff.mp hid
  generalize hr : (⟨id, json.paymentId, json.amountCents, P.upper json.currency, .processing⟩ :
    ProviderPayment) = r at h
  have hfind := payment?_append hnone (r := r) (by rw [← hr])
  generalize hS₁ : ({ v.provider with payments := v.provider.payments ++ [r] } : Provider) = S₁
    at h hfind
  have hsame : ∀ id', S₁.refund? id' = v.provider.refund? id' := fun id' => by rw [← hS₁]; rfl
  have hrec : RecordOk P v r := by
    obtain ⟨-, row, hrow, hamount, hcurrency⟩ := hallow
    subst hr
    exact ⟨⟨row, hrow, hamount, by rw [hcurrency]⟩, fun hst => absurd rfl hst⟩
  obtain ⟨hinv₁, hle₁⟩ := inv_record hinv hfind hsame (fun r₀ hr₀ => by simp [hnone] at hr₀) hrec
  have hnew : S₁.payment? id = some r := by rw [hfind, if_pos rfl]
  have hpay : r.paymentId = json.paymentId := by rw [← hr]
  have hst : r.status = .processing := by rw [← hr]
  refine begun_record hid hinv₁ hle₁ (by rw [← hS₁])
    (fun id' he => ⟨by rw [hfind, if_neg he], hsame id'⟩) ?_
  split_ifs at h with hsleep
  · obtain ⟨rfl, rfl⟩ := Prod.mk.inj h
    refine Or.inl ⟨rfl, rfl, ?_, r, hnew, hpay, hst⟩
    rcases hsleep with rfl | rfl <;> simp
  · exact Or.inr (finish_ok hinv₁ (allowed_mono hle₁ hallow) hnew hpay hst h)

theorem refuseProviderRefund_statusCode {json : RefundBody} {res : Response}
    (h : refuseProviderRefund P S json = some res) : 400 ≤ res.statusCode := by
  unfold refuseProviderRefund at h
  split at h
  · obtain rfl := Option.some.inj h
    simp [errorResponse]
  · dsimp only at h
    split_ifs at h
    all_goals
      obtain rfl := Option.some.inj h
      simp [errorResponse]

theorem createProviderRefund_ok {scenario : RefundScenario} {json : RefundBody} {hd : Handler}
    (hinv : v.Inv P) (hallow : Allowed v (.postRefund scenario json))
    (hid : v.provider.unused id = true)
    (h : createProviderRefund P v.provider id scenario json = (S, hd)) :
    Begun P v (.postRefund scenario json) id S hd := by
  unfold createProviderRefund at h
  split at h
  · rename_i res hrefused
    obtain ⟨rfl, rfl⟩ := Prod.mk.inj h
    exact (finished_error hinv (refuseProviderRefund_statusCode hrefused)).begun ⟨rfl, rfl⟩
  obtain ⟨-, hnone⟩ := unused_iff.mp hid
  generalize hr : (⟨id, json.refundId, json.providerPaymentId, json.amountCents,
    P.upper json.currency, .processing⟩ : ProviderRefund) = r at h
  have hfind := refund?_append hnone (r := r) (by rw [← hr])
  generalize hS₁ : ({ v.provider with refunds := v.provider.refunds ++ [r] } : Provider) = S₁
    at h hfind
  have hsame : ∀ id', S₁.payment? id' = v.provider.payment? id' := fun id' => by rw [← hS₁]; rfl
  have hrec : RefundRecordOk v r := by
    obtain ⟨-, refund, hq, hamount⟩ := hallow
    subst hr
    exact ⟨⟨refund, hq, hamount⟩, fun hst => absurd rfl hst⟩
  obtain ⟨hinv₁, hle₁⟩ :=
    inv_refundRecord hinv hsame hfind (fun r₀ hr₀ => by simp [hnone] at hr₀) hrec
  have hnew : S₁.refund? id = some r := by rw [hfind, if_pos rfl]
  have hq : r.refundId = json.refundId := by rw [← hr]
  have hst : r.status = .processing := by rw [← hr]
  refine begun_record hid hinv₁ hle₁ (by rw [← hS₁])
    (fun id' he => ⟨hsame id', by rw [hfind, if_neg he]⟩) ?_
  dsimp only at h
  split_ifs at h with hsleep
  · obtain ⟨rfl, rfl⟩ := Prod.mk.inj h
    exact Or.inl ⟨rfl, rfl, by rw [hsleep]; simp, r, hnew, hq, hst⟩
  · exact Or.inr (finishRefund_ok hinv₁ (allowed_mono hle₁ hallow) hnew hq hst h)

theorem retrieveProviderPayment_ok (id : String) :
    Replies v (.response (retrieveProviderPayment v.provider id).statusCode
      (retrieveProviderPayment v.provider id).text (retrieveProviderPayment v.provider id).json)
      (.getPayment id) := by
  intro statusCode text json hout hcode
  unfold retrieveProviderPayment at hout
  cases hr : v.provider.payment? id with
  | none =>
    rw [hr] at hout
    obtain ⟨rfl, -⟩ := HttpOutcome.response.inj hout
    simp [errorResponse] at hcode
  | some r =>
    rw [hr] at hout
    obtain ⟨-, -, hjson⟩ := HttpOutcome.response.inj hout
    obtain rfl := Except.ok.inj hjson
    exact ⟨r.status, rfl, fun _ => ⟨r, hr, rfl⟩⟩

/-- **A handler begins.** -/
theorem handle_ok {e : Ext} {text : String} {hd : Handler} (hinv : v.Inv P) (hallow : Allowed v e)
    (h : handle P v.provider id text e = some (S, hd)) : Begun P v e id S hd := by
  have hinvalid : ∀ {e}, Begun P v e id v.provider (.ended (invalidResponse text)) :=
    (finished_error hinv (by simp [invalidResponse])).begun ⟨rfl, rfl⟩
  cases e with
  | postPayment scenario json =>
    simp only [handle] at h
    split_ifs at h with hvalid hunused
    · obtain ⟨rfl, rfl⟩ := Prod.mk.inj (Option.some.inj h)
      exact hinvalid
    · exact createProviderPayment_ok hinv hallow hunused (Option.some.inj h)
  | getPayment id' =>
    obtain ⟨rfl, rfl⟩ := Prod.mk.inj (Option.some.inj h)
    obtain ⟨hinv', hle⟩ := inv_same (S := v.provider) hinv (fun _ => rfl) fun _ => rfl
    refine ⟨hinv', hle, fun res hres => ?_, fun _ he => by simp at he, fun w hw => Or.inl hw,
      fun _ _ hs => hs⟩
    obtain rfl := Handler.ended.inj hres
    exact retrieveProviderPayment_ok id'
  | postRefund scenario json =>
    simp only [handle] at h
    split_ifs at h with hvalid hunused
    · obtain ⟨rfl, rfl⟩ := Prod.mk.inj (Option.some.inj h)
      exact hinvalid
    · exact createProviderRefund_ok hinv hallow hunused (Option.some.inj h)
  | _ => simp [handle] at h

end Payflow.Network
