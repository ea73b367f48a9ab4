import Payflow.Model.Network
import Payflow.Lib.Knowledge
import Payflow.Lib.Records
import Payflow.Safety.Lifecycle
import Payflow.Spec.Tasks

/-! # Payments and their records

What holds of the database, the task messages and the records of the provider together
(`View.Inv`), and what the processes know of it: `captures` is the logic in which they call their
transactions and the provider. A record never loses its final status, so what a process has learnt
from an answer stays true. -/

namespace Payflow.Network

open Payflow.Lib Payflow.Model Payflow.Spec Payflow.Safety

variable {P : Platform}

/-- What the processes have an effect on: the database, the task messages and the provider. -/
structure View where
  db : Db
  world : World
  provider : Provider

/-! ### Records -/

def paymentRecords : Records ProviderPayment ProviderStatus where
  status := (·.status)
  set st r := { r with status := st }
  running := .processing
  set_status _ := rfl
  status_set _ _ := rfl
  set_set _ _ _ := rfl

def refundRecords : Records ProviderRefund ProviderStatus where
  status := (·.status)
  set st r := { r with status := st }
  running := .processing
  set_status _ := rfl
  status_set _ _ := rfl
  set_set _ _ _ := rfl

/-- The provider's records of payments are kept. -/
abbrev RecordsLe (S S' : Provider) : Prop := paymentRecords.Kept S.payment? S'.payment?

/-- The provider's records of refunds are kept. -/
abbrev RefundsLe (S S' : Provider) : Prop := refundRecords.Kept S.refund? S'.refund?

/-- The provider has a record of the payment under the id, with the status. -/
def HasRecord (S : Provider) (p : Uuid) (id : String) (st : ProviderStatus) : Prop :=
  ∃ r, S.payment? id = some r ∧ r.paymentId = p ∧ r.status = st

/-- The provider has a record of the refund under the id, with the status. -/
def HasRefund (S : Provider) (q : Uuid) (id : String) (st : ProviderStatus) : Prop :=
  ∃ r, S.refund? id = some r ∧ r.refundId = q ∧ r.status = st

theorem HasRecord.mono {S S' : Provider} (hle : RecordsLe S S') {p : Uuid} {id : String}
    {st : ProviderStatus} (hst : st ≠ .processing) (h : HasRecord S p id st) :
    HasRecord S' p id st := by
  obtain ⟨r, hr, hp, rfl⟩ := h
  exact ⟨r, hle.ended hr hst, hp, rfl⟩

theorem HasRefund.mono {S S' : Provider} (hle : RefundsLe S S') {q : Uuid} {id : String}
    {st : ProviderStatus} (hst : st ≠ .processing) (h : HasRefund S q id st) :
    HasRefund S' q id st := by
  obtain ⟨r, hr, hq, rfl⟩ := h
  exact ⟨r, hle.ended hr hst, hq, rfl⟩

/-! ### Views -/

/-- A later view. -/
structure View.Le (v v' : View) : Prop where
  db : Grown v.db v'.db
  identified : ∀ p row row', v.db.payment? p = some row → v'.db.payment? p = some row' →
    row.providerPaymentId ≠ none → row'.providerPaymentId ≠ none
  tasks : ∀ i t, taskOf v.world i = some t → taskOf v'.world i = some t
  records : RecordsLe v.provider v'.provider
  refunds : RefundsLe v.provider v'.provider

theorem View.Le.refl (v : View) : v.Le v := by
  refine ⟨.refl _, fun p row row' hrow hrow' h => ?_, fun _ _ h => h, .refl _, .refl _⟩
  obtain rfl := Option.some.inj (hrow.symm.trans hrow')
  exact h

theorem View.Le.trans {v v' v'' : View} (h : v.Le v') (h' : v'.Le v'') : v.Le v'' := by
  refine ⟨h.db.trans h'.db, fun p row row'' hrow hrow'' hid => ?_,
    fun i t ht => h'.tasks i t (h.tasks i t ht), h.records.trans h'.records,
    h.refunds.trans h'.refunds⟩
  obtain ⟨row', hrow', -⟩ := h.db.payment hrow
  exact h'.identified p row' row'' hrow' hrow'' (h.identified p row row' hrow hrow' hid)

theorem View.Le.provider {v : View} {S : Provider} (h : RecordsLe v.provider S)
    (h' : RefundsLe v.provider S) : v.Le { v with provider := S } := by
  refine ⟨.refl _, fun p row row' hrow hrow' hid => ?_, fun _ _ ht => ht, h, h'⟩
  obtain rfl := Option.some.inj (hrow.symm.trans hrow')
  exact hid

/-- The row of a payment points at a record that has ended, at a capture if the payment has
succeeded, and has a failure code if it has failed. -/
structure RowOk (S : Provider) (row : Payment) : Prop where
  recorded : ∀ id, row.providerPaymentId = some id →
    HasRecord S row.id id .succeeded ∨ HasRecord S row.id id .failed
  captured : row.status ∈ settled → row.failureCode = none ∧
    ∃ id, row.providerPaymentId = some id ∧ HasRecord S row.id id .succeeded
  failed : row.status = .failed → row.failureCode ≠ none

theorem RowOk.mono {S S' : Provider} (hle : RecordsLe S S') {row : Payment} (h : RowOk S row) :
    RowOk S' row := by
  refine ⟨fun id hid => ?_, fun hs => ?_, h.failed⟩
  · rcases h.recorded id hid with h | h
    · exact Or.inl (h.mono hle (by simp))
    · exact Or.inr (h.mono hle (by simp))
  · obtain ⟨hcode, id, hid, hrec⟩ := h.captured hs
    exact ⟨hcode, id, hid, hrec.mono hle (by simp)⟩

/-- A record is one of a payment, and ends as the scenario of the payment's task says. -/
structure RecordOk (P : Platform) (v : View) (r : ProviderPayment) : Prop where
  row : ∃ row, v.db.payment? r.paymentId = some row ∧ r.amountCents = row.amountCents ∧
    r.currency = P.upper row.currency
  scenario : r.status ≠ .processing → ∃ i scenario,
    taskOf v.world i = some (.processPayment r.paymentId scenario) ∧
      (r.status = .failed ↔ scenario = .declined)

theorem RecordOk.mono {v v' : View} (hle : v.Le v') {r : ProviderPayment} (h : RecordOk P v r) :
    RecordOk P v' r := by
  constructor
  · obtain ⟨row, hrow, hamount, hcurrency⟩ := h.row
    obtain ⟨row', hrow', cols, rfl⟩ := hle.db.payment hrow
    exact ⟨_, hrow', hamount, hcurrency⟩
  · intro hst
    obtain ⟨i, scenario, ht, hiff⟩ := h.scenario hst
    exact ⟨i, scenario, hle.tasks _ _ ht, hiff⟩

/-- A record is one of a refund, and ends as the scenario of the refund's task says. -/
structure RefundRecordOk (v : View) (r : ProviderRefund) : Prop where
  row : ∃ refund, v.db.refund? r.refundId = some refund ∧ r.amountCents = refund.amountCents
  scenario : r.status ≠ .processing → ∃ i scenario,
    taskOf v.world i = some (.processRefund r.refundId scenario) ∧
      (r.status = .failed ↔ scenario = .declined)

theorem RefundRecordOk.mono {v v' : View} (hle : v.Le v') {r : ProviderRefund}
    (h : RefundRecordOk v r) : RefundRecordOk v' r := by
  constructor
  · obtain ⟨refund, hq, hamount⟩ := h.row
    obtain ⟨refund', hq', cols, rfl, -⟩ := hle.db.refund hq
    exact ⟨_, hq', hamount⟩
  · intro hst
    obtain ⟨i, scenario, ht, hiff⟩ := h.scenario hst
    exact ⟨i, scenario, hle.tasks _ _ ht, hiff⟩

/-- What holds of the whole. -/
structure View.Inv (P : Platform) (v : View) : Prop where
  db : Spec.Inv v.db
  refunds : RefundsSettled v.db
  rows : ∀ p row, v.db.payment? p = some row → RowOk v.provider row
  refundRows : ∀ q refund, v.db.refund? q = some refund → refund.status = .succeeded →
    ∃ id, HasRefund v.provider q id .succeeded
  records : ∀ id r, v.provider.payment? id = some r → RecordOk P v r
  refundRecords : ∀ id r, v.provider.refund? id = some r → RefundRecordOk v r
  scenarios : SameTask ofPayment v.world
  refundScenarios : SameTask ofRefund v.world

theorem View.Inv.scenario {v : View} (h : v.Inv P) {i j : ℕ} {p : Uuid} {sc sc' : Scenario}
    (ht : taskOf v.world i = some (.processPayment p sc))
    (ht' : taskOf v.world j = some (.processPayment p sc')) : sc = sc' :=
  (Task.processPayment.inj (h.scenarios i j p _ _ ht ht' (by simp [ofPayment])
    (by simp [ofPayment]))).2

theorem View.Inv.refundScenario {v : View} (h : v.Inv P) {i j : ℕ} {q : Uuid}
    {sc sc' : RefundScenario} (ht : taskOf v.world i = some (.processRefund q sc))
    (ht' : taskOf v.world j = some (.processRefund q sc')) : sc = sc' :=
  (Task.processRefund.inj (h.refundScenarios i j q _ _ ht ht' (by simp [ofRefund])
    (by simp [ofRefund]))).2

theorem View.Inv.ended {v : View} (h : v.Inv P) {p : Uuid} {id : String} {st : ProviderStatus}
    (hr : HasRecord v.provider p id st) (hst : st ≠ .processing) {i : ℕ} {sc : Scenario}
    (ht : taskOf v.world i = some (.processPayment p sc)) : st = .failed ↔ sc = .declined := by
  obtain ⟨r, hid, rfl, rfl⟩ := hr
  obtain ⟨j, sc', ht', hiff⟩ := (h.records id r hid).scenario hst
  rw [h.scenario ht ht']
  exact hiff

theorem View.Inv.refundEnded {v : View} (h : v.Inv P) {q : Uuid} {id : String}
    {st : ProviderStatus} (hr : HasRefund v.provider q id st) (hst : st ≠ .processing) {i : ℕ}
    {sc : RefundScenario} (ht : taskOf v.world i = some (.processRefund q sc)) :
    st = .failed ↔ sc = .declined := by
  obtain ⟨r, hid, rfl, rfl⟩ := hr
  obtain ⟨j, sc', ht', hiff⟩ := (h.refundRecords id r hid).scenario hst
  rw [h.refundScenario ht ht']
  exact hiff

theorem View.Inv.agree {v : View} (h : v.Inv P) {p : Uuid} {id id' : String}
    (hr : HasRecord v.provider p id .succeeded) : ¬ HasRecord v.provider p id' .failed := by
  intro hr'
  obtain ⟨r, hid, rfl, hst⟩ := hr
  obtain ⟨i, sc, ht, hiff⟩ := (h.records id r hid).scenario (by simp [hst])
  have hdeclined := (h.ended hr' (by simp) ht).mp rfl
  have := hiff.mpr hdeclined
  simp [hst] at this

theorem View.Inv.captured {v : View} (h : v.Inv P) {p : Uuid} {id : String}
    (hr : HasRecord v.provider p id .succeeded) {row : Payment} {id' : String}
    (hrow : v.db.payment? p = some row) (hid : row.providerPaymentId = some id') :
    HasRecord v.provider row.id id' .succeeded := by
  have hp : row.id = p := payment_id hrow
  rcases (h.rows p row hrow).recorded id' hid with h' | h'
  · exact h'
  · exact absurd (hp ▸ h') (h.agree hr)

/-! ### The logic -/

/-- What is known when a payment is moved. -/
def Backed (v : View) (p : Uuid) (providerPaymentId : Json) (failureCode : Option String) :
    PaymentStatus → Prop
  | .succeeded => failureCode = none ∧
    ∃ id, providerPaymentId = .str id ∧ HasRecord v.provider p id .succeeded
  | .failed => failureCode ≠ none ∧
    (providerPaymentId = .null ∨ ∃ id, providerPaymentId = .str id ∧
      HasRecord v.provider p id .failed)
  | _ => providerPaymentId = .null

/-- What is known when a payment is reconciled. -/
def Reported (v : View) (p : Uuid) : PaymentStatus → Prop
  | .succeeded => ∃ id, HasRecord v.provider p id .succeeded
  | .failed => ∃ id, HasRecord v.provider p id .failed
  | _ => False

/-- What is known when a refund is moved. -/
def BackedRefund (v : View) (q : Uuid) (providerRefundId : Json) : RefundStatus → Prop
  | .succeeded => ∃ id, HasRefund v.provider q id .succeeded
  | .failed => providerRefundId = .null ∨ ∃ id, HasRefund v.provider q id .failed
  | _ => True

/-- What is known when a transaction is called. -/
def Callable (v : View) : Block → Prop
  | .recordTransition p _ new provider failure => Backed v p provider failure new
  | .recordAwaitingWebhook p provider =>
    ∃ id, provider = .str id ∧ HasRecord v.provider p id .succeeded
  | .receiveProviderWebhook payload =>
    ∃ eventId p id, payload = webhookPayload eventId p id ∧ HasRecord v.provider p id .succeeded
  | .reconcileOne p status =>
    (∃ row, v.db.payment? p = some row ∧ row.providerPaymentId ≠ none) ∧ Reported v p status
  | .selectProviderPaymentId p => ∃ q refund, v.db.refund? q = some refund ∧ refund.paymentId = p
  | .recordRefundTransition q _ new provider _ => BackedRefund v q provider new
  | _ => True

/-- What is known when the provider is asked. -/
def Allowed (v : View) : Ext → Prop
  | .postPayment scenario json =>
    (∃ i, taskOf v.world i = some (.processPayment json.paymentId scenario)) ∧
      ∃ row, v.db.payment? json.paymentId = some row ∧ json.amountCents = row.amountCents ∧
        json.currency = row.currency
  | .postRefund scenario json =>
    (∃ i, taskOf v.world i = some (.processRefund json.refundId scenario)) ∧
      ∃ refund, v.db.refund? json.refundId = some refund ∧ json.amountCents = refund.amountCents
  | _ => True

/-- The outcome, if it is a response that is accepted, has a JSON that is right. -/
def Accepted (Q : Json → Prop) (out : HttpOutcome) : Prop :=
  ∀ statusCode text json, out = .response statusCode text (.ok json) → statusCode < 400 → Q json

/-- The response to a payment request: a record has ended so. -/
def PaymentReply (v : View) (p : Uuid) (json : Json) : Prop :=
  ∃ id status st, json.getItem "status" = .ok (.str status) ∧
    json.getItem "provider_payment_id" = .ok (.str id) ∧ HasRecord v.provider p id st ∧
    ((st = .succeeded ∧ (status = "SUCCEEDED" ∨ status = "PROCESSING")) ∨
      (st = .failed ∧ status = "FAILED"))

/-- The response to a lookup: the record has the status, or had it while it was `PROCESSING`. -/
def LookupReply (v : View) (id : String) (json : Json) : Prop :=
  ∃ st : ProviderStatus, json.getItem "status" = .ok (.str st.text) ∧
    (st ≠ .processing → ∃ r, v.provider.payment? id = some r ∧ r.status = st)

/-- The response to a refund request: a record has ended so. -/
def RefundReply (v : View) (q : Uuid) (json : Json) : Prop :=
  ∃ id st, json.getItem "status" = .ok (.str (ProviderStatus.text st)) ∧ st ≠ .processing ∧
    HasRefund v.provider q id st

/-- The outcome of a request is right. -/
def Replies (v : View) (out : HttpOutcome) : Ext → Prop
  | .postPayment _ json => Accepted (PaymentReply v json.paymentId) out
  | .getPayment id => Accepted (LookupReply v id) out
  | .postRefund _ json => Accepted (RefundReply v json.refundId) out
  | _ => True

/-- What the actions answer. -/
def Answers (v : View) : (e : Ext) → ERes e → Prop
  | .postPayment scenario json, out => Replies v out (.postPayment scenario json)
  | .getPayment id, out => Replies v out (.getPayment id)
  | .postRefund scenario json, out => Replies v out (.postRefund scenario json)
  | _, _ => True

/-- `create_refund` for a payment without an id at the provider. -/
def noProviderPaymentId : Exn := .httpException 409 (.str "Payment has no provider payment ID")

/-- How the transactions end: no payment that is to be refunded lacks an id at the provider. -/
def Ends : (b : Block) → Except Exn (BRes b) → Prop
  | .createRefund _ _ _ _, r => r ≠ .error noProviderPaymentId
  | .selectProviderPaymentId _, r => ∀ payment : Option Payment, r = .ok payment →
    ∃ row id, payment = some row ∧ row.providerPaymentId = some id
  | _, _ => True

/-- **The logic** of payments and their records. -/
def captures (P : Platform) : Logic (payflow P) View where
  db := View.db
  Le := View.Le
  Inv := View.Inv P
  Callable := Callable
  Allowed := Allowed
  Answers := Answers
  Ends := Ends

theorem Backed.mono {v v' : View} (hle : v.Le v') {p : Uuid} {provider : Json}
    {failure : Option String} {new : PaymentStatus} (h : Backed v p provider failure new) :
    Backed v' p provider failure new := by
  cases new with
  | succeeded =>
    obtain ⟨hf, id, hid, hr⟩ := h
    exact ⟨hf, id, hid, hr.mono hle.records (by simp)⟩
  | failed =>
    obtain ⟨hf, hid | ⟨id, hid, hr⟩⟩ := h
    · exact ⟨hf, Or.inl hid⟩
    · exact ⟨hf, Or.inr ⟨id, hid, hr.mono hle.records (by simp)⟩⟩
  | _ => exact h

theorem Reported.mono {v v' : View} (hle : v.Le v') {p : Uuid} {status : PaymentStatus}
    (h : Reported v p status) : Reported v' p status := by
  cases status with
  | succeeded | failed =>
    obtain ⟨id, hr⟩ := h
    exact ⟨id, hr.mono hle.records (by simp)⟩
  | _ => exact h

theorem BackedRefund.mono {v v' : View} (hle : v.Le v') {q : Uuid} {provider : Json}
    {new : RefundStatus} (h : BackedRefund v q provider new) : BackedRefund v' q provider new := by
  cases new with
  | succeeded =>
    obtain ⟨id, hr⟩ := h
    exact ⟨id, hr.mono hle.refunds (by simp)⟩
  | failed =>
    rcases h with hid | ⟨id, hr⟩
    · exact Or.inl hid
    · exact Or.inr ⟨id, hr.mono hle.refunds (by simp)⟩
  | _ => exact h

theorem callable_mono {v v' : View} (hle : v.Le v') {b : Block} (h : Callable v b) :
    Callable v' b := by
  cases b with
  | recordTransition p type new provider failure => exact Backed.mono hle h
  | recordAwaitingWebhook p provider =>
    obtain ⟨id, hid, hr⟩ := h
    exact ⟨id, hid, hr.mono hle.records (by simp)⟩
  | receiveProviderWebhook payload =>
    obtain ⟨eventId, p, id, hpayload, hr⟩ := h
    exact ⟨eventId, p, id, hpayload, hr.mono hle.records (by simp)⟩
  | reconcileOne p status =>
    obtain ⟨⟨row, hrow, hid⟩, hr⟩ := h
    obtain ⟨row', hrow', -⟩ := hle.db.payment hrow
    exact ⟨⟨row', hrow', hle.identified p row row' hrow hrow' hid⟩, hr.mono hle⟩
  | selectProviderPaymentId p =>
    obtain ⟨q, refund, hq, hp⟩ := h
    obtain ⟨refund', hq', cols, rfl, -⟩ := hle.db.refund hq
    exact ⟨q, _, hq', hp⟩
  | recordRefundTransition q type new provider failure => exact BackedRefund.mono hle h
  | _ => trivial

theorem allowed_mono {v v' : View} (hle : v.Le v') {e : Ext} (h : Allowed v e) : Allowed v' e := by
  cases e with
  | postPayment scenario json =>
    obtain ⟨⟨i, ht⟩, row, hrow, hamount, hcurrency⟩ := h
    obtain ⟨row', hrow', cols, rfl⟩ := hle.db.payment hrow
    exact ⟨⟨i, hle.tasks _ _ ht⟩, _, hrow', hamount, hcurrency⟩
  | postRefund scenario json =>
    obtain ⟨⟨i, ht⟩, refund, hq, hamount⟩ := h
    obtain ⟨refund', hq', cols, rfl, -⟩ := hle.db.refund hq
    exact ⟨⟨i, hle.tasks _ _ ht⟩, _, hq', hamount⟩
  | _ => trivial

theorem captures_lawful (P : Platform) : (captures P).Lawful where
  refl := View.Le.refl
  trans := View.Le.trans
  callable hle h := callable_mono hle h
  allowed hle h := allowed_mono hle h

theorem replies_mono {v v' : View} (hle : v.Le v') {out : HttpOutcome} {e : Ext}
    (h : Replies v out e) : Replies v' out e := by
  cases e with
  | postPayment scenario json =>
    intro statusCode text reply hout hcode
    obtain ⟨id, status, st, hstatus, hid, hrec, hst⟩ := h statusCode text reply hout hcode
    refine ⟨id, status, st, hstatus, hid, hrec.mono hle.records ?_, hst⟩
    rcases hst with ⟨rfl, -⟩ | ⟨rfl, -⟩ <;> simp
  | getPayment id =>
    intro statusCode text reply hout hcode
    obtain ⟨st, hstatus, hrec⟩ := h statusCode text reply hout hcode
    refine ⟨st, hstatus, fun hst => ?_⟩
    obtain ⟨r, hr, rfl⟩ := hrec hst
    exact ⟨r, hle.records.ended hr hst, rfl⟩
  | postRefund scenario json =>
    intro statusCode text reply hout hcode
    obtain ⟨id, st, hstatus, hst, hrec⟩ := h statusCode text reply hout hcode
    exact ⟨id, st, hstatus, hst, hrec.mono hle.refunds hst⟩
  | _ => trivial

end Payflow.Network
