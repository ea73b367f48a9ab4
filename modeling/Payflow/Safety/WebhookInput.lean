import Payflow.Lib.Leaves
import Payflow.Safety.Webhooks
import Payflow.Spec.JsonReader
import Payflow.Spec.SoloRules

/-! # Malformed webhooks

What `receive_provider_webhook` answers to any body and any signature: which malformed inputs get
one of its own refusals, and which make it raise something else. -/

namespace Payflow.Safety

open Payflow.Lib Payflow.Model Payflow.Spec

variable {P : Platform} {call : ReceiveWebhook} {payload : Json}

/-! ### The outcomes -/

/-- An object with the five fields, of which the database can take each where it is used. -/
structure UsableWebhook (P : Platform) (payload : Json) : Prop where
  paymentId : ∃ text id, payload.getItem "payment_id" = .ok (.str text) ∧ P.parseUuid text = some id
  status : ∃ text, payload.getItem "status" = .ok (.str text) ∧ text ∈ ["SUCCEEDED", "FAILED"]
  eventId : ∃ v text, payload.getItem "event_id" = .ok v ∧ v.assignText P = .ok (some text)
  eventType : ∃ v text, payload.getItem "event_type" = .ok v ∧ v.assignText P = .ok (some text)
  providerPaymentId : ∃ v text, payload.getItem "provider_payment_id" = .ok v ∧
    v.assignText P = .ok text
  storable : (payload.hasNul || payload.hasNonFinite) = false

/-- The end is one of the intended ones: 401 for a wrong signature, 400 for a body that is no JSON,
422 for a payload that is no usable webhook, and otherwise an answer, 404 or 409. -/
def CleanEnd (P : Platform) (call : ReceiveWebhook) (out : Except Exn Ans) : Prop :=
  if P.webhookHmac call.rawBody ≠ call.xWebhookSignature then
    ∃ detail, out = .error (.httpException 401 detail)
  else
    match P.jsonLoads call.rawBody with
    | .error _ => ∃ detail, out = .error (.httpException 400 detail)
    | .ok payload =>
      (¬ UsableWebhook P payload ∧ ∃ detail, out = .error (.httpException 422 detail)) ∨
        UsableWebhook P payload ∧ ((∃ a, out = .ok (.webhook a)) ∨
          ∃ code detail, (code = 404 ∨ code = 409) ∧ out = .error (.httpException code detail))

/-- A call comes to its end as soon as it can get its locks, and every end is clean. -/
structure RejectsCleanly (P : Platform) (call : ReceiveWebhook) : Prop where
  ends : ∀ (s : State P) (pid : ℕ) st, Reachable P s →
    s.procs[pid]? = some ⟨.receiveProviderWebhook call, st⟩ → st ≠ .killed →
    Machine.othersLocks (payflow P) s pid = [] →
    ∃ n s' out, Machine.RunsSolo (payflow P) pid (fun _ _ _ => True) 0 s n s' ∧
      s'.procs[pid]? = some ⟨.receiveProviderWebhook call, .done out⟩
  clean : ∀ (s : State P) (pid : ℕ) out, Reachable P s →
    s.procs[pid]? = some ⟨.receiveProviderWebhook call, .done out⟩ → CleanEnd P call out

/-- A payload that is found to lack a field: a text, a list of scalars without the name of a field,
or an object without a field. -/
def LacksField : Json → Prop
  | .str _ => True
  | .arr items => (∀ v ∈ items, hashable v = true) ∧
      ∃ f ∈ requiredFields, ∀ v ∈ items, v.isStr f = false
  | .obj fields => ∃ f ∈ requiredFields, fields.lookup f = none
  | _ => False

/-- A payload that is refused with 422: it lacks a field, or its status is another scalar. -/
def RefusedWebhook (payload : Json) : Prop :=
  LacksField payload ∨ ∃ status, payload.getItem "status" = .ok status ∧ hashable status = true ∧
    ∀ text ∈ ["SUCCEEDED", "FAILED"], status.isStr text = false

/-- The inputs that the endpoint can handle. -/
structure WellHandled (P : Platform) (call : ReceiveWebhook) : Prop where
  ascii : ∀ c ∈ call.xWebhookSignature.toList, c.toNat < 128
  json : P.webhookHmac call.rawBody = call.xWebhookSignature →
    match P.jsonLoads call.rawBody with
    | .error e => e = .jsonDecodeError
    | .ok payload => RefusedWebhook payload ∨ UsableWebhook P payload

/-- `json.loads` raises no exception of FastAPI. -/
def LoadsJson (P : Platform) : Prop :=
  ∀ rawBody statusCode detail, P.jsonLoads rawBody ≠ .error (.httpException statusCode detail)

/-! ### The checks -/

theorem CleanEnd.answers {out : Except Exn Ans} (h : CleanEnd P call out) :
    (∃ a, out = .ok a) ∨ ∃ code detail, out = .error (.httpException code detail) := by
  unfold CleanEnd at h
  split_ifs at h
  · obtain ⟨detail, rfl⟩ := h
    exact Or.inr ⟨_, _, rfl⟩
  · split at h
    · obtain ⟨detail, rfl⟩ := h
      exact Or.inr ⟨_, _, rfl⟩
    · rcases h with ⟨-, detail, rfl⟩ | ⟨-, ⟨a, rfl⟩ | ⟨code, detail, -, rfl⟩⟩
      · exact Or.inr ⟨_, _, rfl⟩
      · exact Or.inl ⟨_, rfl⟩
      · exact Or.inr ⟨_, _, rfl⟩

theorem RejectsCleanly.refused {s : State P} {pid : ℕ} {out : Except Exn Ans}
    (h : RejectsCleanly P call) (hr : Reachable P s)
    (hp : s.procs[pid]? = some ⟨.receiveProviderWebhook call, .done out⟩)
    (hwrong : P.webhookHmac call.rawBody ≠ call.xWebhookSignature) :
    ∃ detail, out = .error (.httpException 401 detail) := by
  have hend := h.clean s pid out hr hp
  unfold CleanEnd at hend
  rwa [if_pos hwrong] at hend

theorem inSet_eq_false_iff {v : Json} {keys : List String} :
    v.inSet keys = .ok false ↔ hashable v = true ∧ ∀ text ∈ keys, v.isStr text = false := by
  cases v with
  | str s =>
    simp only [Json.inSet, hashable, Json.isStr, Except.ok.injEq, true_and,
      List.contains_eq_any_beq, List.any_eq_false, Bool.not_eq_true]
  | arr l | obj l => simp [Json.inSet, hashable]
  | _ => simp [Json.inSet, hashable, Json.isStr]

theorem hasRequiredFields_eq_false_iff :
    hasRequiredFields payload = .ok false ↔ LacksField payload := by
  cases payload with
  | arr items =>
    simp only [hasRequiredFields, LacksField]
    by_cases hitems : items.all hashable = true
    · rw [if_pos hitems]
      rw [List.all_eq_true] at hitems
      simp only [Except.ok.injEq, List.all_eq_false, Bool.not_eq_true, List.any_eq_false]
      exact ⟨fun h => ⟨hitems, h⟩, fun h => h.2⟩
    · rw [if_neg hitems]
      rw [List.all_eq_true] at hitems
      exact ⟨nofun, fun h => absurd h.1 hitems⟩
  | obj fields =>
    simp only [hasRequiredFields, LacksField, Except.ok.injEq, List.all_eq_false, Bool.not_eq_true,
      Option.isSome_eq_false_iff, Option.isNone_iff_eq_none]
  | str s => simp [hasRequiredFields, LacksField]
  | _ => simp [hasRequiredFields, LacksField]

theorem obj_of_getItem {f : String} {v : Json} (h : payload.getItem f = .ok v) :
    ∃ fields, payload = .obj fields ∧ fields.lookup f = some v := by
  cases payload with
  | obj fields =>
    refine ⟨fields, rfl, ?_⟩
    unfold Json.getItem at h
    cases hf : fields.lookup f with
    | none => simp [hf] at h
    | some _ =>
      simp only [hf, Except.ok.injEq] at h
      rw [h]
  | _ => cases h

theorem refusedWebhook_iff : RefusedWebhook payload ↔
    hasRequiredFields payload = .ok false ∨ ∃ status, payload.getItem "status" = .ok status ∧
      status.inSet ["SUCCEEDED", "FAILED"] = .ok false := by
  rw [hasRequiredFields_eq_false_iff]
  simp only [inSet_eq_false_iff, RefusedWebhook]

theorem UsableWebhook.passes (h : UsableWebhook P payload) :
    hasRequiredFields payload = .ok true ∧ ∃ status, payload.getItem "status" = .ok status ∧
      status.inSet ["SUCCEEDED", "FAILED"] = .ok true := by
  obtain ⟨⟨text, id, hpayment, -⟩, ⟨status, hstatus, hmem⟩, ⟨v₁, t₁, hevent, -⟩, ⟨v₂, t₂, htype, -⟩,
    ⟨v₃, t₃, hprovider, -⟩, -⟩ := h
  refine ⟨?_, .str status, hstatus, congrArg Except.ok (List.contains_iff_mem.mpr hmem)⟩
  obtain ⟨fields, rfl, -⟩ := obj_of_getItem hpayment
  have hlookup : ∀ {f v}, Json.getItem (.obj fields) f = .ok v → fields.lookup f = some v := by
    intro f v hv
    obtain ⟨fields', hobj, hf⟩ := obj_of_getItem hv
    obtain rfl := Json.obj.inj hobj
    exact hf
  simp [hasRequiredFields, requiredFields, hlookup hpayment, hlookup hstatus, hlookup hevent,
    hlookup htype, hlookup hprovider]

theorem UsableWebhook.not_refused (h : UsableWebhook P payload) : ¬ RefusedWebhook payload := by
  obtain ⟨hfields, status, hstatus, hin⟩ := h.passes
  intro hr
  rcases refusedWebhook_iff.mp hr with hf | ⟨status', hstatus', hin'⟩
  · rw [hfields] at hf
    cases hf
  · obtain rfl := Except.ok.inj (hstatus.symm.trans hstatus')
    rw [hin] at hin'
    cases hin'

/-- The check of the fields fails on no payload that is refused or usable. -/
theorem hasRequiredFields_ok (h : RefusedWebhook payload ∨ UsableWebhook P payload) :
    ∃ complete, hasRequiredFields payload = .ok complete := by
  rcases h with hr | hu
  · rcases refusedWebhook_iff.mp hr with hf | ⟨status, hstatus, -⟩
    · exact ⟨false, hf⟩
    · obtain ⟨fields, rfl, -⟩ := obj_of_getItem hstatus
      exact ⟨_, rfl⟩
  · exact ⟨true, hu.passes.1⟩

theorem status_ok (h : RefusedWebhook payload ∨ UsableWebhook P payload)
    (hfields : hasRequiredFields payload = .ok true) :
    ∃ status supported, payload.getItem "status" = .ok status ∧
      status.inSet ["SUCCEEDED", "FAILED"] = .ok supported := by
  rcases h with hr | hu
  · rcases refusedWebhook_iff.mp hr with hf | ⟨status, hstatus, hin⟩
    · rw [hfields] at hf
      cases hf
    · exact ⟨status, false, hstatus, hin⟩
  · obtain ⟨-, status, hstatus, hin⟩ := hu.passes
    exact ⟨status, true, hstatus, hin⟩

/-! ### The transaction -/

/-- How the transaction ends: with an answer, with 404 or 409, or with another exception, and then
the payload is not usable. -/
def TxnAnswers (P : Platform) (payload : Json) : Except Exn WebhookAnswer → Prop
  | .ok _ => True
  | .error (.httpException statusCode _) => statusCode = 404 ∨ statusCode = 409
  | .error _ => ¬ UsableWebhook P payload

/-- The conversions of a value raise no exception of FastAPI. -/
def NoHttp : Exn → Prop
  | .httpException _ _ => False
  | _ => True

theorem txnAnswers_error {e : Exn} (he : NoHttp e) (h : ¬ UsableWebhook P payload) :
    TxnAnswers P payload (.error e) := by
  cases e with
  | httpException statusCode detail => exact he.elim
  | _ => exact h

theorem noHttp_getItem {f : String} {e : Exn} (h : payload.getItem f = .error e) : NoHttp e := by
  cases payload with
  | obj fields =>
    unfold Json.getItem at h
    cases hf : fields.lookup f with
    | none =>
      simp only [hf, Except.error.injEq] at h
      subst h
      trivial
    | some v => simp [hf] at h
  | _ =>
    obtain rfl := Except.error.inj h
    trivial

theorem noHttp_of_isDatabaseError {e : Exn} (h : isDatabaseError e = true) : NoHttp e := by
  cases e with
  | httpException statusCode detail => simp [isDatabaseError] at h
  | _ => trivial

theorem noHttp_assignText {v : Json} {e : Exn} (h : v.assignText P = .error e) : NoHttp e :=
  noHttp_of_isDatabaseError (isDatabaseError_assignText h)

theorem noHttp_uuidParam {v : Json} {e : Exn} (h : v.uuidParam P = .error e) : NoHttp e :=
  noHttp_of_isDatabaseError (isDatabaseError_uuidParam h)

theorem noHttp_notNull {column : String} {text : Option String} {e : Exn}
    (h : notNull column text = .error e) : NoHttp e := by
  cases text with
  | some t => cases h
  | none =>
    obtain rfl := Except.error.inj h
    trivial

/-- The transaction for the payload goes on as it must. -/
abbrev Answering (P : Platform) (payload : Json) (now : ℕ) (ws : List Write) (D : Db)
    (p : Tx WebhookAnswer) : Prop :=
  Machine.TxLeaves (payflow P) rely (fun _ _ => True) now
    (fun res _ _ => TxnAnswers P payload res) p ws D

section txn

variable {now : ℕ} {D : Db} {ws : List Write}

/-- A conversion, which cannot fail where the payload is usable. -/
theorem answering_convert {β : Type} {x : Except Exn β} {k : β → Tx WebhookAnswer}
    (hx : ∀ e, x = .error e → NoHttp e) (husable : UsableWebhook P payload → ∃ b, x = .ok b)
    (hk : ∀ b, x = .ok b → Answering P payload now ws D (k b)) :
    Answering P payload now ws D ((Prog.ofExcept x).bind k) := by
  refine Machine.TxLeaves.ofExcept (fun e he => txnAnswers_error (hx e he) fun h => ?_) hk
  obtain ⟨b, hb⟩ := husable h
  rw [hb] at he
  cases he

theorem answering_receiveProviderWebhookTxn :
    Answering P payload now ws D (receiveProviderWebhookTxn P payload) := by
  unfold receiveProviderWebhookTxn
  refine answering_convert (fun _ => noHttp_getItem) (fun h => ?_) fun eventId hevent => ?_
  · obtain ⟨v, text, hv, -⟩ := h.eventId
    exact ⟨v, hv⟩
  refine answering_convert (fun _ => noHttp_assignText) (fun h => ?_) fun providerEventId hid => ?_
  · obtain ⟨v, text, hv, htext⟩ := h.eventId
    obtain rfl := Except.ok.inj (hv.symm.trans hevent)
    exact ⟨_, htext⟩
  refine answering_convert (fun _ => noHttp_getItem) (fun h => ?_) fun type htype => ?_
  · obtain ⟨v, text, hv, -⟩ := h.eventType
    exact ⟨v, hv⟩
  refine answering_convert (fun _ => noHttp_assignText) (fun h => ?_) fun eventType htext => ?_
  · obtain ⟨v, text, hv, htext⟩ := h.eventType
    obtain rfl := Except.ok.inj (hv.symm.trans htype)
    exact ⟨_, htext⟩
  refine .ite (fun hnul h => ?_) fun _ => ?_
  · exact absurd (h.storable.symm.trans hnul) (by decide)
  refine answering_convert (fun _ => noHttp_notNull) (fun h => ?_) fun _ _ => ?_
  · obtain ⟨v, text, hv, htext⟩ := h.eventId
    obtain rfl := Except.ok.inj (hv.symm.trans hevent)
    obtain rfl := Except.ok.inj (hid.symm.trans htext)
    exact ⟨text, rfl⟩
  refine answering_convert (fun _ => noHttp_notNull) (fun h => ?_) fun _ _ => ?_
  · obtain ⟨v, text, hv, htext'⟩ := h.eventType
    obtain rfl := Except.ok.inj (hv.symm.trans htype)
    obtain rfl := Except.ok.inj (htext.symm.trans htext')
    exact ⟨text, rfl⟩
  refine .stmt fun D₁ (row : Option Uuid) ws₁ _ => ?_
  cases row with
  | none => trivial
  | some id => ?_
  refine answering_convert (fun _ => noHttp_getItem) (fun h => ?_) fun field hfield => ?_
  · obtain ⟨text, id, hv, -⟩ := h.paymentId
    exact ⟨_, hv⟩
  refine answering_convert (fun _ => noHttp_uuidParam) (fun h => ?_) fun paymentId _ => ?_
  · obtain ⟨text, id, hv, hid⟩ := h.paymentId
    obtain rfl := Except.ok.inj (hv.symm.trans hfield)
    exact ⟨some id, by simp only [Json.uuidParam, Json.uuidOfText, hid]⟩
  cases paymentId with
  | none => exact Or.inl rfl
  | some paymentId => ?_
  refine .stmt fun D₂ (payment : Option Payment) ws₂ _ => ?_
  cases payment with
  | none => exact Or.inl rfl
  | some payment => ?_
  refine answering_convert (fun _ => noHttp_getItem) (fun h => ?_) fun status _ => ?_
  · obtain ⟨text, hv, -⟩ := h.status
    exact ⟨_, hv⟩
  refine .ite (fun _ => trivial) fun _ => .ite (fun _ => Or.inr rfl) fun _ => ?_
  refine answering_convert (fun _ => noHttp_getItem) (fun h => ?_) fun provider hprovider => ?_
  · obtain ⟨v, text, hv, -⟩ := h.providerPaymentId
    exact ⟨v, hv⟩
  refine answering_convert (fun _ => noHttp_assignText) (fun h => ?_) fun _ _ => ?_
  · obtain ⟨v, text, hv, htext⟩ := h.providerPaymentId
    obtain rfl := Except.ok.inj (hv.symm.trans hprovider)
    exact ⟨_, htext⟩
  exact .stmt fun _ _ _ _ => .stmt fun _ _ _ _ => .stmt fun _ _ _ _ => trivial

end txn

/-! ### The endpoint -/

/-- The end is clean exactly when the input is handled. -/
def Decides (P : Platform) (call : ReceiveWebhook) (out : Except Exn Ans) : Prop :=
  CleanEnd P call out ↔ WellHandled P call

theorem decides_raise {e : Exn} (he : NoHttp e) (h : ¬ WellHandled P call) :
    Decides P call (.error e) := by
  refine ⟨fun hclean => ?_, fun hw => absurd hw h⟩
  rcases hclean.answers with ⟨a, ha⟩ | ⟨code, detail, hcode⟩
  · cases ha
  · obtain rfl := Except.error.inj hcode
    exact he.elim

theorem wellHandled_iff (hascii : ∀ c ∈ call.xWebhookSignature.toList, c.toNat < 128)
    (hsigned : P.webhookHmac call.rawBody = call.xWebhookSignature)
    (hload : P.jsonLoads call.rawBody = .ok payload) :
    WellHandled P call ↔ RefusedWebhook payload ∨ UsableWebhook P payload := by
  refine ⟨fun h => ?_, fun h => ⟨hascii, fun _ => ?_⟩⟩
  · have hjson := h.json hsigned
    rw [hload] at hjson
    exact hjson
  · rw [hload]
    exact h

theorem cleanEnd_iff (hsigned : P.webhookHmac call.rawBody = call.xWebhookSignature)
    (hload : P.jsonLoads call.rawBody = .ok payload) {out : Except Exn Ans} :
    CleanEnd P call out ↔
      (¬ UsableWebhook P payload ∧ ∃ detail, out = .error (.httpException 422 detail)) ∨
        UsableWebhook P payload ∧ ((∃ a, out = .ok (.webhook a)) ∨
          ∃ code detail, (code = 404 ∨ code = 409) ∧
            out = .error (.httpException code detail)) := by
  unfold CleanEnd
  rw [if_neg (not_not.mpr hsigned), hload]

theorem decides_refused (hascii : ∀ c ∈ call.xWebhookSignature.toList, c.toNat < 128)
    (hsigned : P.webhookHmac call.rawBody = call.xWebhookSignature)
    (hload : P.jsonLoads call.rawBody = .ok payload) (hr : RefusedWebhook payload) {detail : Json} :
    Decides P call (.error (.httpException 422 detail)) := by
  have hclean : CleanEnd P call (.error (.httpException 422 detail)) :=
    (cleanEnd_iff hsigned hload).mpr (Or.inl ⟨fun h => h.not_refused hr, detail, rfl⟩)
  exact ⟨fun _ => (wellHandled_iff hascii hsigned hload).mpr (Or.inl hr), fun _ => hclean⟩

/-- A payload that the checks let through, and the end of its transaction. -/
theorem decides_txn (hascii : ∀ c ∈ call.xWebhookSignature.toList, c.toNat < 128)
    (hsigned : P.webhookHmac call.rawBody = call.xWebhookSignature)
    (hload : P.jsonLoads call.rawBody = .ok payload) (hpassed : ¬ RefusedWebhook payload)
    {res : Except Exn WebhookAnswer} (hres : TxnAnswers P payload res) :
    Decides P call (res.map .webhook) := by
  have hiff : WellHandled P call ↔ UsableWebhook P payload :=
    (wellHandled_iff hascii hsigned hload).trans (or_iff_right hpassed)
  cases res with
  | ok a =>
    refine Iff.trans (cleanEnd_iff hsigned hload) (Iff.trans ?_ hiff.symm)
    refine ⟨fun h => ?_, fun h => Or.inr ⟨h, Or.inl ⟨a, rfl⟩⟩⟩
    rcases h with ⟨-, detail, hd⟩ | ⟨h, -⟩
    · cases hd
    · exact h
  | error e =>
    by_cases he : NoHttp e
    · refine decides_raise he fun hw => ?_
      cases e with
      | httpException code detail => exact he
      | _ => exact hres (hiff.mp hw)
    · cases e with
      | httpException code detail =>
        have hcode : code = 404 ∨ code = 409 := hres
        refine Iff.trans (cleanEnd_iff hsigned hload) (Iff.trans ?_ hiff.symm)
        refine ⟨fun h => ?_, fun h => Or.inr ⟨h, Or.inr ⟨code, detail, hcode, rfl⟩⟩⟩
        rcases h with ⟨-, detail', hd⟩ | ⟨h, -⟩
        · obtain ⟨rfl, -⟩ := Exn.httpException.inj (Except.error.inj hd)
          omega
        · exact h
      | _ => exact absurd trivial he

theorem noHttp_hasRequiredFields {e : Exn} (h : hasRequiredFields payload = .error e) :
    NoHttp e := by
  cases payload with
  | arr items =>
    simp only [hasRequiredFields] at h
    split_ifs at h
    obtain rfl := Except.error.inj h
    trivial
  | obj fields | str s => cases h
  | _ =>
    obtain rfl := Except.error.inj h
    trivial

theorem noHttp_inSet {v : Json} {keys : List String} {e : Exn} (h : v.inSet keys = .error e) :
    NoHttp e := by
  cases v with
  | arr l | obj l =>
    obtain rfl := Except.error.inj h
    trivial
  | _ => cases h

/-- **The endpoint**, whatever its transaction meets. -/
theorem endsAs_receiveProviderWebhook (hloads : LoadsJson P) (call : ReceiveWebhook) :
    Machine.EndsAs (M := payflow P) rely (contract P) (Decides P call)
      ((receiveProviderWebhook P call).bind fun r => .pure (.webhook r)) := by
  intro D
  suffices h : Machine.Leaves (payflow P) rely (contract P) .any (fun _ _ => True)
      (fun res _ => Decides P call (res.map .webhook)) (receiveProviderWebhook P call) D by
    refine Machine.Leaves.bind .any (fun a _ ha => ?_) (fun e _ he => ?_) h
    · exact ha
    · exact he
  unfold receiveProviderWebhook verifyWebhookSignature compareDigest
  by_cases hascii : call.xWebhookSignature.toList.all (fun c => c.toNat < 128) = true
  · rw [if_pos hascii]
    rw [List.all_eq_true] at hascii
    have hascii : ∀ c ∈ call.xWebhookSignature.toList, c.toNat < 128 := fun c hc =>
      of_decide_eq_true (hascii c hc)
    refine .ite (fun hwrong => ?_) fun hright => ?_
    · -- a wrong signature
      have hwrong : P.webhookHmac call.rawBody ≠ call.xWebhookSignature := by simpa using hwrong
      refine ⟨fun _ => ⟨hascii, fun h => absurd h hwrong⟩, fun _ => ?_⟩
      unfold CleanEnd
      rw [if_pos hwrong]
      exact ⟨_, rfl⟩
    have hsigned : P.webhookHmac call.rawBody = call.xWebhookSignature := by simpa using hright
    cases hload : P.jsonLoads call.rawBody with
    | error e =>
      by_cases he : e = .jsonDecodeError
      · subst he
        refine ⟨fun _ => ⟨hascii, fun _ => ?_⟩, fun _ => ?_⟩
        · rw [hload]
        · unfold CleanEnd
          rw [if_neg (not_not.mpr hsigned), hload]
          exact ⟨_, rfl⟩
      · cases e with
        | jsonDecodeError => exact absurd rfl he
        | httpException code detail => exact absurd hload (hloads _ _ _)
        | _ =>
          refine decides_raise trivial fun h => ?_
          have hjson := h.json hsigned
          rw [hload] at hjson
          cases hjson
    | ok payload =>
      have hiff := wellHandled_iff hascii hsigned hload
      refine .ofExcept (fun e he => decides_raise (noHttp_hasRequiredFields he) fun h => ?_)
        fun complete hcomplete => ?_
      · obtain ⟨complete, hok⟩ := hasRequiredFields_ok (hiff.mp h)
        rw [he] at hok
        cases hok
      refine .ite (fun hlacks => ?_) fun hall => ?_
      · obtain rfl : complete = false := by simpa using hlacks
        exact decides_refused hascii hsigned hload (refusedWebhook_iff.mpr (Or.inl hcomplete))
      obtain rfl : complete = true := by simpa using hall
      refine .ofExcept (fun e he => decides_raise (noHttp_getItem he) fun h => ?_)
        fun status hstatus => ?_
      · obtain ⟨status, supported, hok, -⟩ := status_ok (hiff.mp h) hcomplete
        rw [he] at hok
        cases hok
      refine .ofExcept (fun e he => decides_raise (noHttp_inSet he) fun h => ?_)
        fun supported hsupported => ?_
      · obtain ⟨status', supported, hstatus', hok⟩ := status_ok (hiff.mp h) hcomplete
        obtain rfl := Except.ok.inj (hstatus.symm.trans hstatus')
        rw [he] at hok
        cases hok
      refine .ite (fun hother => ?_) fun hsup => ?_
      · obtain rfl : supported = false := by simpa using hother
        exact decides_refused hascii hsigned hload
          (refusedWebhook_iff.mpr (Or.inr ⟨status, hstatus, hsupported⟩))
      obtain rfl : supported = true := by simpa using hsup
      have hpassed : ¬ RefusedWebhook payload := by
        intro hr
        rcases refusedWebhook_iff.mp hr with hf | ⟨status', hstatus', hin⟩
        · rw [hcomplete] at hf
          cases hf
        · obtain rfl := Except.ok.inj (hstatus.symm.trans hstatus')
          rw [hsupported] at hin
          cases hin
      refine Machine.Leaves.txn .any (fun res _ => TxnAnswers P payload res)
        (fun _ _ _ => answering_receiveProviderWebhookTxn) ?_ ?_
      · intro D₁ D₂ now ws a _ hres _ _ _ _ _
        exact decides_txn hascii hsigned hload hpassed hres
      · intro D₁ D₂ e _ hres _ _ _ _
        exact decides_txn hascii hsigned hload hpassed hres
  · rw [if_neg hascii]
    refine decides_raise trivial fun h => hascii ?_
    exact List.all_eq_true.mpr fun c hc => decide_eq_true (h.ascii c hc)

theorem answerable_any {pid : ℕ} : Machine.Answerable (payflow P) pid fun _ _ _ => True where
  pick := ⟨.nothing⟩
  exec := exists_exec
  ext n w e := by
    cases e with
    | uuid4 => exact ⟨.newId ⟨0⟩, _, _, rfl, trivial⟩
    | redisSet _ _ | redisRelease _ _ => exact ⟨.redis none, _, _, rfl, trivial⟩
    | delay _ | sendRetry _ _ => exact ⟨.broker false, _, _, rfl, trivial⟩
    | postPayment _ _ | getPayment _ | postRefund _ _ =>
      exact ⟨.http .timeoutException, _, _, rfl, trivial⟩

/-- What is shown of the end of every process. -/
def EndDecides (P : Platform) : Start P → Except Exn Ans → Prop
  | .receiveProviderWebhook call, out => Decides P call out
  | _, _ => True

/-- **Every end** of the call, in every run. -/
theorem decides_of_done (hloads : LoadsJson P) {s : State P} (h : Reachable P s) {pid : ℕ}
    {out : Except Exn Ans} (hp : s.procs[pid]? = some ⟨.receiveProviderWebhook call, .done out⟩) :
    Decides P call out := by
  have hend : EndDecides P (.receiveProviderWebhook call) out := by
    refine Machine.Reachable.endsAs (fulfils P) (good_init P) rfl (fun {w x p} hx => ?_) h hp
    cases x with
    | receiveProviderWebhook call =>
      obtain rfl := Option.some.inj hx
      exact endsAs_receiveProviderWebhook hloads call
    | _ =>
      exact fun D => Machine.Leaves.stays .any (F := fun _ => True) (fun _ _ _ h => h)
        (fun _ _ _ => trivial) trivial
  exact hend

/-- **Main result.** The endpoint handles a call cleanly, in every run, if and only if the signature
is ASCII and a body that it signs is no JSON, or a payload that the checks refuse, or a usable
webhook. -/
theorem rejectsCleanly_iff (hloads : LoadsJson P) (call : ReceiveWebhook) :
    RejectsCleanly P call ↔ WellHandled P call := by
  constructor
  · intro hclean
    obtain ⟨s, hr, hp, hlocks⟩ : ∃ s : State P, Reachable P s ∧ s.procs[0]? =
        some ⟨.receiveProviderWebhook call,
          .run ((receiveProviderWebhook P call).bind fun r => .pure (.webhook r))⟩ ∧
        Machine.othersLocks (payflow P) s 0 = [] :=
      ⟨_, .step (a := .start (.receiveProviderWebhook call)) .refl trivial rfl, rfl, rfl⟩
    obtain ⟨n, s', out, hrun, hend⟩ := hclean.ends s 0 _ hr hp nofun hlocks
    have hr' : Reachable P s' := hr.trans hrun.reachable
    exact (decides_of_done hloads hr' hend).mp (hclean.clean s' 0 out hr' hend)
  · intro hw
    refine ⟨fun s pid st _ hp hst hlocks => ?_, fun s pid out hr hp => ?_⟩
    · exact Machine.exists_end_of_live answerable_any hp hst hlocks
    · exact (decides_of_done hloads hr hp).mpr hw

/-- The provider's webhook. -/
theorem rejectsCleanly_usable : RejectsCleanly examplePlatform exampleWebhook := by
  have hloads : LoadsJson examplePlatform := by
    intro rawBody statusCode detail h
    simp only [examplePlatform, loadsBytes] at h
    split at h <;> cases h
  have hread : examplePlatform.jsonLoads exampleWebhook.rawBody =
      .ok (webhookPayload "event_1" (exampleUuid 1) "provider_1") := by
    have hload := loadsBytes_webhookText "event_1" (exampleUuid 1) "provider_1"
    simpa only [examplePlatform, exampleWebhook] using hload
  have husable : UsableWebhook examplePlatform
      (webhookPayload "event_1" (exampleUuid 1) "provider_1") :=
    ⟨⟨_, exampleUuid 1, rfl, by decide +kernel⟩, ⟨_, rfl, List.mem_cons_self⟩, ⟨_, _, rfl, rfl⟩,
      ⟨_, _, rfl, rfl⟩, ⟨_, _, rfl, rfl⟩, by decide +kernel⟩
  have hascii : Ascii exampleWebhook.xWebhookSignature.toList := ascii_of_all (by decide +kernel)
  have hsigned : examplePlatform.webhookHmac exampleWebhook.rawBody =
      exampleWebhook.xWebhookSignature := by decide +kernel
  exact (rejectsCleanly_iff hloads exampleWebhook).mpr
    ((wellHandled_iff hascii hsigned hread).mpr (Or.inr husable))

/-- The end of a call. -/
def callEnd (s : State P) (i : ℕ) : Option (ReceiveWebhook × Except Exn Ans) :=
  match s.procs[i]? with
  | some ⟨.receiveProviderWebhook call, .done out⟩ => some (call, out)
  | _ => none

theorem procs_of_callEnd {s : State P} {i : ℕ} {out : Except Exn Ans}
    (h : callEnd s i = some (call, out)) :
    s.procs[i]? = some ⟨.receiveProviderWebhook call, .done out⟩ := by
  unfold callEnd at h
  split at h
  · rename_i hp
    obtain ⟨rfl, rfl⟩ := Prod.mk.inj (Option.some.inj h)
    exact hp
  · simp at h

/-- The end of a call that raises a `TypeError`. -/
def raisesTypeError : Except Exn Ans → Bool
  | .error (.typeError _) => true
  | _ => false

/-- **A signature that is no ASCII** is not answered with 401: `hmac.compare_digest` raises. -/
theorem rejectsCleanly_fails : ¬ RejectsCleanly examplePlatform ⟨[], "é"⟩ := by
  intro hclean
  have h : ((payflow examplePlatform).run (init _)
      ([.start (.receiveProviderWebhook ⟨[], "é"⟩)] ++ quiet 0 1)).map (fun s =>
        (callEnd s 0).map fun x =>
          (x.1.rawBody, x.1.xWebhookSignature, raisesTypeError x.2)) =
      some (some ([], "é", true)) := by decide +kernel
  obtain ⟨s, hs, h⟩ := Option.map_eq_some_iff.mp h
  obtain ⟨⟨⟨rawBody, signature⟩, out⟩, hout, h⟩ := Option.map_eq_some_iff.mp h
  simp only [Prod.mk.injEq] at h
  obtain ⟨rfl, rfl, herror⟩ := h
  obtain ⟨detail, rfl⟩ := hclean.refused (.run hs) (procs_of_callEnd hout) (by decide +kernel)
  cases herror

end Payflow.Safety
