import Payflow.Lib.Ties
import Payflow.Spec.Footprint
import Payflow.Spec.SoloRules

/-! # Reconciliation treats payments independently

A run of `reconcile_processing_payments` with nothing else running, for any answers to its lookups.
While each answer is one that the loop expects, the payments that are reported final are moved, each
with one row in the ledger and one in the outbox, and nothing else happens to the others. The first
answer that is not expected, an exception of httpx that is no timeout or network error or a body
without a status, ends the run: the payments after it are left as they are, whatever their own
lookups would have said. -/

namespace Payflow.Safety

open Payflow.Lib Payflow.Model Payflow.Spec

variable {P : Platform} {pid : ℕ}

/-- The final status that the provider reports for a payment. -/
def reported : HttpOutcome → Option PaymentStatus
  | .response statusCode _ (.ok (.obj fields)) =>
    if statusCode < 400 then
      match fields.lookup "status" with
      | some (.str "SUCCEEDED") => some .succeeded
      | some (.str "FAILED") => some .failed
      | _ => none
    else none
  | _ => none

/-- The outcomes of a lookup that the loop expects: a timeout, a network error, an error status, or
a dict with a status that has a hash. -/
def expected : HttpOutcome → Bool
  | .timeoutException | .networkError => true
  | .otherError _ => false
  | .response statusCode _ json =>
    decide (statusCode ≥ 400) ||
      match json with
      | .ok (.obj fields) =>
        match fields.lookup "status" with
        | some status => hashable status
        | none => false
      | .ok _ => false
      | .error e => isProviderError e

/-- The event type of a correction. -/
def reconciledEvent (status : PaymentStatus) : EventType :=
  if status = .succeeded then .paymentReconciledSucceeded else .paymentReconciledFailed

/-- The row of a payment after the payments `ids` have been looked up. -/
def correctedRow (report : Uuid → Option PaymentStatus) (ids : List Uuid) (time : Uuid → ℕ)
    (row : Payment) : Payment :=
  match report row.id with
  | some status =>
    if row.id ∈ ids then
      { row with
        status := status
        failureCode := if status = .failed then some "RECONCILED_PROVIDER_FAILURE" else none
        version := row.version + 1
        updatedAt := time row.id }
    else row
  | none => row

/-- Of the payments `ids`, exactly those with a final status have been moved to it, each with one
row in the ledger and one in the outbox; no other payment has changed. -/
structure Corrected (D D' : Db) (report : Uuid → Option PaymentStatus) (ids : List Uuid) :
    Prop where
  payments : ∃ time, D'.payments = D.payments.map (correctedRow report ids time)
  ledger : ∃ events, D'.paymentEvents = D.paymentEvents ++ events ∧
    events.map (fun e => (e.paymentId, e.eventType, e.previousStatus, e.newStatus)) =
      ids.filterMap fun id => (report id).map fun status =>
        (id, reconciledEvent status, some .processing, status)
  outbox : ∃ events, D'.outboxEvents = D.outboxEvents ++ events ∧
    events.map (fun e => (e.aggregateId, e.eventType)) =
      ids.filterMap fun id => (report id).map fun status => (id, reconciledEvent status)

/-- The lookup of the `n`-th selected payment is answered as `Gives` allows for that payment. -/
def Lookups (selected : List Payment) (Gives : Uuid → HttpOutcome → Prop) (n : ℕ) :
    (e : Ext) → ERes e → Prop
  | .getPayment _, out => ∀ payment, selected[n]? = some payment → Gives payment.id out
  | _, _ => True

/-! ### One payment -/

theorem solo_reconcileOne {now : ℕ} {D : Db} {row : Payment} {status : PaymentStatus}
    {Q : Except Exn Bool → Db → Prop} (hrow : D.payment? row.id = some row)
    (hst : row.status = .processing)
    (hQ : ∀ event outbox,
      Q (.ok true) (store.applyAll D (reconcileWrites now row status event outbox))) :
    SoloTxn store now Q (reconcileOneTxn row.id status) D := by
  refine solo_read (fun _ => congrArg (fun r => some (r, [])) hrow) ?_
  refine SoloTxn.ite (fun hne => absurd hst hne) fun _ => solo_updatePayment hrow rfl ?_
  refine solo_insertPaymentEvent fun event _ => solo_insertOutboxEvent fun outbox _ => ?_
  exact hQ event outbox

/-! ### One lookup -/

/-- What a lookup in its `try` block answers. -/
def lookupAnswer : HttpOutcome → Except Exn (Option Json)
  | .timeoutException | .networkError => .ok none
  | .otherError name => .error (.httpxError name)
  | .response statusCode _ json =>
    if statusCode ≥ 400 then .ok none
    else
      match json with
      | .ok providerPayment => .ok (some providerPayment)
      | .error e => if isProviderError e then .ok none else .error e

section response

variable {text : String} {statusCode : ℕ} {json : Except Exn Json}

theorem lookupAnswer_rejected (h₄ : statusCode ≥ 400) :
    lookupAnswer (.response statusCode text json) = .ok none :=
  if_pos h₄

theorem lookupAnswer_ok {body : Json} (h₄ : ¬ statusCode ≥ 400) :
    lookupAnswer (.response statusCode text (.ok body)) = .ok (some body) :=
  if_neg h₄

theorem lookupAnswer_error {e : Exn} (h₄ : ¬ statusCode ≥ 400) :
    lookupAnswer (.response statusCode text (.error e)) =
      if isProviderError e then .ok none else .error e :=
  if_neg h₄

end response

theorem tryGetProviderPayment_eq (id : String) :
    tryGetProviderPayment id = .op (Call.ext (Ext.getPayment id)) fun (out : HttpOutcome) =>
      .ofExcept (lookupAnswer out) := by
  refine congrArg (Prog.op (Call.ext (Ext.getPayment id))) (funext fun (out : HttpOutcome) => ?_)
  cases out with
  | response statusCode text json =>
    show ((providerResponse _ _ _ (.response statusCode text json)).bind _).handle _ = _
    by_cases h₄ : statusCode ≥ 400
    · rw [lookupAnswer_rejected h₄]
      by_cases h₅ : statusCode ≥ 500
      · rw [providerResponse_unavailable h₅]
        rfl
      · rw [providerResponse_rejected h₅ h₄]
        rfl
    · rw [providerResponse_ok h₄]
      cases json with
      | ok json =>
        rw [lookupAnswer_ok h₄]
        rfl
      | error e =>
        rw [lookupAnswer_error h₄]
        cases e <;> rfl
  | _ => rfl

/-- A lookup that answers nothing is expected, and reports nothing. -/
theorem expected_of_none {out : HttpOutcome} (h : lookupAnswer out = .ok none) :
    expected out = true ∧ reported out = none := by
  cases out with
  | response statusCode text json =>
    by_cases h₄ : statusCode ≥ 400
    · refine ⟨by simp [expected, h₄], ?_⟩
      unfold reported
      split
      · rename_i he
        cases he
        rw [if_neg (by omega)]
      · rfl
    · cases json with
      | ok json => simp [lookupAnswer_ok h₄] at h
      | error e =>
        cases hp : isProviderError e with
        | true => exact ⟨by simp [expected, hp], rfl⟩
        | false => simp [lookupAnswer_error h₄, hp] at h
  | otherError name => cases h
  | _ => exact ⟨rfl, rfl⟩

theorem expected_of_error {out : HttpOutcome} {e : Exn} (h : lookupAnswer out = .error e) :
    expected out = false := by
  cases out with
  | response statusCode text json =>
    by_cases h₄ : statusCode ≥ 400
    · simp [lookupAnswer_rejected h₄] at h
    · cases json with
      | ok json => simp [lookupAnswer_ok h₄] at h
      | error e' =>
        cases hp : isProviderError e' with
        | true => simp [lookupAnswer_error h₄, hp] at h
        | false => simp [expected, hp]; omega
  | otherError name => rfl
  | _ => cases h

theorem response_of_some {out : HttpOutcome} {json : Json}
    (h : lookupAnswer out = .ok (some json)) :
    ∃ statusCode text, out = .response statusCode text (.ok json) ∧ statusCode < 400 := by
  cases out with
  | response statusCode text body =>
    by_cases h₄ : statusCode ≥ 400
    · simp [lookupAnswer_rejected h₄] at h
    · cases body with
      | ok json' =>
        simp only [lookupAnswer_ok h₄, Except.ok.injEq, Option.some.injEq] at h
        exact ⟨statusCode, text, by rw [h], by omega⟩
      | error e =>
        cases hp : isProviderError e <;> simp [lookupAnswer_error h₄, hp] at h
  | _ => cases h

section answered

variable {statusCode : ℕ} {json : Json}

theorem expected_of_getItem_error {text : String} {e : Exn} (hcode : statusCode < 400)
    (h : json.getItem "status" = .error e) :
    expected (.response statusCode text (.ok json)) = false := by
  have hcode : ¬ statusCode ≥ 400 := by omega
  cases json with
  | obj fields =>
    simp only [Json.getItem] at h
    split at h
    · cases h
    · rename_i hnone
      simp [expected, hcode, hnone]
  | _ => simp [expected, hcode]

theorem expected_of_getItem_ok (text : String) {status : Json} (hcode : statusCode < 400)
    (h : json.getItem "status" = .ok status) :
    (∀ e, status.inSet ["SUCCEEDED", "FAILED"] = .error e →
      expected (.response statusCode text (.ok json)) = false) ∧
    ∀ final, status.inSet ["SUCCEEDED", "FAILED"] = .ok final →
      expected (.response statusCode text (.ok json)) = true ∧
      reported (.response statusCode text (.ok json)) =
        if final then some (if status.isStr "SUCCEEDED" then .succeeded else .failed)
        else none := by
  have hcode' : ¬ statusCode ≥ 400 := by omega
  cases json with
  | obj fields =>
    simp only [Json.getItem] at h
    split at h
    case h_2 => cases h
    rename_i status' hlookup
    obtain rfl := Except.ok.inj h
    refine ⟨fun e he => ?_, fun final hfinal => ?_⟩
    · cases status' with
      | arr _ | obj _ => simp [expected, hcode', hlookup, hashable]
      | _ => cases he
    · cases status' with
      | arr _ | obj _ => cases hfinal
      | str s =>
        obtain rfl := Except.ok.inj hfinal
        refine ⟨by simp [expected, hlookup, hashable], ?_⟩
        unfold reported
        simp only [if_pos hcode, hlookup]
        by_cases hs : s = "SUCCEEDED"
        · subst hs
          rfl
        · by_cases hf : s = "FAILED"
          · subst hf
            rfl
          · simp [hs, hf]
      | _ =>
        obtain rfl := Except.ok.inj hfinal
        refine ⟨by simp [expected, hlookup, hashable], ?_⟩
        unfold reported
        simp [hlookup]
  | _ => cases h

end answered

/-! ### The database -/

namespace Corrected

variable {D D' : Db} {report : Uuid → Option PaymentStatus} {ids : List Uuid} {row : Payment}
  {time : Uuid → ℕ}

theorem correctedRow_of_notMem (h : row.id ∉ ids) : correctedRow report ids time row = row := by
  unfold correctedRow
  split
  · exact if_neg h
  · rfl

theorem correctedRow_of_none (h : report row.id = none) :
    correctedRow report ids time row = row := by
  unfold correctedRow
  rw [h]

@[simp] theorem correctedRow_id (row : Payment) :
    (correctedRow report ids time row).id = row.id := by
  unfold correctedRow
  split
  · split_ifs <;> rfl
  · rfl

theorem ids_eq (h : Corrected D D' report ids) :
    D'.payments.map (·.id) = D.payments.map (·.id) := by
  obtain ⟨time, hrows⟩ := h.payments
  simp [hrows]

protected theorem refl (D : Db) (report : Uuid → Option PaymentStatus) :
    Corrected D D report [] where
  payments := ⟨fun _ => 0, by
    conv_lhs => rw [← List.map_id D.payments]
    exact List.map_congr_left fun row _ => (correctedRow_of_notMem (by simp)).symm⟩
  ledger := ⟨[], by simp, rfl⟩
  outbox := ⟨[], by simp, rfl⟩

theorem payment? (h : Corrected D D' report ids) (hids : (D.payments.map (·.id)).Nodup)
    (hrow : row ∈ D.payments) (hnew : row.id ∉ ids) : D'.payment? row.id = some row := by
  obtain ⟨time, hrows⟩ := h.payments
  refine find?_key_of_mem (h.ids_eq ▸ hids) ?_
  rw [hrows]
  exact List.mem_map.mpr ⟨row, hrow, correctedRow_of_notMem hnew⟩

theorem skip (h : Corrected D D' report ids) {id : Uuid} (hid : report id = none) :
    Corrected D D' report (ids ++ [id]) := by
  obtain ⟨time, hrows⟩ := h.payments
  refine ⟨⟨time, ?_⟩, ?_, ?_⟩
  · rw [hrows]
    refine List.map_congr_left fun row _ => ?_
    by_cases he : row.id = id
    · rw [correctedRow_of_none (he ▸ hid), correctedRow_of_none (he ▸ hid)]
    · simp only [correctedRow, List.mem_append, List.mem_singleton, he, or_false]
  · simpa [hid] using h.ledger
  · simpa [hid] using h.outbox

theorem move (h : Corrected D D' report ids) (hids : (D.payments.map (·.id)).Nodup)
    (hrow : row ∈ D.payments) (hnew : row.id ∉ ids) {status : PaymentStatus}
    (hstatus : report row.id = some status) (now : ℕ) (event outbox : Uuid) :
    Corrected D (store.applyAll D' (reconcileWrites now row status event outbox)) report
      (ids ++ [row.id]) := by
  obtain ⟨time, hrows⟩ := h.payments
  refine ⟨⟨Function.update time row.id now, ?_⟩, ?_, ?_⟩
  · show setWhere _ _ D'.payments = _
    unfold setWhere
    rw [hrows, List.map_map]
    refine List.map_congr_left fun row' hrow' => ?_
    simp only [Function.comp_apply, correctedRow_id, decide_eq_true_eq]
    by_cases he : row'.id = row.id
    · obtain rfl := eq_of_key hids hrow' hrow he
      rw [if_pos rfl, correctedRow_of_notMem hnew]
      simp [correctedRow, hstatus]
    · rw [if_neg he]
      simp only [correctedRow, List.mem_append, List.mem_singleton, he, or_false,
        Function.update_of_ne he]
  · obtain ⟨events, hevents, hmap⟩ := h.ledger
    refine ⟨events ++ [⟨event, row.id, reconciledEvent status, some .processing, status, .obj
      [("source", .str "reconciliation")], now⟩], ?_, ?_⟩
    · rw [← List.append_assoc, ← hevents]
      rfl
    · simp [hmap, hstatus]
  · obtain ⟨events, hevents, hmap⟩ := h.outbox
    refine ⟨events ++ [newOutboxEvent now outbox row.id (reconciledEvent status) (.obj
      [("payment_id", .str row.id.text), ("status", .str status.text),
        ("source", .str "reconciliation")])], ?_, ?_⟩
    · rw [← List.append_assoc, ← hevents]
      rfl
    · simp [hmap, hstatus, newOutboxEvent]

end Corrected

/-! ### The loop -/

/-- All answers to the lookups of a payment report the same, and are alike expected or not. -/
structure Uniform (Gives : Uuid → HttpOutcome → Prop) (report : Uuid → Option PaymentStatus)
    (good : Uuid → Bool) : Prop where
  report : ∀ id out, Gives id out → reported out = report id
  good : ∀ id out, Gives id out → expected out = good id

/-- How the loop ends: with every selected payment, or at the first lookup that is not expected. -/
def LoopEnds (D₀ : Db) (selected : List Payment) (report : Uuid → Option PaymentStatus)
    (good : Uuid → Bool) (D : Db) : Except Exn Reconciled → Prop
  | .ok counts => (∀ payment ∈ selected, good payment.id = true) ∧
    Corrected D₀ D report (selected.map (·.id)) ∧ counts.checked = selected.length ∧
    counts.corrected + counts.errors ≤ counts.checked
  | .error _ => ∃ done payment rest, selected = done ++ payment :: rest ∧
    good payment.id = false ∧ Corrected D₀ D report (done.map (·.id))

section loop

variable {D₀ : Db} {selected : List Payment} {Gives : Uuid → HttpOutcome → Prop}
  {report : Uuid → Option PaymentStatus} {good : Uuid → Bool}

theorem solo_reconcileLoop (hU : Uniform Gives report good)
    (hids : (D₀.payments.map (·.id)).Nodup) (hselected : (selected.map (·.id)).Nodup)
    (hrows : ∀ payment ∈ selected, payment ∈ D₀.payments ∧ payment.status = .processing) :
    ∀ (rest done : List Payment) {counts : Reconciled} {D : Db}, selected = done ++ rest →
      (∀ payment ∈ done, good payment.id = true) → Corrected D₀ D report (done.map (·.id)) →
      counts.checked = done.length → counts.corrected + counts.errors ≤ counts.checked →
      Machine.Solo (payflow P) pid (Lookups selected Gives)
        (fun res D _ => LoopEnds D₀ selected report good D res) (reconcileLoop rest counts) D
        done.length
  | [], done, counts, D, hsplit, hdone, hD, hchecked, hle => by
    obtain rfl : selected = done := by simpa using hsplit
    exact ⟨hdone, hD, hchecked, hle⟩
  | payment :: rest, done, counts, D, hsplit, hdone, hD, hchecked, hle => by
    have hmem : payment ∈ selected := by simp [hsplit]
    obtain ⟨hrow, hst⟩ := hrows payment hmem
    have hnew : payment.id ∉ done.map (·.id) := by
      rw [hsplit, List.map_append, List.map_cons] at hselected
      exact fun h => (List.nodup_append.mp hselected).2.2 _ h _ List.mem_cons_self rfl
    have hsplit' : selected = (done ++ [payment]) ++ rest := by simp [hsplit]
    -- the rest of the loop, after this payment
    have hrest : ∀ (counts : Reconciled) (D : Db), good payment.id = true →
        Corrected D₀ D report ((done ++ [payment]).map (·.id)) →
        counts.checked = done.length + 1 → counts.corrected + counts.errors ≤ counts.checked →
        Machine.Solo (payflow P) pid (Lookups selected Gives)
          (fun res D _ => LoopEnds D₀ selected report good D res) (reconcileLoop rest counts) D
          (done.length + 1) := by
      intro counts D hgood hD hchecked hle
      have hlength : (done ++ [payment]).length = done.length + 1 := by simp
      rw [← hlength] at hchecked ⊢
      refine solo_reconcileLoop hU hids hselected hrows rest _ hsplit' (fun p hp => ?_) hD
        hchecked hle
      rcases List.mem_append.mp hp with hp | hp
      · exact hdone p hp
      · exact List.mem_singleton.mp hp ▸ hgood
    have hfail : good payment.id = false → ∀ e,
        LoopEnds D₀ selected report good D (.error e) :=
      fun hbad _ => ⟨done, payment, rest, hsplit, hbad, hD⟩
    show Machine.Solo _ _ _ _ ((tryGetProviderPayment _).bind _) _ _
    rw [tryGetProviderPayment_eq]
    intro pick w out w' hx hC
    have hgives : Gives payment.id out := hC payment (by simp [hsplit])
    have hreport := hU.report _ _ hgives
    have hgood := hU.good _ _ hgives
    refine Machine.Solo.ofExcept (fun e he => ?_) fun answer hanswer => ?_
    · exact hfail (hgood.symm.trans (expected_of_error he)) e
    cases answer with
    | none =>
      obtain ⟨hexpected, hnone⟩ := expected_of_none hanswer
      rw [hexpected] at hgood
      rw [hnone] at hreport
      refine hrest _ D hgood.symm ?_ ?_ ?_
      · rw [List.map_append]
        exact hD.skip hreport.symm
      · exact congrArg (· + 1) hchecked
      · show counts.corrected + (counts.errors + 1) ≤ counts.checked + 1
        omega
    | some json =>
      obtain ⟨statusCode, text, rfl, hcode⟩ := response_of_some hanswer
      refine Machine.Solo.ofExcept (fun e he => ?_) fun status hstatus => ?_
      · exact hfail (hgood.symm.trans (expected_of_getItem_error hcode he)) e
      obtain ⟨hraise, hfinal⟩ := expected_of_getItem_ok text hcode hstatus
      refine Machine.Solo.ofExcept (fun e he => ?_) fun final hf => ?_
      · exact hfail (hgood.symm.trans (hraise e he)) e
      obtain ⟨hexpected, hrep⟩ := hfinal final hf
      rw [hexpected] at hgood
      rw [hrep] at hreport
      cases final with
      | false =>
        refine hrest _ D hgood.symm ?_ ?_ ?_
        · rw [List.map_append]
          exact hD.skip hreport.symm
        · exact congrArg (· + 1) hchecked
        · show counts.corrected + counts.errors ≤ counts.checked + 1
          omega
      | true =>
        intro now
        refine solo_reconcileOne (hD.payment? hids hrow hnew) hst fun event outbox => ?_
        refine hrest _ _ hgood.symm ?_ ?_ ?_
        · rw [List.map_append]
          exact hD.move hids hrow hnew hreport.symm now event outbox
        · exact congrArg (· + 1) hchecked
        · show counts.corrected + 1 + counts.errors ≤ counts.checked + 1
          omega

end loop

/-! ### The runs -/

theorem answerable_lookups {selected : List Payment} {Gives : Uuid → HttpOutcome → Prop}
    (hG : ∀ id, ∃ out, Gives id out) :
    Machine.Answerable (payflow P) pid (Lookups selected Gives) where
  pick := ⟨.nothing⟩
  exec := exists_exec
  ext n w e := by
    cases e with
    | getPayment id =>
      cases hp : selected[n]? with
      | none => exact ⟨.http .timeoutException, _, _, rfl, fun p hp' => by simp [hp] at hp'⟩
      | some payment =>
        obtain ⟨out, hout⟩ := hG payment.id
        refine ⟨.http out, out, w, rfl, fun p hp' => ?_⟩
        obtain rfl := Option.some.inj (hp.symm.trans hp')
        exact hout
    | uuid4 => exact ⟨.newId ⟨0⟩, _, _, rfl, trivial⟩
    | redisSet _ _ | redisRelease _ _ => exact ⟨.redis none, _, _, rfl, trivial⟩
    | delay _ | sendRetry _ _ => exact ⟨.broker false, _, _, rfl, trivial⟩
    | postPayment _ _ | postRefund _ _ => exact ⟨.http .timeoutException, _, _, rfl, trivial⟩

/-- The payment waits for reconciliation. -/
def isEligible (now : ℕ) (p : Payment) : Bool :=
  p.status = .processing && p.providerPaymentId.isSome && decide (p.updatedAt + 10 * second < now)

/-- The payments that wait for reconciliation, oldest first. -/
def eligible (tie : Uuid → ℕ) (now : ℕ) (D : Db) : List Payment :=
  (D.payments.filter (isEligible now)).insertionSort (timeOrder (·.updatedAt) (·.id) tie)

theorem processingPayments_eq (tie : Uuid → ℕ) (now : ℕ) (D : Db) :
    processingPayments tie now D = (eligible tie now D).take 100 := rfl

theorem isEligible_iff {now : ℕ} {p : Payment} : isEligible now p = true ↔
    p.status = .processing ∧ p.providerPaymentId.isSome = true ∧
      p.updatedAt + 10 * second < now := by
  simp [isEligible, and_assoc]

theorem mem_eligible {tie : Uuid → ℕ} {now : ℕ} {D : Db} {p : Payment} :
    p ∈ eligible tie now D ↔ p ∈ D.payments ∧ isEligible now p = true := by
  rw [eligible, List.mem_insertionSort, List.mem_filter]

theorem eligible_ids {D : Db} (hids : (D.payments.map (·.id)).Nodup) (tie : Uuid → ℕ) (now : ℕ) :
    ((eligible tie now D).map (·.id)).Nodup := by
  have hfilter : ((D.payments.filter (isEligible now)).map (·.id)).Nodup :=
    hids.sublist (List.filter_sublist.map _)
  exact ((List.perm_insertionSort (timeOrder (·.updatedAt) (·.id) tie) _).map
    fun p : Payment => p.id).nodup_iff.mpr hfilter

theorem mem_processingPayments {tie : Uuid → ℕ} {now : ℕ} {D : Db} {payment : Payment}
    (h : payment ∈ processingPayments tie now D) :
    payment ∈ D.payments ∧ payment.status = .processing := by
  obtain ⟨hmem, he⟩ := mem_eligible.mp (List.mem_of_mem_take h)
  exact ⟨hmem, (isEligible_iff.mp he).1⟩

theorem processingPayments_ids {D : Db} (hids : (D.payments.map (·.id)).Nodup) (tie : Uuid → ℕ)
    (now : ℕ) : ((processingPayments tie now D).map (·.id)).Nodup :=
  (eligible_ids hids tie now).sublist ((List.take_sublist _ _).map _)

/-- An execution of `reconcile_processing_payments` that has just been started begins its first
transaction, while no other process holds a lock, and selects; `tie` orders the payments that were
updated at the same time. -/
structure Begins (s s₁ : State P) (pid : ℕ) (tie : Uuid → ℕ) : Prop where
  proc : ∃ q, start P s.world .reconcilePayments = some q ∧
    s.procs[pid]? = some ⟨.reconcilePayments, .run q⟩
  alone : Machine.othersLocks (payflow P) s pid = []
  steps : ∃ pick s₂ d s₃ pick', (payflow P).step s (.step pid pick) = some s₂ ∧
    (payflow P).step s₂ (.tick d) = some s₃ ∧ (payflow P).step s₃ (.step pid pick') = some s₁ ∧
    pick'.tie = tie

section runs

variable {s s₁ s' : State P} {tie : Uuid → ℕ} {Gives : Uuid → HttpOutcome → Prop}
  {report : Uuid → Option PaymentStatus} {good : Uuid → Bool}

/-- What the program does after its first transaction. -/
def afterSelect (res : Except Exn (List Payment)) : Proc Ans :=
  ((Prog.ofExcept res).bind fun payments => reconcileLoop payments ⟨0, 0, 0⟩).bind fun r =>
    .pure (.reconciled r)

theorem Begins.begun (h : Begins s s₁ pid tie) : s₁.db = s.db ∧ s.clock ≤ s₁.clock ∧
    s₁.procs.eraseIdx pid = s.procs.eraseIdx pid ∧ s₁.procs[pid]? = some ⟨.reconcilePayments,
      .inTxn .reconcileSelect ⟨.pure (processingPayments tie s.clock s.db), [], [], s.clock⟩
        afterSelect⟩ := by
  obtain ⟨q, hq, hp⟩ := h.proc
  obtain rfl := Option.some.inj hq
  obtain ⟨pick, s₂, d, s₃, pick', hs, htick, hs', rfl⟩ := h.steps
  obtain ⟨y, st, st₂, hp₁, hp₂, hadv⟩ := Machine.step_own hs
  obtain ⟨rfl, rfl⟩ := Machine.Proc.mk.inj (Option.some.inj (hp.symm.trans hp₁))
  obtain ⟨hdb, hrest⟩ : s.db = s₂.db ∧ (s.world, Status.inTxn .reconcileSelect
      ⟨reconcileSelectTxn, [], [], s.clock⟩ afterSelect) = (s₂.world, st₂) :=
    Prod.mk.inj (Option.some.inj hadv)
  obtain ⟨-, rfl⟩ := Prod.mk.inj hrest
  have hclock := Machine.clock_le hs
  have hothers := Machine.step_others hs
  obtain rfl := Option.some.inj htick
  obtain ⟨y, st, st₁, hp₃, hp₄, hadv'⟩ := Machine.step_own hs'
  obtain ⟨rfl, rfl⟩ := Machine.Proc.mk.inj (Option.some.inj (hp₂.symm.trans hp₃))
  obtain ⟨r, ws, hx, hdb', rfl⟩ := Machine.advance_stmt hadv'
  obtain ⟨rfl, rfl⟩ := Prod.mk.inj (Option.some.inj hx)
  refine ⟨hdb'.trans hdb.symm, ?_, (Machine.step_others hs').trans hothers, ?_⟩
  · exact Nat.le_trans hclock (Nat.le_trans (Nat.le_add_right _ d) (Machine.clock_le hs'))
  · rw [hp₄, hdb]
    rfl

/-- **How a run alone ends.** -/
theorem run_ends (hU : Uniform Gives report good) (hids : (s.db.payments.map (·.id)).Nodup)
    (h : Begins s s₁ pid tie) {n : ℕ} {x : Start P} {out : Except Exn Ans}
    (hrun : Machine.RunsSolo (payflow P) pid
      (Lookups (processingPayments tie s.clock s.db) Gives) 0 s₁ n s')
    (hend : s'.procs[pid]? = some ⟨x, .done out⟩) :
    ∃ res, LoopEnds s.db (processingPayments tie s.clock s.db) report good s'.db res ∧
      out = res.map .reconciled := by
  obtain ⟨hdb, -, -, hp⟩ := h.begun
  have hstart : Machine.SoloStatus (payflow P) pid
      (Lookups (processingPayments tie s.clock s.db) Gives) (fun out D _ =>
        ∃ res, LoopEnds s.db (processingPayments tie s.clock s.db) report good D res ∧
          out = res.map .reconciled) s₁.db 0 (.inTxn .reconcileSelect
            ⟨.pure (processingPayments tie s.clock s.db), [], [], s.clock⟩ afterSelect) := by
    rw [hdb]
    refine Machine.Solo.bind (solo_reconcileLoop hU hids (processingPayments_ids hids _ _)
      (fun _ => mem_processingPayments) _ [] rfl (by simp) (.refl _ _) rfl (Nat.le_refl _)) ?_ ?_
    · exact fun counts D _ hres => ⟨.ok counts, hres, rfl⟩
    · exact fun e D _ hres => ⟨.error e, hres, rfl⟩
  obtain ⟨st, hp', hst⟩ := hrun.ends hp hstart
  obtain ⟨rfl, rfl⟩ := Machine.Proc.mk.inj (Option.some.inj (hend.symm.trans hp'))
  exact hst

theorem run_exists (hG : ∀ id, ∃ out, Gives id out) (h : Begins s s₁ pid tie) :
    ∃ n s' out, Machine.RunsSolo (payflow P) pid
      (Lookups (processingPayments tie s.clock s.db) Gives) 0 s₁ n s' ∧
      s'.procs[pid]? = some ⟨.reconcilePayments, .done out⟩ := by
  obtain ⟨-, -, hothers, hp⟩ := h.begun
  have hlocks : Machine.othersLocks (payflow P) s₁ pid = [] := by
    unfold Machine.othersLocks
    rw [hothers]
    exact h.alone
  obtain ⟨s₂, res, hrun₂, hp₂, hlocks₂⟩ :=
    Machine.exists_end_txn (answerable_lookups hG) _ hp hlocks
  obtain ⟨n, s', out, hrun, hp'⟩ := Machine.exists_end (answerable_lookups hG) _ hp₂ hlocks₂
  exact ⟨n, s', out, hrun₂.trans hrun, hp'⟩

end runs

/-- The selected payments were treated independently: the execution returns, it has counted every
payment, and exactly those that are reported final have been moved. -/
def Independent (D D' : Db) (selected : List Payment) (report : Uuid → Option PaymentStatus)
    (out : Except Exn Ans) : Prop :=
  ∃ counts, out = .ok (.reconciled counts) ∧ counts.checked = selected.length ∧
    counts.corrected + counts.errors ≤ counts.checked ∧
    Corrected D D' report (selected.map (·.id))

theorem uniform_outs (outs : Uuid → HttpOutcome) : Uniform (fun id out => out = outs id)
    (fun id => reported (outs id)) fun id => expected (outs id) where
  report _ _ h := congrArg reported h
  good _ _ h := congrArg expected h

/-- **Main result.** Whatever is selected and whatever the lookups answer, an execution alone always
ends, and it treats the selected payments independently if and only if every answer is expected. -/
theorem independent_iff {s s₁ : State P} {tie : Uuid → ℕ}
    (hids : (s.db.payments.map (·.id)).Nodup)
    (h : Begins s s₁ pid tie) (outs : Uuid → HttpOutcome) :
    (∃ n s' out, Machine.RunsSolo (payflow P) pid
      (Lookups (processingPayments tie s.clock s.db) fun id out => out = outs id) 0 s₁ n s' ∧
      s'.procs[pid]? = some ⟨.reconcilePayments, .done out⟩) ∧
    ∀ n s' x out, Machine.RunsSolo (payflow P) pid
      (Lookups (processingPayments tie s.clock s.db) fun id out => out = outs id) 0 s₁ n s' →
      s'.procs[pid]? = some ⟨x, .done out⟩ →
      (Independent s.db s'.db (processingPayments tie s.clock s.db)
          (fun id => reported (outs id)) out ↔
        ∀ payment ∈ processingPayments tie s.clock s.db, expected (outs payment.id) = true) := by
  refine ⟨run_exists (fun id => ⟨_, rfl⟩) h, fun n s' x out hrun hend => ?_⟩
  obtain ⟨res, hres, rfl⟩ := run_ends (uniform_outs outs) hids h hrun hend
  cases res with
  | ok counts =>
    obtain ⟨hgood, hD, hchecked, hle⟩ := hres
    exact ⟨fun _ => hgood, fun _ => ⟨counts, rfl, hchecked, hle, hD⟩⟩
  | error e =>
    obtain ⟨done, payment, rest, hsplit, hbad, -⟩ := hres
    refine ⟨fun ⟨counts, he, _⟩ => (by cases he), fun hall => ?_⟩
    exact absurd ((hall payment (by simp [hsplit])).symm.trans hbad) (by decide)

/-! ### Examples -/

/-- A payment that waits for its webhook. -/
def waitingPayment (n : ℕ) : Payment where
  toPaymentCols := ⟨.processing, some ("provider-payment-" ++ toString n), none, 0, 2, n⟩
  id := exampleUuid n
  merchantId := "demo-merchant"
  idempotencyKey := "payment-key-" ++ toString n
  requestHash := exampleHash
  userId := "user-1"
  amountCents := 500
  currency := "INR"
  createdAt := 0

/-- Reconciliation has been started, and two payments wait. -/
def twoWaiting : State examplePlatform where
  db := { Db.empty with payments := [waitingPayment 1, waitingPayment 2] }
  world := ⟨[]⟩
  clock := 20 * second
  procs := [⟨.reconcilePayments, .run (reconcileProcessingPayments.bind fun r =>
    .pure (.reconciled r))⟩]

theorem twoWaiting_begins (tie : Uuid → ℕ) : ∃ s₁, Begins twoWaiting s₁ 0 tie :=
  ⟨_, ⟨_, rfl, rfl⟩, rfl, .nothing, _, 0, _, .rows tie, rfl, rfl, rfl, rfl⟩

theorem twoWaiting_selected (tie : Uuid → ℕ) :
    processingPayments tie twoWaiting.clock twoWaiting.db = [waitingPayment 1, waitingPayment 2] :=
  rfl

/-- The second payment has succeeded, and the lookup of the first one has the given outcome. -/
def secondSucceeded (first : HttpOutcome) (id : Uuid) : HttpOutcome :=
  if id = exampleUuid 1 then first
  else .response 200 "" (.ok (.obj [("status", .str "SUCCEEDED")]))

/-- The lookup of the first payment times out, and the second payment is moved. -/
theorem independent_timeout : ∃ (tie : Uuid → ℕ) (s' : State examplePlatform) (out : Except Exn Ans),
    Independent twoWaiting.db s'.db (processingPayments tie twoWaiting.clock twoWaiting.db)
      (fun id => reported (secondSucceeded .timeoutException id)) out := by
  obtain ⟨s₁, h⟩ := twoWaiting_begins fun _ => 0
  have hids : (twoWaiting.db.payments.map (·.id)).Nodup := by decide +kernel
  obtain ⟨⟨n, s', out, hrun, hend⟩, hiff⟩ :=
    independent_iff hids h (secondSucceeded .timeoutException)
  refine ⟨_, s', out, (hiff n s' _ out hrun hend).mpr fun payment hmem => ?_⟩
  rw [twoWaiting_selected] at hmem
  rcases List.mem_pair.mp hmem with rfl | rfl <;> decide +kernel

/-- **A protocol error harms the payments after it.** The provider breaks off the lookup of the
first payment, which raises an exception that is not caught, and the second payment is left as it is
although the provider reports its success. -/
theorem independent_fails : ∃ (tie : Uuid → ℕ) (s₁ s' : State examplePlatform) (n : ℕ)
      (out : Except Exn Ans), Begins twoWaiting s₁ 0 tie ∧ Machine.RunsSolo (payflow examplePlatform) 0
      (Lookups (processingPayments tie twoWaiting.clock twoWaiting.db) fun id out =>
        out = secondSucceeded (.otherError "RemoteProtocolError") id) 0 s₁ n s' ∧
      s'.procs[0]? = some ⟨.reconcilePayments, .done out⟩ ∧
      waitingPayment 2 ∈ processingPayments tie twoWaiting.clock twoWaiting.db ∧
      reported (secondSucceeded (.otherError "RemoteProtocolError") (waitingPayment 2).id) =
        some .succeeded ∧
      s'.db.payment? (waitingPayment 2).id = some (waitingPayment 2) ∧
      ¬ Independent twoWaiting.db s'.db (processingPayments tie twoWaiting.clock twoWaiting.db)
        (fun id => reported (secondSucceeded (.otherError "RemoteProtocolError") id)) out := by
  let tie : Uuid → ℕ := fun _ => 0
  obtain ⟨s₁, h⟩ := twoWaiting_begins tie
  have hids : (twoWaiting.db.payments.map (·.id)).Nodup := by decide +kernel
  obtain ⟨n, s', out, hrun, hend⟩ : ∃ n s' out, Machine.RunsSolo (payflow examplePlatform) 0
      (Lookups (processingPayments tie twoWaiting.clock twoWaiting.db) fun id out =>
        out = secondSucceeded (.otherError "RemoteProtocolError") id) 0 s₁ n s' ∧
      s'.procs[0]? = some ⟨.reconcilePayments, .done out⟩ := by
    refine run_exists (fun id => ?_) h
    exact ⟨_, rfl⟩
  have hmem : waitingPayment 2 ∈ processingPayments tie twoWaiting.clock twoWaiting.db := by
    rw [twoWaiting_selected]
    simp
  obtain ⟨res, hres, rfl⟩ := run_ends (uniform_outs _) hids h hrun hend
  have hbad : expected (secondSucceeded (.otherError "RemoteProtocolError")
      (waitingPayment 1).id) = false := by decide +kernel
  have hgood : expected (secondSucceeded (.otherError "RemoteProtocolError")
      (waitingPayment 2).id) = true := by decide +kernel
  rw [twoWaiting_selected] at hres
  cases res with
  | ok counts =>
    exact absurd ((hres.1 _ List.mem_cons_self).symm.trans hbad) (by decide)
  | error e =>
    obtain ⟨done, payment, rest, hsplit, hfalse, hD⟩ := hres
    -- nothing was looked up before
    have hdone : done = [] := by
      cases done with
      | nil => rfl
      | cons p done =>
        obtain ⟨-, hsplit⟩ := List.cons.inj hsplit
        have hpayment : payment = waitingPayment 2 := by
          have hlast : payment ∈ [waitingPayment 2] := by simp [hsplit]
          exact List.mem_singleton.mp hlast
        rw [hpayment] at hfalse
        exact absurd (hgood.symm.trans hfalse) (by decide)
    refine ⟨tie, s₁, s', n, _, h, hrun, hend, hmem, by decide +kernel, ?_, ?_⟩
    · exact hD.payment? hids (mem_processingPayments hmem).1 (by simp [hdone])
    · exact fun ⟨counts, he, _⟩ => by cases he

end Payflow.Safety
