import Payflow.Model.Simulator
import Payflow.Network.Handlers

/-! # What the provider has captured covers what it refunds

`create_provider_refund` compares the amount with what the `SUCCEEDED` refunds leave, and the
refund becomes `SUCCEEDED` only after the `await`. What a payment's refunds come to in the end
is what those that have succeeded and those whose handlers sleep come to (`promised`), and the
provider does not look at the latter: two refunds with the scenario `timeout` can overlap. As
long as every refund that is accepted fits into what the promised ones leave, nothing is
refunded that was not captured. -/

namespace Payflow.Safety

open Payflow.Lib Payflow.Model Payflow.Network

variable {P : Platform} {S S' : Provider} {asleep asleep' : List String} {id p : String}

/-- The refund has succeeded, or its handler sleeps and will let it succeed. -/
def promisedRefund (asleep : List String) (p : String) (r : ProviderRefund) : Bool :=
  decide (r.providerPaymentId = p) &&
    (decide (r.status = .succeeded) || asleep.contains r.providerRefundId)

/-- What the refunds of a payment come to when the handlers that sleep have ended. -/
def promised (S : Provider) (asleep : List String) (p : String) : ℕ :=
  total (promisedRefund asleep p) (·.amountCents) S.refunds

/-- The amount of the payment's record. -/
def captured (S : Provider) (p : String) : ℕ :=
  match S.payment? p with
  | some r => r.amountCents
  | none => 0

/-- The ids of the records whose handlers sleep. -/
def asleepIds (s : Simulator) : List String := s.asleep.map (·.1)

/-- The ids of the records. -/
def usedIds (S : Provider) : List String :=
  S.payments.map (·.providerPaymentId) ++ S.refunds.map (·.providerRefundId)

/-- The refund that the request asks for, if it is accepted and its scenario lets it succeed. -/
def grant (P : Platform) (S : Provider) : Ext → Option RefundBody
  | .postRefund scenario request =>
    if request.valid && (refuseProviderRefund P S request).isNone &&
      (scenario == .success || scenario == .timeout) then some request
    else none
  | _ => none

/-- A refund that is granted fits into what the promised ones leave. -/
def fits (P : Platform) (s : Simulator) : SimulatorAction → Bool
  | .receive request _ _ =>
    match grant P s.provider request with
    | some r => decide (promised s.provider (asleepIds s) r.providerPaymentId + r.amountCents ≤
        captured s.provider r.providerPaymentId)
    | none => true
  | .wake _ => true

/-! ### The sums -/

theorem alreadyRefunded_le_promised : S.alreadyRefunded p ≤ promised S asleep p := by
  have hsum : S.alreadyRefunded p = total
      (fun r => decide (r.providerPaymentId = p ∧ r.status = .succeeded)) (·.amountCents)
      S.refunds := rfl
  rw [hsum]
  refine total_mono (fun r hr => ?_) S.refunds
  obtain ⟨hp, hst⟩ := of_decide_eq_true hr
  simp [promisedRefund, hp, hst]

/-- The refund of a handler that sleeps ends as promised, or fails. -/
theorem promised_setRefund (hid : id ∈ asleep) (st : ProviderStatus) :
    promised (S.setRefund id st) asleep p ≤ promised S asleep p := by
  have hrows : List.Forall₂ (fun r r' : ProviderRefund =>
      r' = if r.providerRefundId = id then { r with status := st } else r) S.refunds
      (S.setRefund id st).refunds :=
    List.forall₂_map_right_iff.mpr (List.forall₂_same.mpr fun _ _ => rfl)
  refine total_le_of_forall₂ (fun r r' hr hsel => ?_) hrows
  subst hr
  simp only [promisedRefund, Bool.and_eq_true, decide_eq_true_eq, Bool.or_eq_true,
    List.contains_iff_mem] at hsel ⊢
  split_ifs at hsel ⊢ with he
  · exact ⟨⟨hsel.1, Or.inr (he ▸ hid)⟩, rfl⟩
  · exact ⟨hsel, rfl⟩

theorem promised_mono (hsub : asleep' ⊆ asleep) : promised S asleep' p ≤ promised S asleep p := by
  refine total_mono (fun r hr => ?_) S.refunds
  simp only [promisedRefund, Bool.and_eq_true, Bool.or_eq_true, List.contains_iff_mem] at hr ⊢
  exact ⟨hr.1, hr.2.imp_right fun h => hsub h⟩

theorem promised_append {new : List ProviderRefund} (hS : S'.refunds = S.refunds ++ new)
    (hid : ∀ r ∈ S.refunds, r.providerRefundId ≠ id) (hsub : asleep' ⊆ asleep ++ [id]) :
    promised S' asleep' p ≤
      promised S asleep p + total (promisedRefund asleep' p) (·.amountCents) new := by
  unfold promised
  rw [hS, total_append]
  refine Nat.add_le_add_right (total_mono_of_mem fun r hr hsel => ?_) _
  simp only [promisedRefund, Bool.and_eq_true, Bool.or_eq_true, List.contains_iff_mem] at hsel ⊢
  refine ⟨hsel.1, hsel.2.imp_right fun h => ?_⟩
  rcases List.mem_append.mp (hsub h) with h | h
  · exact h
  · exact absurd (List.mem_singleton.mp h) (hid r hr)

theorem captured_setPayment (st : ProviderStatus) :
    captured (S.setPayment id st) p = captured S p := by
  have hset := find?_setWhere (p := fun r : ProviderPayment => decide (r.providerPaymentId = id))
    (q := fun r => decide (r.providerPaymentId = p)) (f := fun r => { r with status := st })
    (fun _ => rfl) S.payments
  simp only [setWhere, decide_eq_true_eq] at hset
  unfold captured Provider.payment? Provider.setPayment
  rw [hset]
  cases S.payments.find? fun r => decide (r.providerPaymentId = p) with
  | none => rfl
  | some r =>
    simp only [Option.map_some]
    split_ifs <;> rfl

theorem captured_congr (h : S'.payments = S.payments) : captured S' p = captured S p := by
  unfold captured Provider.payment?
  rw [h]

/-! ### The ids -/

theorem unused_iff_usedIds : S.unused id = true ↔ id ∉ usedIds S := by
  simp [unused_iff, Provider.payment?, Provider.refund?, usedIds]

theorem usedIds_setPayment (st : ProviderStatus) : usedIds (S.setPayment id st) = usedIds S := by
  unfold usedIds Provider.setPayment
  rw [List.map_map]
  congr 1
  refine List.map_congr_left fun r _ => ?_
  simp only [Function.comp_apply]
  split_ifs <;> rfl

theorem usedIds_setRefund (st : ProviderStatus) : usedIds (S.setRefund id st) = usedIds S := by
  unfold usedIds Provider.setRefund
  rw [List.map_map]
  congr 1
  refine List.map_congr_left fun r _ => ?_
  simp only [Function.comp_apply]
  split_ifs <;> rfl

/-! ### The handlers -/

theorem finishProviderPayment_keeps {scenario : Scenario} {paymentId : Uuid} {hd : Handler}
    (h : finishProviderPayment S id paymentId scenario = (S', hd)) :
    S'.refunds = S.refunds ∧ (∀ p, captured S' p = captured S p) ∧ usedIds S' = usedIds S := by
  cases scenario <;> obtain ⟨rfl, -⟩ := Prod.mk.inj h
  case serverError => exact ⟨rfl, fun _ => rfl, rfl⟩
  case delayedWebhook | duplicateWebhook =>
    exact ⟨rfl, fun p => (captured_congr rfl).trans (captured_setPayment .succeeded),
      usedIds_setPayment .succeeded⟩
  all_goals exact ⟨rfl, fun p => captured_setPayment _, usedIds_setPayment _⟩

theorem wakeHandler_keeps {request : Ext} {hd : Handler} (hid : id ∈ asleep)
    (hsub : asleep' ⊆ asleep) (h : wakeHandler S id request = some (S', hd)) :
    (∀ p, promised S' asleep' p ≤ promised S asleep p) ∧ (∀ p, captured S' p = captured S p) ∧
      usedIds S' = usedIds S := by
  cases request with
  | postPayment scenario request =>
    obtain ⟨hrefunds, hcap, hused⟩ := finishProviderPayment_keeps (Option.some.inj h)
    refine ⟨fun p => ?_, hcap, hused⟩
    have hmono := promised_mono (S := S) (p := p) hsub
    unfold promised at hmono ⊢
    rwa [hrefunds]
  | postRefund scenario request =>
    cases scenario <;> obtain ⟨rfl, -⟩ := Prod.mk.inj (Option.some.inj h)
    case serverError => exact ⟨fun p => promised_mono hsub, fun _ => rfl, rfl⟩
    all_goals exact ⟨fun p => (promised_mono hsub).trans (promised_setRefund hid _), fun _ => rfl,
      usedIds_setRefund _⟩
  | _ => simp [wakeHandler] at h

/-- The handlers that sleep after a request. -/
def asleepAfter (asleep : List String) : Handler → List String
  | .asleep id => asleep ++ [id]
  | .ended _ => asleep

/-- What the refunds come to when a request has been handled: more by the refund that is granted. -/
structure Received (P : Platform) (S S' : Provider) (asleep : List String) (request : Ext)
    (hd : Handler) : Prop where
  promised : ∀ p, promised S' (asleepAfter asleep hd) p ≤ promised S asleep p +
    match grant P S request with
    | some r => if r.providerPaymentId = p then r.amountCents else 0
    | none => 0
  captured : ∀ p, captured S p ≤ captured S' p
  used : usedIds S ⊆ usedIds S'
  asleep : ∀ id, hd = .asleep id → id ∈ usedIds S'

theorem Received.same {request : Ext} {r : Response} : Received P S S asleep request (.ended r) :=
  ⟨fun _ => Nat.le_add_right _ _, fun _ => Nat.le_refl _, fun _ h => h, fun _ h => by simp at h⟩

theorem createProviderPayment_received {scenario : Scenario} {request : PaymentBody} {hd : Handler}
    (hid : S.unused id = true) (h : createProviderPayment P S id scenario request = (S', hd)) :
    Received P S S' asleep (.postPayment scenario request) hd := by
  have hnew := unused_iff_usedIds.mp hid
  have hrefund : ∀ r ∈ S.refunds, r.providerRefundId ≠ id := fun r hr he =>
    hnew (List.mem_append_right _ (List.mem_map.mpr ⟨r, hr, he⟩))
  -- whatever happens to the record, the refunds stay and nothing was captured under its id before
  have hreceived : ∀ {S₁ : Provider}, S₁.refunds = S.refunds →
      (∀ p, captured S₁ p = captured { S with payments := S.payments ++ [⟨id, request.paymentId,
        request.amountCents, P.upper request.currency, .processing⟩] } p) →
      usedIds S₁ = usedIds { S with payments := S.payments ++ [⟨id, request.paymentId,
        request.amountCents, P.upper request.currency, .processing⟩] } →
      (hd = .asleep id ∨ ∃ r, hd = .ended r) →
      Received P S S₁ asleep (.postPayment scenario request) hd := by
    intro S₁ hrefunds hcap hused hhd
    have hmem : ∀ id', id' = id ∨ id' ∈ usedIds S → id' ∈ usedIds S₁ := by
      intro id' hid'
      rw [hused]
      simp only [usedIds, List.map_append, List.mem_append] at hid' ⊢
      rcases hid' with rfl | hid' | hid'
      · exact Or.inl (Or.inr (by simp))
      · exact Or.inl (Or.inl hid')
      · exact Or.inr hid'
    refine ⟨fun p => ?_, fun p => ?_, fun id' hid' => hmem id' (Or.inr hid'), fun id' he => ?_⟩
    · have hnew : S₁.refunds = S.refunds ++ [] := by simpa using hrefunds
      refine promised_append hnew hrefund ?_
      rcases hhd with rfl | ⟨r, rfl⟩
      · exact List.Subset.refl _
      · exact List.subset_append_left _ _
    · rw [hcap p]
      unfold captured Provider.payment?
      rw [List.find?_append]
      cases S.payments.find? fun r => decide (r.providerPaymentId = p) with
      | none => exact Nat.zero_le _
      | some r => exact Nat.le_refl _
    · rcases hhd with rfl | ⟨r, rfl⟩
      · exact hmem id' (Or.inl (Handler.asleep.inj he).symm)
      · simp at he
  unfold createProviderPayment at h
  split_ifs at h with hsleep
  · obtain ⟨rfl, rfl⟩ := Prod.mk.inj h
    exact hreceived rfl (fun _ => rfl) rfl (Or.inl rfl)
  · obtain ⟨hrefunds, hcap, hused⟩ := finishProviderPayment_keeps h
    refine hreceived hrefunds hcap hused (Or.inr ?_)
    cases scenario <;> exact ⟨_, (Prod.mk.inj h).2.symm⟩

theorem setRefund_append {r : ProviderRefund} (hid : ∀ r' ∈ S.refunds, r'.providerRefundId ≠ id)
    (hr : r.providerRefundId = id) (st : ProviderStatus) :
    (({ S with refunds := S.refunds ++ [r] } : Provider).setRefund id st).refunds =
      S.refunds ++ [{ r with status := st }] := by
  unfold Provider.setRefund
  have hnew : id ∉ S.refunds.map (·.providerRefundId) := by
    intro hmem
    obtain ⟨r', hr', he⟩ := List.mem_map.mp hmem
    exact hid r' hr' he
  have happend := setWhere_append (f := fun r' => { r' with status := st }) hnew hr
  unfold setWhere at happend
  simpa using happend

theorem createProviderRefund_received {scenario : RefundScenario} {request : RefundBody}
    {hd : Handler} (hv : request.valid = true) (hid : S.unused id = true)
    (hasleep : asleep ⊆ usedIds S)
    (h : createProviderRefund P S id scenario request = (S', hd)) :
    Received P S S' asleep (.postRefund scenario request) hd := by
  have hnew := unused_iff_usedIds.mp hid
  have hrefund : ∀ r ∈ S.refunds, r.providerRefundId ≠ id := fun r hr he =>
    hnew (List.mem_append_right _ (List.mem_map.mpr ⟨r, hr, he⟩))
  unfold createProviderRefund at h
  split at h
  · obtain ⟨rfl, rfl⟩ := Prod.mk.inj h
    exact .same
  rename_i hrefuse
  -- the record is added with the status its handler leaves it in
  have hreceived : ∀ {S₁ : Provider} {st : ProviderStatus}, S₁.payments = S.payments →
      S₁.refunds = S.refunds ++ [⟨id, request.refundId, request.providerPaymentId,
        request.amountCents, P.upper request.currency, st⟩] →
      (hd = .asleep id ∨ ∃ r, hd = .ended r) →
      (st = .succeeded ∨ hd = .asleep id → scenario = .success ∨ scenario = .timeout) →
      Received P S S₁ asleep (.postRefund scenario request) hd := by
    intro S₁ st hpayments hrefunds hhd hst
    have hmem : ∀ id', id' = id ∨ id' ∈ usedIds S → id' ∈ usedIds S₁ := by
      intro id' hid'
      simp only [usedIds, hpayments, hrefunds, List.map_append, List.mem_append] at hid' ⊢
      rcases hid' with rfl | hid' | hid'
      · exact Or.inr (Or.inr (by simp))
      · exact Or.inl hid'
      · exact Or.inr (Or.inl hid')
    refine ⟨fun p => ?_, fun p => Nat.le_of_eq (captured_congr hpayments).symm,
      fun id' hid' => hmem id' (Or.inr hid'), fun id' he => ?_⟩
    · have hsub : asleepAfter asleep hd ⊆ asleep ++ [id] := by
        rcases hhd with rfl | ⟨r, rfl⟩
        · exact List.Subset.refl _
        · exact List.subset_append_left _ _
      refine (promised_append hrefunds hrefund hsub).trans (Nat.add_le_add_left ?_ _)
      rw [total_cons, total_nil, Nat.add_zero]
      split_ifs with hsel
      · simp only [promisedRefund, Bool.and_eq_true, decide_eq_true_eq, Bool.or_eq_true,
          List.contains_iff_mem] at hsel
        have hscenario : scenario = .success ∨ scenario = .timeout := by
          rcases hsel.2 with hs | hs
          · exact hst (Or.inl hs)
          · rcases hhd with hhd | ⟨r, rfl⟩
            · exact hst (Or.inr hhd)
            · exact absurd (hasleep hs) hnew
        have hgrant : grant P S (.postRefund scenario request) = some request := by
          rcases hscenario with rfl | rfl <;> simp [grant, hv, hrefuse]
        rw [hgrant]
        simp [hsel.1]
      · exact Nat.zero_le _
    · rcases hhd with rfl | ⟨r, rfl⟩
      · exact hmem id' (Or.inl (Handler.asleep.inj he).symm)
      · simp at he
  simp only at h
  split_ifs at h with hsleep
  · obtain ⟨rfl, rfl⟩ := Prod.mk.inj h
    exact hreceived rfl rfl (Or.inl rfl) fun _ => Or.inr hsleep
  · cases scenario <;> obtain ⟨rfl, rfl⟩ := Prod.mk.inj h
    case serverError => exact hreceived rfl rfl (Or.inr ⟨_, rfl⟩) (by simp)
    case declined =>
      exact hreceived rfl (setRefund_append hrefund rfl _) (Or.inr ⟨_, rfl⟩) (by simp)
    case success => exact hreceived rfl (setRefund_append hrefund rfl _) (Or.inr ⟨_, rfl⟩) (by simp)
    case timeout => exact absurd rfl hsleep

theorem handle_received {request : Ext} {text : String} {hd : Handler}
    (hasleep : asleep ⊆ usedIds S) (h : handle P S id text request = some (S', hd)) :
    Received P S S' asleep request hd := by
  cases request with
  | postPayment scenario request =>
    simp only [handle] at h
    split_ifs at h with hv hid
    · obtain ⟨rfl, rfl⟩ := Prod.mk.inj (Option.some.inj h)
      exact .same
    · exact createProviderPayment_received hid (Option.some.inj h)
  | getPayment id' =>
    obtain ⟨rfl, rfl⟩ := Prod.mk.inj (Option.some.inj h)
    exact .same
  | postRefund scenario request =>
    simp only [handle] at h
    split_ifs at h with hv hid
    · obtain ⟨rfl, rfl⟩ := Prod.mk.inj (Option.some.inj h)
      exact .same
    · exact createProviderRefund_received (by simpa using hv) hid hasleep (Option.some.inj h)
  | _ => simp [handle] at h

/-! ### Runs -/

theorem simulator_step_cases {s s' : Simulator} {a : SimulatorAction}
    (h : s.step P a = some s') :
    (∃ request id text S hd, a = .receive request id text ∧
      handle P s.provider id text request = some (S, hd) ∧ s'.provider = S ∧
      asleepIds s' = asleepAfter (asleepIds s) hd) ∨
    (∃ i id request S hd, a = .wake i ∧ id ∈ asleepIds s ∧
      wakeHandler s.provider id request = some (S, hd) ∧ s'.provider = S ∧
      asleepIds s' ⊆ asleepIds s) := by
  cases a with
  | receive request id text =>
    simp only [Simulator.step] at h
    left
    split at h
    · rename_i S id' hh
      obtain rfl := Option.some.inj h
      exact ⟨request, id, text, S, _, rfl, hh, rfl, List.map_append⟩
    · rename_i S r hh
      obtain rfl := Option.some.inj h
      exact ⟨request, id, text, S, _, rfl, hh, rfl, rfl⟩
    · simp at h
  | wake i =>
    simp only [Simulator.step] at h
    right
    split at h
    · rename_i id request hi
      split at h
      · rename_i S hd hh
        obtain rfl := Option.some.inj h
        exact ⟨i, id, request, S, hd, rfl, List.mem_map_of_mem (List.mem_of_getElem? hi), hh, rfl,
          List.map_subset _ fun _ hx => List.mem_of_mem_eraseIdx hx⟩
      · simp at h
    · simp at h

/-- The invariant of the runs in which every granted refund fits. -/
structure Solvent (s : Simulator) : Prop where
  used : asleepIds s ⊆ usedIds s.provider
  le : ∀ p, promised s.provider (asleepIds s) p ≤ captured s.provider p

theorem solvent_init : Solvent .init :=
  ⟨fun _ h => by simp [asleepIds, Simulator.init] at h, fun _ => Nat.zero_le _⟩

theorem solvent_step {s s' : Simulator} {a : SimulatorAction} (hs : Solvent s)
    (hfits : fits P s a = true) (h : s.step P a = some s') : Solvent s' := by
  rcases simulator_step_cases h with ⟨request, id, text, S, hd, rfl, hh, rfl, hasleep⟩ |
    ⟨i, id, request, S, hd, rfl, hid, hh, rfl, hasleep⟩
  · obtain ⟨hpromised, hcap, hused, hnew⟩ := handle_received hs.used hh
    refine ⟨fun id' hid' => ?_, fun p => ?_⟩
    · rw [hasleep] at hid'
      cases hd with
      | asleep id =>
        rcases List.mem_append.mp hid' with hid' | hid'
        · exact hused (hs.used hid')
        · exact List.mem_singleton.mp hid' ▸ hnew id rfl
      | ended r => exact hused (hs.used hid')
    · rw [hasleep]
      refine (hpromised p).trans ?_
      refine Nat.le_trans ?_ (hcap p)
      have hle := hs.le p
      simp only [fits] at hfits
      split <;> rename_i hg <;> rw [hg] at hfits
      · rename_i r
        split_ifs with hp
        · exact hp ▸ of_decide_eq_true hfits
        · exact hle
      · exact hle
  · obtain ⟨hpromised, hcap, hused⟩ := wakeHandler_keeps hid hasleep hh
    refine ⟨fun id' hid' => hused.symm ▸ hs.used (hasleep hid'), fun p => ?_⟩
    rw [hcap p]
    exact (hpromised p).trans (hs.le p)

/-- **No over-refund.** In every run of the handlers, with any refunds at all, in which every refund
that is granted fits into what the promised ones leave, the refunds of a payment that have succeeded
never come to more than its amount. -/
theorem alreadyRefunded_le_amountCents {s : Simulator}
    (h : Reaches (Simulator.step P) (fun s a => fits P s a = true) .init s) :
    ∀ p r, s.provider.payment? p = some r → s.provider.alreadyRefunded p ≤ r.amountCents := by
  intro p r hr
  have hs : Solvent s := h.invariant solvent_init fun hi hc hs => solvent_step hi hc hs
  have hcap : captured s.provider p = r.amountCents := by
    unfold captured
    rw [hr]
  exact hcap ▸ alreadyRefunded_le_promised.trans (hs.le p)

/-! ### Examples -/

/-- A payment of 500 cents is captured. -/
def capture : SimulatorAction :=
  .receive (.postPayment .success ⟨exampleUuid 1, 500, "EUR"⟩) "payment-1" ""

/-- A refund of the payment. -/
def askRefund (n : ℕ) (scenario : RefundScenario) (amount : ℕ) (id : String) : SimulatorAction :=
  .receive (.postRefund scenario ⟨exampleUuid n, "payment-1", amount, "EUR"⟩) id ""

/-- While a refund of 200 cents sleeps, the other 300 are refunded. -/
theorem alreadyRefunded_le_amountCents_overlapping : ∃ s : Simulator,
    s.provider.alreadyRefunded "payment-1" = 500 ∧
      ∀ p r, s.provider.payment? p = some r → s.provider.alreadyRefunded p ≤ r.amountCents := by
  have h : (runSteps (Simulator.step examplePlatform) (fits examplePlatform) .init
      [capture, askRefund 2 .timeout 200 "refund-1", askRefund 3 .success 300 "refund-2",
        .wake 0]).map (fun s => s.provider.alreadyRefunded "payment-1") = some 500 := by
    decide +kernel
  obtain ⟨s, hs, h⟩ := Option.map_eq_some_iff.mp h
  exact ⟨s, h, alreadyRefunded_le_amountCents (Reaches.runSteps (fun _ _ hc => hc) .refl hs)⟩

/-- Two refunds of the whole payment with the scenario `timeout` overlap, and both succeed. -/
theorem refunded_twice : ∃ s : Simulator,
    Reaches (Simulator.step examplePlatform) (fun _ _ => True) .init s ∧
      ∃ r, s.provider.payment? "payment-1" = some r ∧ r.amountCents = 500 ∧
        s.provider.alreadyRefunded "payment-1" = 1000 := by
  have h : (runSteps (Simulator.step examplePlatform) (fun _ _ => true) .init
      [capture, askRefund 2 .timeout 500 "refund-1", askRefund 3 .timeout 500 "refund-2",
        .wake 0, .wake 0]).map (fun s => ((s.provider.payment? "payment-1").map (·.amountCents),
          s.provider.alreadyRefunded "payment-1")) = some (some 500, 1000) := by
    decide +kernel
  obtain ⟨s, hs, h⟩ := Option.map_eq_some_iff.mp h
  obtain ⟨hpayment, hsum⟩ := Prod.mk.inj h
  obtain ⟨r, hr, hamount⟩ := Option.map_eq_some_iff.mp hpayment
  exact ⟨s, Reaches.runSteps (fun _ _ _ => trivial) .refl hs, r, hr, hamount, hsum⟩

end Payflow.Safety
