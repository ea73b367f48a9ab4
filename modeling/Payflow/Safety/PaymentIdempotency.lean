import Payflow.Spec.Canonical
import Payflow.Spec.Events
import Payflow.Spec.PaymentCreation

/-! # Payment idempotency

The calls of `create_payment` with one Idempotency-Key make one payment, whatever Redis does: the
one that wins the insert sends the task and answers `duplicate=False`, and every other one that is
answered at all gets the row of the first. -/

namespace Payflow.Safety

open Payflow.Lib Payflow.Model Payflow.Spec

variable {P : Platform} {call : CreatePayment P} {s : State P} {g : ℕ → Turn Payment}

/-- The process was started for the call. -/
def PaymentStarted (s : State P) (i : ℕ) (call : CreatePayment P) : Prop :=
  ∃ st, s.procs[i]? = some ⟨.createPayment call, st⟩

theorem paymentStarted_of_erase {i : ℕ}
    (h : (paymentCreation P).Started (Machine.erase (payflow P) s) i call) :
    PaymentStarted s i call := by
  obtain ⟨x, st, hp, hx⟩ := h.erase
  cases x with
  | createPayment call' =>
    obtain rfl := Option.some.inj hx
    exact ⟨st, hp⟩
  | _ => simp [paymentCreation] at hx

/-- The call, with the merchant and the key, has been answered with a status 2xx. -/
def Answered (s : State P) (m k : String) (call : CreatePayment P) (i : ℕ) (a : PaymentResponse) :
    Prop :=
  call.merchantId = m ∧ call.idempotencyKey = k ∧
    s.procs[i]? = some ⟨.createPayment call, .done (.ok (.payment a))⟩

/-- The process is about to raise the exception out of the transaction. -/
def Raising (s : State P) (i : ℕ) (b : Block) (e : Exn) : Prop :=
  ∃ x t k, s.procs[i]? = some ⟨x, .inTxn b t k⟩ ∧ t.rest = .raise e

/-- The calls with one merchant and key behave like one call. -/
structure PaymentIdempotent (s : State P) (m k : String) : Prop where
  one_row : (s.db.payments.filter fun row =>
    (row.merchantId, row.idempotencyKey) = (m, k)).length ≤ 1
  one_event : (s.db.paymentEvents.filter fun e => e.eventType = .paymentCreated ∧
    ∃ row ∈ s.db.payments, row.id = e.paymentId ∧
      (row.merchantId, row.idempotencyKey) = (m, k)).length ≤ 1
  one_new : ∀ call call' i j a b, Answered s m k call i a → Answered s m k call' j b →
    a.duplicate = false → b.duplicate = false → i = j
  one_message : ∀ row, s.db.paymentByKey? m k = some row →
    (firstSenders (ofPayment row.id) s.world).length ≤ 1
  sender : ∀ row, s.db.paymentByKey? m k = some row →
    ∀ i ∈ firstSenders (ofPayment row.id) s.world,
      (∃ call, PaymentStarted s i call ∧ call.merchantId = m ∧ call.idempotencyKey = k) ∧
      (∀ call a, Answered s m k call i a → a.duplicate = false) ∧
      ∀ call j a, Answered s m k call j a → a.duplicate = false → j = i
  same_row : ∀ call i a, Answered s m k call i a →
    ∃ row, s.db.paymentByKey? m k = some row ∧ a.payment.id = row.id
  same_request : ∀ row, s.db.paymentByKey? m k = some row → ∃ i₀ call₀, PaymentStarted s i₀ call₀ ∧
    Stored call₀ row ∧ ∀ call i a, Answered s m k call i a →
      call.request.userId = call₀.request.userId ∧
      call.request.amountCents = call₀.request.amountCents ∧
      P.upper call.request.currency = P.upper call₀.request.currency
  not_500 : ∀ i hash u a c detail,
    ¬ Raising s i (.createIdempotentPayment m k hash u a c) (.httpException 500 detail)

/-- An exception that a transaction is about to raise is one it may raise. -/
theorem fails_of_raising (h : Reachable P s) {i : ℕ} {b : Block} {e : Exn} (hr : Raising s i b e) :
    ∃ D, Fails b D e := by
  obtain ⟨x, t, k, hp, hrest⟩ := hr
  have hopen := (good_of_reachable h).status _ (List.mem_of_getElem? hp)
  obtain ⟨D₀, -, -, -, hmeets⟩ := Machine.OpenOk.meets hopen
  rw [hrest] at hmeets
  exact ⟨D₀, hmeets⟩

theorem payment_of_key {D : Db} (hi : Inv D) {m k : String} {row : Payment}
    (h : D.paymentByKey? m k = some row) :
    D.payment? row.id = some row ∧ row.merchantId = m ∧ row.idempotencyKey = k := by
  obtain ⟨hmem, hpair⟩ := find?_key h
  obtain ⟨hm, hk⟩ := Prod.mk.inj hpair
  exact ⟨find?_key_of_mem hi.payment_ids hmem, hm, hk⟩

theorem key_of_payment {D : Db} (hi : Inv D) {p : Uuid} {row : Payment}
    (h : D.payment? p = some row) :
    D.paymentByKey? row.merchantId row.idempotencyKey = some row :=
  find?_key_of_mem hi.payment_keys (find?_key h).1

theorem turn_of_answered {m k : String} {i : ℕ} {a : PaymentResponse}
    (hF : Machine.Followed (paymentCreation P).discipline (Machine.erase (payflow P) s) g)
    (h : Answered s m k call i a) : CallReturns (g i) (.payment a) := by
  obtain ⟨-, -, hp⟩ := h
  obtain ⟨x, hx, hreturns⟩ := hF _ _ _ (Machine.erase_procs hp)
  obtain rfl := Option.some.inj hx
  exact hreturns

/-- **Payment idempotency.** In every state that is reached, whatever Redis does. -/
theorem payment_idempotent (hsha : Function.Injective P.sha256Hex) (h : Reachable P s)
    (m k : String) : PaymentIdempotent s m k := by
  have hi := inv_of_reachable h
  obtain ⟨g, hF, hmakers, hsenders⟩ := Creation.creating_of_reachable (paymentCreation_lawful P)
    (paymentCreation_discipline P) (fun _ => rfl) h
  have hcreated : ∀ p, CreatedOnce s.db p := fun p =>
    db_invariant (I := fun D => CreatedOnce D p) (by simp [CreatedOnce, Db.empty])
      (fun hi hreq h _ hp => createdOnce_step hi hreq h hp) (reachableWhen_true h)
  -- the payment that a call has been answered with is the one with its key
  have hrow : ∀ {call i a}, Answered s m k call i a → ∃ row, s.db.paymentByKey? m k = some row ∧
      a.payment.id = row.id ∧ row.requestHash = callHash call := by
    intro call i a ha
    have hstarted : ∀ call', (paymentCreation P).Started (Machine.erase (payflow P) s) i call' →
        call' = call :=
      fun call' hs => (Option.some.inj (hs.erase.eq ha.2.2)).symm
    rcases turn_of_answered hF ha with ⟨hg, -⟩ | ⟨hg, -⟩
    · obtain ⟨call', hs, hstored, row, hp, hlater⟩ := hmakers.winner i _ (Or.inr hg)
      obtain rfl := hstarted call' hs
      have hkey := key_of_payment hi hp
      have hst := hstored.later hlater
      rw [hst.merchantId, hst.idempotencyKey, ha.1, ha.2.1] at hkey
      exact ⟨row, hkey, (payment_id hp).symm, hst.requestHash⟩
    · obtain ⟨call', hs, hmatch, row, hp, hlater⟩ := hmakers.same i _ hg
      obtain rfl := hstarted call' hs
      obtain ⟨hm, hk, hhash⟩ := Matches.later hmatch hlater
      have hkey := key_of_payment hi hp
      rw [hm, hk, ha.1, ha.2.1] at hkey
      exact ⟨row, hkey, (payment_id hp).symm, hhash⟩
  have hnew : ∀ {call i a}, Answered s m k call i a → a.duplicate = false →
      g i = .sent a.payment := by
    intro call i a ha hdup
    rcases turn_of_answered hF ha with ⟨hg, -⟩ | ⟨-, hdup'⟩
    · exact hg
    · simp [hdup] at hdup'
  refine ⟨?one_row, ?one_event, ?one_new, ?one_message, ?sender, ?same_row, ?same_request, ?not_500⟩
  case one_row => exact length_filter_key hi.payment_keys (m, k)
  case one_event =>
    cases hkey : s.db.paymentByKey? m k with
    | none =>
      rw [List.filter_eq_nil_iff.mpr]
      · exact Nat.zero_le 1
      · intro e _ he
        obtain ⟨-, row, hmem, -, hpair⟩ := of_decide_eq_true he
        have hnone := List.find?_eq_none.mp hkey row hmem
        exact hnone (decide_eq_true hpair)
    | some row =>
      have hone := (hcreated row.id).1
      rw [List.countP_eq_length_filter] at hone
      refine Nat.le_trans (List.Sublist.length_le (List.monotone_filter_right _ fun e he => ?_)) hone
      obtain ⟨htype, row', hmem, hid, hpair⟩ := of_decide_eq_true he
      have hrow' : s.db.paymentByKey? m k = some row' := by
        have := find?_key_of_mem hi.payment_keys hmem
        rwa [hpair] at this
      obtain rfl := Option.some.inj (hkey.symm.trans hrow')
      exact decide_eq_true ⟨htype, hid.symm⟩
  case one_new =>
    intro call call' i j a b ha hb hda hdb
    obtain ⟨row, hkey, hid, -⟩ := hrow ha
    obtain ⟨row', hkey', hid', -⟩ := hrow hb
    obtain rfl := Option.some.inj (hkey.symm.trans hkey')
    exact hmakers.unique i j a.payment b.payment (Or.inr (hnew ha hda)) (Or.inr (hnew hb hdb))
      (hid.trans hid'.symm)
  case one_message => exact fun row _ => hsenders.once row.id
  case sender =>
    intro row hkey i hsend
    obtain ⟨row₁, hg, hrow₁⟩ := hsenders.sender row.id i hsend
    obtain ⟨hp, hm, hk⟩ := payment_of_key hi hkey
    refine ⟨?_, ?_, ?_⟩
    · obtain ⟨call, hs, hstored, row', hp', hlater⟩ := hmakers.winner i _ (Or.inr hg)
      obtain rfl := Option.some.inj ((hrow₁ ▸ hp').symm.trans hp)
      have hst := hstored.later hlater
      exact ⟨call, paymentStarted_of_erase hs, hst.merchantId.symm.trans hm,
        hst.idempotencyKey.symm.trans hk⟩
    · intro call a ha
      rcases turn_of_answered hF ha with ⟨-, hdup⟩ | ⟨hg', -⟩
      · exact hdup
      · simp [hg] at hg'
    · intro call j a ha hdup
      obtain ⟨row', hkey', hid, -⟩ := hrow ha
      obtain rfl := Option.some.inj (hkey.symm.trans hkey')
      exact hmakers.unique j i a.payment row₁ (Or.inr (hnew ha hdup)) (Or.inr hg)
        (hid.trans hrow₁.symm)
  case same_row =>
    intro call i a ha
    obtain ⟨row, hkey, hid, -⟩ := hrow ha
    exact ⟨row, hkey, hid⟩
  case same_request =>
    intro row hkey
    obtain ⟨hp, -, -⟩ := payment_of_key hi hkey
    obtain ⟨i₀, call₀, -, hs, hstored, -, -⟩ := hmakers.creator row.id row hp
    refine ⟨i₀, call₀, paymentStarted_of_erase hs, hstored, fun call i a ha => ?_⟩
    obtain ⟨row', hkey', -, hhash⟩ := hrow ha
    obtain rfl := Option.some.inj (hkey.symm.trans hkey')
    exact generateRequestHash_inj hsha (hhash.symm.trans hstored.requestHash)
  case not_500 =>
    intro i hash u a c detail hr
    obtain ⟨D, hfail⟩ := fails_of_raising h hr
    rcases hfail with hdb | ⟨he, -⟩
    · simp [isDatabaseError] at hdb
    · simp [keyReused] at he

theorem examplePlatform_injective : Function.Injective examplePlatform.sha256Hex := by
  have hne : exampleCanonical ≠ exampleHash := by decide +kernel
  intro a b h
  simp only [examplePlatform] at h
  split_ifs at h <;> simp_all

/-- A request, and the same request again while Redis is down. -/
def repeatedPayment : List Act :=
  createPaymentScript 0 1 ++ [.start (.createPayment examplePayment)] ++ draw 1 [4] ++
    [.step 1 (.redis none)] ++ quiet 1 1 ++ draw 1 [5] ++ quiet 1 3 ++ [.step 1 (.redis none)] ++
    quiet 1 1

/-- The two requests have made one payment. -/
theorem payment_idempotent_repeated : ∃ s : State examplePlatform,
    (s.procs.map (·.status.live) = [false, false] ∧ s.db.payments.length = 1) ∧
      PaymentIdempotent s "demo-merchant" "payment-key-1" := by
  have h : ((payflow examplePlatform).run (init _) repeatedPayment).map (fun s =>
      (s.procs.map (·.status.live), s.db.payments.length)) = some ([false, false], 1) := by
    decide +kernel
  obtain ⟨s, hs, h⟩ := Option.map_eq_some_iff.mp h
  exact ⟨s, Prod.mk.inj h, payment_idempotent examplePlatform_injective (.run hs) _ _⟩

end Payflow.Safety
