import Payflow.Spec.RefundLookup

/-! # Refund idempotency

The calls of `create_refund` with one Idempotency-Key make one refund, and one task of it. Every
call that is answered gets this refund, also one that asked for something else: the transaction
does not compare the request with the stored refund before it answers with it. -/

namespace Payflow.Safety

open Payflow.Lib Payflow.Model Payflow.Spec

variable {P : Platform} {call : CreateRefund} {s : State P} {g : ℕ → Turn Refund}

/-- The process was started for the call. -/
def RefundStarted (s : State P) (i : ℕ) (call : CreateRefund) : Prop :=
  ∃ st, s.procs[i]? = some ⟨.createRefund call, st⟩

/-- The call, with the merchant and the key, has been answered with status 202. -/
def RefundAnswered (s : State P) (m k : String) (call : CreateRefund) (i : ℕ)
    (a : RefundResponse) : Prop :=
  call.merchantId = m ∧ call.idempotencyKey = k ∧
    s.procs[i]? = some ⟨.createRefund call, .done (.ok (.refund a))⟩

/-- The calls with one merchant and key make one refund and send one task, and each is answered
with the same refund. -/
structure RefundOnce (s : State P) (m k : String) : Prop where
  one_row : (s.db.refunds.filter fun row =>
    (row.merchantId, row.idempotencyKey) = (m, k)).length ≤ 1
  one_message : ∀ row, s.db.refundByKey? m k = some row →
    (firstSenders (ofRefund row.id) s.world).length ≤ 1
  sender : ∀ row, s.db.refundByKey? m k = some row → ∀ i ∈ firstSenders (ofRefund row.id) s.world,
    ∃ call, RefundStarted s i call ∧ call.merchantId = m ∧ call.idempotencyKey = k
  same_row : ∀ call i a, RefundAnswered s m k call i a →
    ∃ row, s.db.refundByKey? m k = some row ∧ a.refund.id = row.id

/-- Every answer describes a refund of the payment and the amount that were asked for. -/
def Described (s : State P) (m k : String) : Prop :=
  ∀ call i a, RefundAnswered s m k call i a →
    a.refund.paymentId = call.paymentId ∧ a.refund.amountCents = call.amountCents

/-- The call asks for the payment and the amount of the refund. -/
def AsksFor (call : CreateRefund) (row : Refund) : Prop :=
  call.paymentId = row.paymentId ∧ call.amountCents = row.amountCents

instance (call : CreateRefund) (row : Refund) : Decidable (AsksFor call row) :=
  inferInstanceAs (Decidable (_ ∧ _))

/-- Where the step is the lookup of a call with the key, and there is a refund, the call asks for
its payment and its amount. -/
def keyBound (m k : String) (s : State P) : Action (Start P) Pick → Bool
  | .step i _ =>
    match s.procs[i]?, s.db.refundByKey? m k with
    | some ⟨.createRefund call, st⟩, some row =>
      !(looksUp st && call.merchantId = m && call.idempotencyKey = k) || AsksFor call row
    | _, _ => true
  | _ => true

theorem refundStarted_of_erase {i : ℕ}
    (h : (refundCreation P).Started (Machine.erase (payflow P) s) i call) :
    RefundStarted s i call := by
  obtain ⟨x, st, hp, hx⟩ := h.erase
  cases x with
  | createRefund call' =>
    obtain rfl := Option.some.inj hx
    exact ⟨st, hp⟩
  | _ => simp [refundCreation] at hx

theorem refund_of_key {D : Db} (hi : Inv D) {m k : String} {row : Refund}
    (h : D.refundByKey? m k = some row) :
    D.refund? row.id = some row ∧ row.merchantId = m ∧ row.idempotencyKey = k := by
  obtain ⟨hmem, hpair⟩ := find?_key h
  obtain ⟨hm, hk⟩ := Prod.mk.inj hpair
  exact ⟨find?_key_of_mem hi.refund_ids hmem, hm, hk⟩

theorem key_of_refund {D : Db} (hi : Inv D) {q : Uuid} {row : Refund} (h : D.refund? q = some row) :
    D.refundByKey? row.merchantId row.idempotencyKey = some row :=
  find?_key_of_mem hi.refund_keys (find?_key h).1

theorem turn_of_refundAnswered {m k : String} {i : ℕ} {a : RefundResponse}
    (hF : Machine.Followed (refundCreation P).discipline (Machine.erase (payflow P) s) g)
    (h : RefundAnswered s m k call i a) : RefundCallReturns (g i) (.refund a) := by
  obtain ⟨-, -, hp⟩ := h
  obtain ⟨x, hx, hreturns⟩ := hF _ _ _ (Machine.erase_procs hp)
  obtain rfl := Option.some.inj hx
  exact hreturns

/-- The refund that a call is answered with is an earlier version of the one with its key. -/
theorem row_of_refundAnswered {m k : String} {i : ℕ} {a : RefundResponse} (hi : Inv s.db)
    (hF : Machine.Followed (refundCreation P).discipline (Machine.erase (payflow P) s) g)
    (hmakers : (refundCreation P).Makers (Machine.erase (payflow P) s) g)
    (h : RefundAnswered s m k call i a) :
    ∃ row, s.db.refundByKey? m k = some row ∧ RefundLe a.refund row := by
  have hgot : ∃ call', (refundCreation P).Started (Machine.erase (payflow P) s) i call' ∧
      RefundMatches call' a.refund ∧
      ∃ row, s.db.refund? a.refund.id = some row ∧ RefundLe a.refund row := by
    rcases turn_of_refundAnswered hF h with ⟨hg, -⟩ | ⟨hg, -⟩
    · obtain ⟨call', hs, hstored, hrow⟩ := hmakers.winner i _ (Or.inr hg)
      exact ⟨call', hs, hstored.key, hrow⟩
    · exact hmakers.same i _ hg
  obtain ⟨call', hs, hmatch, row, hq, hle⟩ := hgot
  obtain rfl : call' = call := Option.some.inj (hs.erase.eq h.2.2).symm
  obtain ⟨hm, hk⟩ := hmatch.later hle
  have hkey := key_of_refund hi hq
  rw [hm, hk, h.1, h.2.1] at hkey
  exact ⟨row, hkey, hle⟩

/-- **The key makes one refund.** -/
theorem refundOnce_of_reachable (h : Reachable P s) (m k : String) : RefundOnce s m k := by
  have hi := inv_of_reachable h
  obtain ⟨g, hF, hmakers, hsenders⟩ := Creation.creating_of_reachable (refundCreation_lawful P)
    (refundCreation_discipline P) (fun _ => rfl) h
  refine ⟨?one_row, ?one_message, ?sender, ?same_row⟩
  case one_row => exact length_filter_key hi.refund_keys (m, k)
  case one_message => exact fun row _ => hsenders.once row.id
  case sender =>
    intro row hkey i hsend
    obtain ⟨row₁, hg, hid⟩ := hsenders.sender row.id i hsend
    obtain ⟨hq, hm, hk⟩ := refund_of_key hi hkey
    obtain ⟨call, hs, hstored, row', hq', hlater⟩ := hmakers.winner i _ (Or.inr hg)
    obtain rfl := Option.some.inj ((hid ▸ hq').symm.trans hq)
    obtain ⟨hm', hk'⟩ := (hstored.later hlater).key
    exact ⟨call, refundStarted_of_erase hs, hm'.symm.trans hm, hk'.symm.trans hk⟩
  case same_row =>
    intro call i a ha
    obtain ⟨row, hkey, hle⟩ := row_of_refundAnswered hi hF hmakers ha
    exact ⟨row, hkey, hle.id_eq.symm⟩

/-! ### What the answers describe -/

section stands

variable {i : ℕ} {pick : Pick} {m k : String} {row : Refund}
  {st : Status Write Lock Stmt Block Ext Exn Ans SRes BRes ERes}

theorem asksFor_of_keyBound (h : keyBound m k s (.step i pick) = true)
    (hp : s.procs[i]? = some ⟨.createRefund call, st⟩) (hl : looksUp st = true)
    (hm : call.merchantId = m) (hk : call.idempotencyKey = k)
    (hrow : s.db.refundByKey? m k = some row) : AsksFor call row := by
  unfold keyBound at h
  simpa [hp, hrow, hl, hm, hk] using h

theorem exists_of_not_keyBound (h : keyBound m k s (.step i pick) = false) :
    ∃ call st row, s.procs[i]? = some ⟨.createRefund call, st⟩ ∧ looksUp st = true ∧
      call.merchantId = m ∧ call.idempotencyKey = k ∧ s.db.refundByKey? m k = some row ∧
      ¬ AsksFor call row := by
  unfold keyBound at h
  simp only at h
  split at h
  · rename_i call st row hp hrow
    simp only [Bool.or_eq_false_iff, Bool.not_eq_false', Bool.and_eq_true, decide_eq_true_eq,
      decide_eq_false_iff_not] at h
    obtain ⟨⟨⟨hl, hm⟩, hk⟩, hasks⟩ := h
    exact ⟨call, st, row, hp, hl, hm, hk, hrow, hasks⟩
  · cases h

theorem newRefund_of_commit {ws : List Write} {ls : List Lock} {now : ℕ}
    (hg : Machine.Good (payflow P) rely (contract P) s)
    (hp : s.procs[i]? = some ⟨.createRefund call,
      inRefundTxn call ⟨.pure (row, false), ws, ls, now⟩⟩) :
    ∃ id c, row = newRefund now id call.paymentId call.merchantId call.idempotencyKey
      call.amountCents c := by
  have hopen := hg.status _ (List.mem_of_getElem? hp)
  obtain ⟨-, hpost, -⟩ := Machine.OpenOk.commit hopen
  rcases hpost with ⟨prow, id, c, e₁, e₂, e₃, -, -, -, -, -, -, -, -, -, hr, -⟩ | ⟨old, -, hr, -⟩
  · exact ⟨id, c, (Prod.mk.inj hr).1⟩
  · simp at hr

/-- **How far the calls have come**, in a run in which `R` holds of each refund that is found. -/
theorem stands_of_reachable {C : State P → Action (Start P) Pick → Prop}
    {R : CreateRefund → Refund → Prop}
    (hfound : ∀ {s : State P} {i pick call st row}, C s (.step i pick) →
      s.procs[i]? = some ⟨.createRefund call, st⟩ → looksUp st = true →
      s.db.refundByKey? call.merchantId call.idempotencyKey = some row → R call row)
    (hmade : ∀ now id call c, R call
      (newRefund now id call.paymentId call.merchantId call.idempotencyKey call.amountCents c))
    (h : Machine.ReachableBy (payflow P) C (init P) s) {i : ℕ} {call : CreateRefund}
    {st : Status Write Lock Stmt Block Ext Exn Ans SRes BRes ERes}
    (hp : s.procs[i]? = some ⟨.createRefund call, st⟩) : Stands call (R call) st := by
  induction h generalizing i call st with
  | refl => simp [init] at hp
  | @step s s' a h hc hs ih =>
    have hg := good_of_reachable (h.imp fun _ _ _ => trivial)
    cases Machine.step_process hs hp with
    | other hp₀ => exact ih hp₀
    | killed _ _ => exact Or.inr (Or.inl .killed)
    | started _ _ hstart => exact Or.inl (start_createRefund hstart)
    | own ha hp₀ hadv =>
      subst ha
      rcases ih hp₀ with hpending | hmissed | ⟨row, hR, hst⟩
      · obtain ⟨-, ⟨-, hpending⟩ | ⟨-, hmissed⟩ | ⟨row, hrow, hl, hst⟩⟩ :=
          pending_advance hpending hadv
        · exact Or.inl hpending
        · exact Or.inr (Or.inl hmissed)
        · exact Or.inr (Or.inr ⟨row, hfound hc hp₀ hl hrow, Or.inl hst⟩)
      · rcases missed_advance hmissed hadv with ⟨-, hmissed⟩ | ⟨row, ws, ls, now, rfl, -, rfl⟩
        · exact Or.inr (Or.inl hmissed)
        · obtain ⟨id, c, rfl⟩ := newRefund_of_commit hg hp₀
          exact Or.inr (Or.inr ⟨_, hmade now id call c, Or.inr .committed⟩)
      · refine Or.inr (Or.inr ⟨row, hR, ?_⟩)
        rcases hst with hst | hst
        · exact Or.inl (found_advance hst hadv)
        · exact Or.inr (refundMade_advance hst hadv)

/-- While the keys are bound, the answers describe the requests. -/
theorem described_of_keyBound
    (h : Machine.ReachableBy (payflow P) (fun s a => keyBound m k s a = true) (init P) s) :
    Described s m k := by
  rintro call i a ⟨hm, hk, hp⟩
  have hstands := stands_of_reachable
    (R := fun call row => call.merchantId = m → call.idempotencyKey = k → AsksFor call row)
    (fun hc hp hl hrow hm hk => asksFor_of_keyBound hc hp hl hm hk (by rw [← hm, ← hk]; exact hrow))
    (fun _ _ _ _ _ _ => ⟨rfl, rfl⟩) h hp
  obtain ⟨hpayment, hamount⟩ := hstands.answer hm hk
  exact ⟨hpayment.symm, hamount.symm⟩

/-- A lookup that finds another request's refund is answered with it. -/
theorem not_described_of_lookup {s₁ s₂ : State P} (h : Reachable P s)
    (hs : (payflow P).step s (.step i pick) = some s₁)
    (hnot : keyBound m k s (.step i pick) = false) (h' : Machine.Reachable (payflow P) s₁ s₂)
    {x : Start P} {out : Except Exn Ans} (hdone : s₂.procs[i]? = some ⟨x, .done out⟩) :
    ¬ Described s₂ m k := by
  obtain ⟨call, st, row, hp, hl, hm, hk, hrow, hasks⟩ := exists_of_not_keyBound hnot
  obtain ⟨y, st₀, st₁, hp₀, hp₁, hadv⟩ := Machine.step_own hs
  obtain ⟨rfl, rfl⟩ := Machine.Proc.mk.inj (Option.some.inj (hp.symm.trans hp₀))
  have hpending : Pending call st := pending_of_looksUp
    (stands_of_reachable (R := fun _ _ => True) (fun _ _ _ _ => trivial) (fun _ _ _ _ => trivial)
      h hp) hl
  subst hm hk
  have hfound : Found call row st₁ := by
    obtain ⟨-, ⟨hopens, -⟩ | ⟨hnone, -⟩ | ⟨row', hrow', -, hst⟩⟩ := pending_advance hpending hadv
    · rw [hl] at hopens
      cases hopens
    · simp [hrow] at hnone
    · obtain rfl := Option.some.inj (hrow.symm.trans hrow')
      exact hst
  obtain ⟨st₂, hp₂, hst₂⟩ := h'.stays found_advance .killed hp₁ hfound
  obtain ⟨rfl, rfl⟩ := Machine.Proc.mk.inj (Option.some.inj (hdone.symm.trans hp₂))
  intro hdesc
  cases hst₂ with
  | done =>
    obtain ⟨hpayment, hamount⟩ := hdesc call i _ ⟨rfl, rfl, hdone⟩
    exact hasks ⟨hpayment.symm, hamount.symm⟩

end stands

/-- **Refund idempotency.** One key makes one refund and one task. The answers describe the requests
in every run in which each lookup that finds a refund is for its payment and its amount; and a lookup
that is not is answered with the refund of another request. -/
theorem refund_idempotent (m k : String) :
    (∀ s, Reachable P s → RefundOnce s m k) ∧
    (∀ s, Machine.ReachableBy (payflow P) (fun s a => keyBound m k s a = true) (init P) s →
      Described s m k) ∧
    ∀ s s₁ s₂ (i : ℕ) pick x out, Reachable P s → (payflow P).step s (.step i pick) = some s₁ →
      keyBound m k s (.step i pick) = false → Machine.Reachable (payflow P) s₁ s₂ →
      s₂.procs[i]? = some ⟨x, .done out⟩ → ¬ Described s₂ m k :=
  ⟨fun _ h => refundOnce_of_reachable h m k, fun _ h => described_of_keyBound h,
    fun _ _ _ _ _ _ _ h hs hnot h' hdone => not_described_of_lookup h hs hnot h' hdone⟩

/-- A refund of 200 cents, and a second request with its key, up to its lookup. -/
def requestAgain (amount : ℕ) (hamount : 0 < amount) : List Act :=
  onePayment ++ createRefundScript 2 partialRefund 10 ++
    [.start (.createRefund (refundOfAmount amount hamount))] ++ quiet 3 1

/-- The second request is answered. -/
def reusedKey (amount : ℕ) (hamount : 0 < amount) : List Act :=
  requestAgain amount hamount ++ quiet 3 3

/-- How a call of `create_refund` has ended. -/
def refundOutcome (s : State P) (i : ℕ) : Option (CreateRefund × Except Exn Ans) :=
  match s.procs[i]? with
  | some ⟨.createRefund call, .done out⟩ => some (call, out)
  | _ => none

theorem procs_of_refundOutcome {i : ℕ} {out : Except Exn Ans}
    (h : refundOutcome s i = some (call, out)) :
    s.procs[i]? = some ⟨.createRefund call, .done out⟩ := by
  unfold refundOutcome at h
  split at h
  · obtain ⟨rfl, rfl⟩ := Prod.mk.inj (Option.some.inj h)
    assumption
  · simp at h

/-- The amount of the refund and the mark in an answer. -/
def answeredRefund : Except Exn Ans → Option (ℕ × Bool)
  | .ok (.refund a) => some (a.refund.amountCents, a.duplicate)
  | _ => none

theorem answer_of_answeredRefund {out : Except Exn Ans} {n : ℕ} {d : Bool}
    (h : answeredRefund out = some (n, d)) :
    ∃ a, out = .ok (.refund a) ∧ a.refund.amountCents = n ∧ a.duplicate = d := by
  unfold answeredRefund at h
  split at h
  · obtain ⟨hn, hd⟩ := Prod.mk.inj (Option.some.inj h)
    exact ⟨_, rfl, hn, hd⟩
  · simp at h

/-- The same request again is answered with the refund that is there, and a request for another
amount is answered with it as well. -/
theorem refund_idempotent_repeated : (∃ s : State examplePlatform,
    s.procs.map (·.status.live) = [false, false, false, false] ∧
      RefundOnce s "demo-merchant" "refund-key-1" ∧ Described s "demo-merchant" "refund-key-1") ∧
    ∃ s : State examplePlatform, s.procs.map (·.status.live) = [false, false, false, false] ∧
      RefundOnce s "demo-merchant" "refund-key-1" ∧ ¬ Described s "demo-merchant" "refund-key-1" := by
  obtain ⟨honce, hbound, hnot⟩ := refund_idempotent (P := examplePlatform) "demo-merchant"
    "refund-key-1"
  constructor
  · have h : (Machine.runWhen (payflow examplePlatform)
        (keyBound "demo-merchant" "refund-key-1") (init _) (reusedKey 200 (by decide))).map
        (fun s => s.procs.map (·.status.live)) = some [false, false, false, false] := by
      decide +kernel
    obtain ⟨s, hs, hlive⟩ := Option.map_eq_some_iff.mp h
    have hreach := Machine.ReachableBy.runWhen
      (C := fun s a => keyBound "demo-merchant" "refund-key-1" s a = true) (fun _ _ hc => hc)
      .refl hs
    exact ⟨s, hlive, honce s (hreach.imp fun _ _ _ => trivial), hbound s hreach⟩
  · have h : ((payflow examplePlatform).run (init _) (requestAgain 300 (by decide))).bind (fun s =>
        ((payflow examplePlatform).step s (.step 3 .nothing)).bind fun s₁ =>
          ((payflow examplePlatform).run s₁ (quiet 3 2)).map fun s₂ =>
            (keyBound "demo-merchant" "refund-key-1" s (.step 3 .nothing),
              (refundOutcome s₂ 3).isSome, s₂.procs.map (·.status.live))) =
        some (false, true, [false, false, false, false]) := by
      decide +kernel
    obtain ⟨s, hs, h⟩ := Option.bind_eq_some_iff.mp h
    obtain ⟨s₁, hs₁, h⟩ := Option.bind_eq_some_iff.mp h
    obtain ⟨s₂, hs₂, h⟩ := Option.map_eq_some_iff.mp h
    simp only [Prod.mk.injEq] at h
    obtain ⟨hunbound, hout, hlive⟩ := h
    obtain ⟨⟨call, out⟩, hout⟩ := Option.isSome_iff_exists.mp hout
    have hreach : Reachable examplePlatform s := .run hs
    have hlater : Machine.Reachable (payflow examplePlatform) s₁ s₂ := .run hs₂
    have hreach₂ : Reachable examplePlatform s₂ := (hreach.step trivial hs₁).trans hlater
    exact ⟨s₂, hlive, honce s₂ hreach₂, hnot s s₁ s₂ 3 .nothing _ out hreach hs₁ hunbound hlater
      (procs_of_refundOutcome hout)⟩

/-- A request for 300 cents with the key of the refund is answered with the refund of 200 cents. -/
theorem refund_not_described : ∃ s : State examplePlatform, Reachable examplePlatform s ∧
    ¬ Described s "demo-merchant" "refund-key-1" := by
  have h : ((payflow examplePlatform).run (init _) (reusedKey 300 (by decide))).map (fun s =>
      (refundOutcome s 3).map fun r =>
        (decide (r.1 = refundOfAmount 300 (by decide)), answeredRefund r.2)) =
      some (some (true, some (200, true))) := by decide +kernel
  obtain ⟨s, hs, h⟩ := Option.map_eq_some_iff.mp h
  obtain ⟨⟨call, out⟩, hout, h⟩ := Option.map_eq_some_iff.mp h
  obtain ⟨hcall, hans⟩ := Prod.mk.inj h
  obtain rfl := of_decide_eq_true hcall
  obtain ⟨a, rfl, hamount, -⟩ := answer_of_answeredRefund hans
  refine ⟨s, .run hs, fun hdesc => ?_⟩
  have hsame : a.refund.amountCents = 300 := (hdesc _ 3 a ⟨rfl, rfl, procs_of_refundOutcome hout⟩).2
  omega

end Payflow.Safety
