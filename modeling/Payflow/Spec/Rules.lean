import Payflow.Spec.Contract

/-! # Rules for the statements

One rule for each statement, for a transaction that carries a fact `K` which the others cannot
break. The rules for rows and keys say what the locks then protect; the `stable_` lemmas are the
facts that may be carried. -/

namespace Payflow.Spec

open Payflow.Lib Payflow.Model

/-! ### Facts that others cannot break -/

section stable

variable {ls : List Lock}

theorem stable_true : rely.Stable ls fun _ => True := fun _ _ _ _ => trivial

theorem stable_payment {p : Uuid} {row : Option Payment} (h : .payment p ∈ ls) :
    rely.Stable ls fun D => D.payment? p = row :=
  fun _ _ hm hD => (hm.same _ h).1.symm.trans hD

theorem stable_refund {r : Uuid} {row : Option Refund} (h : .refund r ∈ ls) :
    rely.Stable ls fun D => D.refund? r = row :=
  fun _ _ hm hD => Eq.trans (hm.same _ h).symm hD

theorem stable_no_paymentKey {m k : String} (h : .paymentKey m k ∈ ls) :
    rely.Stable ls fun D => (D.paymentByKey? m k).isSome = false :=
  fun _ _ hm hD => Eq.trans (hm.same _ h).symm hD

theorem stable_no_refundKey {m k : String} (h : .refundKey m k ∈ ls) :
    rely.Stable ls fun D => (D.refundByKey? m k).isSome = false :=
  fun _ _ hm hD => Eq.trans (hm.same _ h).symm hD

theorem stable_no_webhook {e : String} (h : .webhookKey e ∈ ls) :
    rely.Stable ls fun D => (D.webhookEvents.any fun w => w.providerEventId = e) = false :=
  fun _ _ hm hD => Eq.trans (hm.same _ h).symm hD

theorem stable_once {p : Db → Prop} : rely.Stable ls fun D => Once D p :=
  fun _ _ hm ⟨D₀, h₀, hle, hp⟩ => ⟨D₀, h₀, hle.trans hm.le, hp⟩

theorem stable_paymentByKey {m k : String} :
    rely.Stable ls fun D => (D.paymentByKey? m k).isSome = true := fun _ _ hm hD => by
  obtain ⟨row, hrow⟩ := Option.isSome_iff_exists.mp hD
  obtain ⟨row', hrow', -⟩ := hm.le.paymentByKey hrow
  simp [hrow']

/-- The payment of a refund is one of the columns that are set once. -/
theorem stable_refund_payment {r p : Uuid} :
    rely.Stable ls fun D => ∃ row, D.refund? r = some row ∧ row.paymentId = p :=
  fun _ _ hm ⟨_, hrow, hp⟩ => by
    obtain ⟨_, hrow', cols, rfl, -⟩ := hm.le.refund hrow
    exact ⟨_, hrow', hp⟩

/-- The selection that `create_refund` sums up. -/
def reserved (p : Uuid) (r : Refund) : Bool := r.paymentId = p && reservedStatuses.contains r.status

theorem reserved_refundLe {p : Uuid} {a b : Refund} (h : RefundLe a b) (hb : reserved p b = true) :
    reserved p a = true ∧ b.amountCents = a.amountCents := by
  obtain ⟨cols, rfl, hle⟩ := h
  unfold reserved at *
  simp only [Bool.and_eq_true] at hb ⊢
  refine ⟨⟨hb.1, ?_⟩, trivial⟩
  rcases hle with h | h | ⟨h, -⟩
  · exact h ▸ hb.2
  · rw [h]; rfl
  · rw [h]; rfl

/-- Under the lock on the payment its refunds can only leave the reserved statuses. -/
theorem reserved_le {D D' : Db} {p : Uuid} (h : .payment p ∈ ls) (hm : rely.Moves ls D D') :
    D'.refundTotal reservedStatuses p ≤ D.refundTotal reservedStatuses p := by
  have hsel : ∀ r : Refund, reserved p r = true → decide (r.paymentId = p) = true :=
    fun r hr => (Bool.and_eq_true_iff.mp hr).1
  have hg := hm.le.refundsOf p
  have hlen : (D.refundsOf p).length = (D'.refundsOf p).length := by
    simpa using congrArg List.length (hm.same _ h).2
  show total (reserved p) _ _ ≤ total (reserved p) _ _
  rw [← total_filter hsel D.refunds, ← total_filter hsel D'.refunds]
  exact total_le_of_forall₂ (fun a b h => reserved_refundLe h) (hg.forall₂ hlen)

theorem stable_reserved {p : Uuid} {n : ℕ} (h : .payment p ∈ ls) :
    rely.Stable ls fun D => D.refundTotal reservedStatuses p ≤ n :=
  fun _ _ hm hD => Nat.le_trans (reserved_le h hm) hD

theorem Grown.succeeded_total {D D' : Db} (h : Grown D D') (p : Uuid) :
    D.refundTotal [.succeeded] p ≤ D'.refundTotal [.succeeded] p := by
  refine h.refunds.total_le fun a b hab ha => ?_
  obtain ⟨cols, rfl, hle⟩ := hab
  simp only [Bool.and_eq_true, decide_eq_true_eq, List.contains_iff_mem, List.mem_singleton] at ha ⊢
  refine ⟨⟨ha.1, ?_⟩, trivial⟩
  rcases hle with h | h | ⟨h, -⟩
  · exact h ▸ ha.2
  · simp [ha.2] at h
  · simp [ha.2] at h

theorem stable_succeeded {p : Uuid} {n : ℕ} :
    rely.Stable ls fun D => n ≤ D.refundTotal [.succeeded] p :=
  fun _ _ hm hD => Nat.le_trans hD (hm.le.succeeded_total p)

end stable

/-! ### The rules -/

section rules

variable {α : Type} {Q : ℕ → Db → List Write → α → Prop} {E : Db → Exn → Prop} {now : ℕ}
  {ws : List Write} {ls : List Lock} {D : Db} {K : Db → Prop}

theorem meets_read {s : Stmt} {f : Env Pick → Db → SRes s}
    (hx : ∀ v D, stmtExec v D s = some (f v D, [])) (hl : ∀ v D, stmtLocks v D s = [])
    (hst : rely.Stable ls K) (hK : K D) {k : SRes s → Tx α}
    (h : ∀ D', Inv D' → K D' → ∀ v : Env Pick, v.now = now →
      Meets store rely Q E now (k (f v (store.applyAll D' ws))) ws ls D') :
    Meets store rely Q E now (.op s k) ws ls D := by
  refine Meets.op hst hK fun D' hi hK' v hv r ws' he => ?_
  have he' : stmtExec v (store.applyAll D' ws) s = some (r, ws') := he
  rw [hx] at he'
  obtain ⟨rfl, rfl⟩ := Prod.mk.inj (Option.some.inj he')
  simpa [store, hl] using h D' hi hK' v hv

theorem meets_selectPaymentByKey (hst : rely.Stable ls K) (hK : K D) {m key : String}
    {k : Option Payment → Tx α}
    (h : ∀ D', Inv D' → K D' →
      Meets store rely Q E now (k ((store.applyAll D' ws).paymentByKey? m key)) ws ls D') :
    Meets store rely Q E now ((selectPaymentByKey m key).bind k) ws ls D :=
  meets_read (s := .selectPaymentByKey m key) (f := fun _ D =>
    D.paymentByKey? m key) (fun _ _ => rfl)
    (fun _ _ => rfl) hst hK
    fun D' hi hK' _ _ => h D' hi hK'

theorem meets_selectRefund (hst : rely.Stable ls K) (hK : K D) {r : Uuid}
    {k : Option Refund → Tx α}
    (h : ∀ D', Inv D' → K D' →
      Meets store rely Q E now (k ((store.applyAll D' ws).refund? r)) ws ls D') :
    Meets store rely Q E now ((selectRefund r).bind k) ws ls D :=
  meets_read (s := .selectRefund r) (f := fun _ D => D.refund? r) (fun _ _ => rfl)
    (fun _ _ => rfl) hst hK
    fun D' hi hK' _ _ => h D' hi hK'

theorem meets_selectRefundByKey (hst : rely.Stable ls K) (hK : K D) {m key : String}
    {k : Option Refund → Tx α}
    (h : ∀ D', Inv D' → K D' →
      Meets store rely Q E now (k ((store.applyAll D' ws).refundByKey? m key)) ws ls D') :
    Meets store rely Q E now ((selectRefundByKey m key).bind k) ws ls D :=
  meets_read (s := .selectRefundByKey m key) (f := fun _ D => D.refundByKey? m key) (fun _ _ => rfl)
    (fun _ _ => rfl) hst hK
    fun D' hi hK' _ _ => h D' hi hK'

theorem meets_sumRefunds (hst : rely.Stable ls K) (hK : K D) {p : Uuid}
    {statuses : List RefundStatus} {k : ℕ → Tx α}
    (h : ∀ D', Inv D' → K D' →
      Meets store rely Q E now (k ((store.applyAll D' ws).refundTotal statuses p)) ws ls D') :
    Meets store rely Q E now ((sumRefunds p statuses).bind k) ws ls D :=
  meets_read (s := .sumRefunds p statuses) (f := fun _ D =>
    D.refundTotal statuses p) (fun _ _ => rfl)
    (fun _ _ => rfl) hst hK
    fun D' hi hK' _ _ => h D' hi hK'

theorem meets_selectPaymentForUpdate (hst : rely.Stable ls K) (hK : K D) {p : Uuid}
    {k : Option Payment → Tx α}
    (hnone : ∀ D', Inv D' → K D' → (store.applyAll D' ws).payment? p = none →
      Meets store rely Q E now (k none) ws ls D')
    (hsome : ∀ D' row, Inv D' → K D' → (store.applyAll D' ws).payment? p = some row →
      Meets store rely Q E now (k (some row)) ws (ls ++ [.payment p]) D') :
    Meets store rely Q E now ((selectPaymentForUpdate p).bind k) ws ls D := by
  refine Meets.op hst hK fun D' hi hK' v hv r ws' he => ?_
  obtain ⟨rfl, rfl⟩ := Prod.mk.inj (Option.some.inj he)
  rw [List.append_nil]
  show Meets store rely Q E now (k ((store.applyAll D' ws).payment? p)) ws
    (ls ++ ((store.applyAll D' ws).payment? p).toList.map fun p => .payment p.id) D'
  cases hp : (store.applyAll D' ws).payment? p with
  | none => simpa using hnone D' hi hK' hp
  | some row =>
    have hid : row.id = p := (find?_key hp).2
    simpa [hid] using hsome D' row hi hK' hp

/-- A payment of the merchant that is read `FOR UPDATE` stays as it was read. -/
theorem meets_selectMerchantPaymentForUpdate (hst : rely.Stable ls K) (hK : K D) {p : Uuid}
    {m : String} {k : Option Payment → Tx α}
    (hnone : ∀ D', Inv D' → K D' → Meets store rely Q E now (k none) ws ls D')
    (hsome : ∀ D' row, Inv D' → K D' → (store.applyAll D' ws).payment? p = some row →
      row.merchantId = m → Meets store rely Q E now (k (some row)) ws (ls ++ [.payment p]) D') :
    Meets store rely Q E now ((selectMerchantPaymentForUpdate p m).bind k) ws ls D := by
  refine Meets.op hst hK fun D' hi hK' v hv r ws' he => ?_
  obtain ⟨rfl, rfl⟩ := Prod.mk.inj (Option.some.inj he)
  rw [List.append_nil]
  show Meets store rely Q E now
    (k (((store.applyAll D' ws).payment? p).filter fun p => p.merchantId = m)) ws
    (ls ++ (((store.applyAll D' ws).payment? p).filter fun p => p.merchantId = m).toList.map
      fun p => .payment p.id) D'
  cases hp : ((store.applyAll D' ws).payment? p).filter fun p => p.merchantId = m with
  | none => simpa using hnone D' hi hK'
  | some row =>
    obtain ⟨hp, hm⟩ := Option.filter_eq_some_iff.mp hp
    have hid : row.id = p := (find?_key hp).2
    simpa [hid] using hsome D' row hi hK' hp (by simpa using hm)

theorem meets_selectRefundForUpdate (hst : rely.Stable ls K) (hK : K D) {r : Uuid}
    {k : Option Refund → Tx α}
    (hnone : ∀ D', Inv D' → K D' → (store.applyAll D' ws).refund? r = none →
      Meets store rely Q E now (k none) ws ls D')
    (hsome : ∀ D' row, Inv D' → K D' → (store.applyAll D' ws).refund? r = some row →
      Meets store rely Q E now (k (some row)) ws (ls ++ [.refund r]) D') :
    Meets store rely Q E now ((selectRefundForUpdate r).bind k) ws ls D := by
  refine Meets.op hst hK fun D' hi hK' v hv x ws' he => ?_
  obtain ⟨rfl, rfl⟩ := Prod.mk.inj (Option.some.inj he)
  rw [List.append_nil]
  show Meets store rely Q E now (k ((store.applyAll D' ws).refund? r)) ws
    (ls ++ ((store.applyAll D' ws).refund? r).toList.map fun r => .refund r.id) D'
  cases hr : (store.applyAll D' ws).refund? r with
  | none => simpa using hnone D' hi hK' hr
  | some row =>
    have hid : row.id = r := (find?_key hr).2
    simpa [hid] using hsome D' row hi hK' hr

theorem meets_uuid4 (hst : rely.Stable ls K) (hK : K D) {k : Uuid → Tx α}
    (h : ∀ D' id, Inv D' → K D' → Meets store rely Q E now (k id) ws ls D') :
    Meets store rely Q E now (uuid4.bind k) ws ls D := by
  refine Meets.op hst hK fun D' hi hK' v hv r ws' he => ?_
  obtain ⟨id, -, hx⟩ := Option.map_eq_some_iff.mp he
  obtain ⟨rfl, rfl⟩ := Prod.mk.inj hx
  rw [List.append_nil]
  exact (h D' id hi hK').mono (List.subset_append_left _ _)

/-! ### Writing -/

theorem meets_updatePayment (hst : rely.Stable ls K) (hK : K D) {p : Uuid}
    {set : ℕ → PaymentCols → PaymentCols} {row : Payment} {k : Unit → Tx α}
    (hrow : ∀ D', K D' → (store.applyAll D' ws).payment? p = some row)
    (h : ∀ D', Inv D' → K D' → Meets store rely Q E now (k ())
      (ws ++ [.updatePayment p (set now row.toPaymentCols)]) ls D') :
    Meets store rely Q E now ((updatePayment p set).bind k) ws ls D := by
  refine Meets.op hst hK fun D' hi hK' v hv r ws' he => ?_
  have he' : stmtExec v (store.applyAll D' ws) (.updatePayment p (fun _ => true) set) =
    some (r, ws') := he
  simp only [stmtExec, hrow D' hK', Option.filter_some, if_true] at he'
  obtain ⟨rfl, rfl⟩ := Prod.mk.inj (Option.some.inj he')
  rw [hv]
  exact (h D' hi hK').mono (List.subset_append_left _ _)

theorem meets_updatePaymentIf (hst : rely.Stable ls K) (hK : K D) {p : Uuid} {st : PaymentStatus}
    {set : ℕ → PaymentCols → PaymentCols} {k : Unit → Tx α}
    (hnone : ∀ D', Inv D' → K D' →
      (∀ row, (store.applyAll D' ws).payment? p = some row → row.status ≠ st) →
      Meets store rely Q E now (k ()) ws ls D')
    (hsome : ∀ D' row, Inv D' → K D' → (store.applyAll D' ws).payment? p = some row →
      row.status = st → Meets store rely Q E now (k ())
        (ws ++ [.updatePayment p (set now row.toPaymentCols)]) (ls ++ [.payment p]) D') :
    Meets store rely Q E now ((updatePaymentIf p st set).bind k) ws ls D := by
  refine Meets.op hst hK fun D' hi hK' v hv r ws' he => ?_
  have he' : stmtExec v (store.applyAll D' ws) (.updatePayment p (· = st) set) =
    some (r, ws') := he
  simp only [stmtExec] at he'
  show Meets store rely Q E now (k r) (ws ++ ws') (ls ++
    (((store.applyAll D' ws).payment? p).filter fun p => p.status = st).toList.map
      fun p => .payment p.id) D'
  split at he' <;> rename_i hp <;> obtain ⟨rfl, rfl⟩ := Prod.mk.inj (Option.some.inj he')
  · rename_i row
    obtain ⟨hp', hs⟩ := Option.filter_eq_some_iff.mp hp
    have hid : row.id = p := (find?_key hp').2
    rw [hp, hv]
    simpa [hid] using hsome D' row hi hK' hp' (by simpa using hs)
  · rw [hp]
    simp only [Option.filter_eq_none_iff] at hp
    simpa using hnone D' hi hK' fun row hrow hs => by simpa [hs] using hp row hrow

/-- A payment is inserted, unless the insert fails or the key is taken. -/
theorem meets_insertPayment (hst : rely.Stable ls K) (hK : K D) {id : Uuid}
    {m key hash user : String} {amount : ℕ} {currency : String} {k : Option Payment → Tx α}
    (herror : ∀ D' e, isDatabaseError e = true → E D' e)
    (hnone : ∀ D', Inv D' → K D' → ((store.applyAll D' ws).paymentByKey? m key).isSome = true →
      Meets store rely Q E now (k none) ws ls D')
    (hsome : ∀ D' c, Inv D' → K D' → ((store.applyAll D' ws).paymentByKey? m key).isSome = false →
      (store.applyAll D' ws).payment? id = none → 0 < amount → varchar 3 currency = .ok c →
      Meets store rely Q E now (k (some (newPayment now id m key hash user amount c)))
        (ws ++ [.insertPayment (newPayment now id m key hash user amount c)])
        (ls ++ [.paymentKey m key, .newId id, .payment id]) D') :
    Meets store rely Q E now ((insertPayment id m key hash user amount currency).bind k) ws ls D := by
  refine Meets.op hst hK fun D' hi hK' v hv r ws' he => ?_
  rcases execInsertPayment_cases (Option.some.inj he) with
    ⟨e, rfl, rfl, hdb⟩ | ⟨hkey, rfl, rfl⟩ | ⟨hkey, hid, ha, c, hc, rfl, rfl⟩
  · exact herror D' e hdb
  · rw [List.append_nil]
    exact (hnone D' hi hK' hkey).mono (List.subset_append_left _ _)
  · rw [hv]
    show Meets store rely Q E now _ _ (ls ++ if ((store.applyAll D' ws).paymentByKey? m key).isSome
      then [] else [.paymentKey m key, .newId id, .payment id]) D'
    rw [hkey]
    exact hsome D' c hi hK' (by simp [hkey]) hid ha hc

theorem meets_insertRefund (hst : rely.Stable ls K) (hK : K D) {id p : Uuid} {m key : String}
    {amount : ℕ} {currency : String} {k : Refund → Tx α}
    (herror : ∀ D' e, isDatabaseError e = true → E D' e)
    (hsome : ∀ D' c, Inv D' → K D' → ((store.applyAll D' ws).refundByKey? m key).isSome = false →
      (store.applyAll D' ws).refund? id = none → 0 < amount → varchar 3 currency = .ok c →
      Meets store rely Q E now (k (newRefund now id p m key amount c))
        (ws ++ [.insertRefund (newRefund now id p m key amount c)])
        (ls ++ [.refundKey m key, .newId id, .refund id, .payment p]) D') :
    Meets store rely Q E now ((insertRefund id p m key amount currency).bind k) ws ls D := by
  refine Meets.op hst hK fun D' hi hK' v hv r ws' he => ?_
  rcases execInsertRefund_cases (Option.some.inj he) with
    ⟨e, rfl, rfl, hdb, -⟩ | ⟨hkey, hid, ha, c, hc, rfl, rfl⟩
  · exact herror D' e hdb
  · rw [hv]
    show Meets store rely Q E now _ _ (ls ++ if ((store.applyAll D' ws).refundByKey? m key).isSome
      then [] else [.refundKey m key, .newId id, .refund id, .payment p]) D'
    rw [hkey]
    exact hsome D' c hi hK' (by simp [hkey]) hid ha hc

theorem meets_updateRefund (hst : rely.Stable ls K) (hK : K D) {q : Uuid}
    {set : ℕ → RefundCols → RefundCols} {row : Refund} {k : Option Refund → Tx α}
    (hrow : ∀ D', K D' → (store.applyAll D' ws).refund? q = some row)
    (h : ∀ D', Inv D' → K D' → Meets store rely Q E now
      (k (some { row with toRefundCols := set now row.toRefundCols }))
      (ws ++ [.updateRefund q (set now row.toRefundCols)]) ls D') :
    Meets store rely Q E now ((updateRefund q set).bind k) ws ls D := by
  refine Meets.op hst hK fun D' hi hK' v hv r ws' he => ?_
  have he' : stmtExec v (store.applyAll D' ws) (.updateRefund q (fun _ => true) set) =
    some (r, ws') := he
  simp only [stmtExec, hrow D' hK', Option.filter_some, if_true] at he'
  obtain ⟨rfl, rfl⟩ := Prod.mk.inj (Option.some.inj he')
  rw [hv]
  exact (h D' hi hK').mono (List.subset_append_left _ _)

theorem meets_updateRefundIf (hst : rely.Stable ls K) (hK : K D) {q : Uuid} {st : RefundStatus}
    {set : ℕ → RefundCols → RefundCols} {k : Option Refund → Tx α}
    (hnone : ∀ D', Inv D' → K D' → Meets store rely Q E now (k none) ws ls D')
    (hsome : ∀ D' row, Inv D' → K D' → (store.applyAll D' ws).refund? q = some row →
      row.status = st → Meets store rely Q E now
        (k (some { row with toRefundCols := set now row.toRefundCols }))
        (ws ++ [.updateRefund q (set now row.toRefundCols)]) (ls ++ [.refund q]) D') :
    Meets store rely Q E now ((updateRefundIf q st set).bind k) ws ls D := by
  refine Meets.op hst hK fun D' hi hK' v hv r ws' he => ?_
  have he' : stmtExec v (store.applyAll D' ws) (.updateRefund q (· = st) set) =
    some (r, ws') := he
  simp only [stmtExec] at he'
  show Meets store rely Q E now (k r) (ws ++ ws') (ls ++
    (((store.applyAll D' ws).refund? q).filter fun r => r.status = st).toList.map
      fun r => .refund r.id) D'
  split at he' <;> rename_i hr <;> obtain ⟨rfl, rfl⟩ := Prod.mk.inj (Option.some.inj he')
  · rename_i row
    obtain ⟨hr', hs⟩ := Option.filter_eq_some_iff.mp hr
    have hid : row.id = q := (find?_key hr').2
    rw [hr, hv]
    simpa [hid] using hsome D' row hi hK' hr' (by simpa using hs)
  · rw [hr]
    simpa using hnone D' hi hK'

/-- A webhook event is inserted, unless its provider's id is taken. -/
theorem meets_insertWebhookEvent (hst : rely.Stable ls K) (hK : K D) {e type : String}
    {payload : Json} {k : Option Uuid → Tx α}
    (hnone : ∀ D', Inv D' → K D' → Meets store rely Q E now (k none) ws ls D')
    (hsome : ∀ D' id, Inv D' → K D' →
      ((store.applyAll D' ws).webhookEvents.any fun w => w.providerEventId = e) = false →
      Meets store rely Q E now (k (some id))
        (ws ++ [.insertWebhookEvent ⟨id, e, type, payload, now⟩]) (ls ++ [.webhookKey e]) D') :
    Meets store rely Q E now ((insertWebhookEvent e type payload).bind k) ws ls D := by
  refine Meets.op hst hK fun D' hi hK' v hv r ws' he => ?_
  have he' : stmtExec v (store.applyAll D' ws) (.insertWebhookEvent e type payload) =
    some (r, ws') := he
  simp only [stmtExec] at he'
  split_ifs at he' with hany
  · obtain ⟨rfl, rfl⟩ := Prod.mk.inj (Option.some.inj he')
    rw [List.append_nil]
    exact (hnone D' hi hK').mono (List.subset_append_left _ _)
  · obtain ⟨id, hid, hx⟩ := Option.map_eq_some_iff.mp he'
    obtain ⟨rfl, rfl⟩ := Prod.mk.inj hx
    rw [hv]
    refine (hsome D' id hi hK' (by simpa using hany)).mono ?_
    have hl : Lock.webhookKey e ∈ stmtLocks v (store.applyAll D' ws)
        (.insertWebhookEvent e type payload) := by
      simp only [stmtLocks, if_neg hany, List.mem_cons, true_or]
    exact List.append_subset.mpr ⟨List.subset_append_left _ _,
      fun x hx => List.mem_append_right _ (List.mem_singleton.mp hx ▸ hl)⟩

theorem meets_insertPaymentEvent (hst : rely.Stable ls K) (hK : K D) {p : Uuid} {type : EventType}
    {prev : Option PaymentStatus} {new : PaymentStatus} {metadata : Json} {k : Unit → Tx α}
    (h : ∀ D' id, Inv D' → K D' → Meets store rely Q E now (k ())
      (ws ++ [.insertPaymentEvent ⟨id, p, type, prev, new, metadata, now⟩]) ls D') :
    Meets store rely Q E now ((insertPaymentEvent p type prev new metadata).bind k) ws ls D := by
  refine Meets.op hst hK fun D' hi hK' v hv r ws' he => ?_
  obtain ⟨id, -, hx⟩ := Option.map_eq_some_iff.mp he
  obtain ⟨rfl, rfl⟩ := Prod.mk.inj hx
  rw [hv]
  exact (h D' id hi hK').mono (List.subset_append_left _ _)

theorem meets_insertPaymentEventSelect (hst : rely.Stable ls K) (hK : K D) {p : Uuid}
    {type : EventType} {metadata : Payment → Json} {row : Payment} {k : Unit → Tx α}
    (hrow : ∀ D', K D' → (store.applyAll D' ws).payment? p = some row)
    (h : ∀ D' id, Inv D' → K D' → Meets store rely Q E now (k ())
      (ws ++ [.insertPaymentEvent ⟨id, p, type, some row.status, row.status, metadata row, now⟩])
      ls D') :
    Meets store rely Q E now ((insertPaymentEventSelect p type metadata).bind k) ws ls D := by
  refine Meets.op hst hK fun D' hi hK' v hv r ws' he => ?_
  have he' : stmtExec v (store.applyAll D' ws) (.insertPaymentEventSelect p type metadata) =
    some (r, ws') := he
  simp only [stmtExec, hrow D' hK'] at he'
  obtain ⟨id, -, hx⟩ := Option.map_eq_some_iff.mp he'
  obtain ⟨rfl, rfl⟩ := Prod.mk.inj hx
  rw [hv]
  exact (h D' id hi hK').mono (List.subset_append_left _ _)

theorem meets_insertRefundEvent (hst : rely.Stable ls K) (hK : K D) {q : Uuid} {type : EventType}
    {prev : Option RefundStatus} {new : RefundStatus} {metadata : Json} {k : Unit → Tx α}
    (h : ∀ D' id, Inv D' → K D' → Meets store rely Q E now (k ())
      (ws ++ [.insertRefundEvent ⟨id, q, type, prev, new, metadata, now⟩]) ls D') :
    Meets store rely Q E now ((insertRefundEvent q type prev new metadata).bind k) ws ls D := by
  refine Meets.op hst hK fun D' hi hK' v hv r ws' he => ?_
  obtain ⟨id, -, hx⟩ := Option.map_eq_some_iff.mp he
  obtain ⟨rfl, rfl⟩ := Prod.mk.inj hx
  rw [hv]
  exact (h D' id hi hK').mono (List.subset_append_left _ _)

theorem meets_insertOutboxEvent (hst : rely.Stable ls K) (hK : K D) {agg : Uuid}
    {type : EventType} {payload : Json} {k : Unit → Tx α}
    (h : ∀ D' id, Inv D' → K D' → Meets store rely Q E now (k ())
      (ws ++ [.insertOutboxEvent (newOutboxEvent now id agg type payload)]) ls D') :
    Meets store rely Q E now ((insertOutboxEvent agg type payload).bind k) ws ls D := by
  refine Meets.op hst hK fun D' hi hK' v hv r ws' he => ?_
  obtain ⟨id, -, hx⟩ := Option.map_eq_some_iff.mp he
  obtain ⟨rfl, rfl⟩ := Prod.mk.inj hx
  rw [hv]
  exact (h D' id hi hK').mono (List.subset_append_left _ _)

end rules

end Payflow.Spec
